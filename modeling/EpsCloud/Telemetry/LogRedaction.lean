import EpsCloud.Telemetry.LogLine

/-!
# Log lines and secrets

Two events that differ in secrets only are to be rendered as the same line, and the
line is to keep what is no secret and the type of an exception.

* `redactsWell_iff`: a rendered event does not depend on secrets and keeps the rest
  exactly when no field that is shown holds a secret inside, no exception is given as
  such, and no field of the event has to give way to the ones that are added.
-/

namespace EpsCloud

/-! ## Two runs -/

/-- The text function lower-cases ASCII texts. -/
def asciiLower (text : String) : String := String.ofList (text.toList.map Char.toLower)

def LowersAscii (lower : String → String) : Prop :=
  ∀ text, (text.toList.all fun c => c.toNat < 128) = true → lower text = asciiLower text

/-- A value of the event without what is not to be told: its secrets, and the message of a library's
record. -/
def scrubField (secret : String → Bool) (foreign : Bool) (field : String) (v : LogValue) :
    LogValue :=
  if secret field ∨ (field = "event" ∧ foreign) then .null else v.scrub secret

/-- The event without what is not to be told. -/
def scrubEvent (secret : String → Bool) (event : EventDict) : EventDict :=
  ((event.erase "stack_info").erase "exception").mapWithKey
    (scrubField secret (recordName event).isSome)

/-- Two events differ only in secrets, in the messages and tracebacks of exceptions and in the
message of a library's record. -/
structure SameButSecrets (lower : String → String) (ambient : Option ExceptionInfo)
    (event : EventDict) (ambient' : Option ExceptionInfo) (event' : EventDict) : Prop where
  fields : scrubEvent (isSecret lower) event' = scrubEvent (isSecret lower) event
  type : givenType ambient' event' = givenType ambient event

/-- The field is one that an event says something in. -/
def ToldField (lower : String → String) (event : EventDict) (field : String) : Prop :=
  field ∉ droppedFields ∧ isSecret lower field = false ∧
    ¬ (field = "event" ∧ (recordName event).isSome = true)

/-- What is rendered of an event does not depend on secrets and keeps the rest. -/
structure RedactsWell (lower : String → String) (ambient : Option ExceptionInfo)
    (event : EventDict) : Prop where
  alike : ∀ ambient' event', SameButSecrets lower ambient event ambient' event' →
    renderedEvent lower ambient' event' = renderedEvent lower ambient event
  names : (event.keys.filter fun field => field ∉ droppedFields) <+:
    (renderedEvent lower ambient event).keys
  types : ∀ typeName ∈ givenType ambient event,
    (renderedEvent lower ambient event).get? "error_type" = some (.str typeName)
  values : ∀ field v, ToldField lower event field → event.get? field = some v →
    ∃ v', (renderedEvent lower ambient event).get? field = some v' ∧
      v'.scrub (isSecret lower) = v.scrub (isSecret lower)

/-- No field that is told holds a secret inside, the fields that are added do not overwrite others,
and an exception that is given as itself has its type told already. -/
structure Redactable (lower : String → String) (ambient : Option ExceptionInfo)
    (event : EventDict) : Prop where
  plain : ∀ field v, ToldField lower event field → event.get? field = some v →
    v.plain (isSecret lower) = true
  logger : ∀ name ∈ recordName event, ∀ v ∈ event.get? "logger", v = .str name
  named : ∀ typeName ∈ namedType ambient event, ∀ v ∈ event.get? "error_type", v = .str typeName
  given : ∀ typeName ∈ instanceType event, event.get? "error_type" = some (.str typeName)

section TwoRuns

variable {lower : String → String} {ambient ambient' : Option ExceptionInfo}
  {event event' : EventDict}

/-- The fields that the code reads and writes. -/
def ownFields : List String := ["logger", "event", "error_type"] ++ droppedFields

/-- The fields that the code reads and writes are not secret. -/
theorem isSecret_own (hlower : LowersAscii lower) {field : String} (h : field ∈ ownFields) :
    isSecret lower field = false := by
  have hascii : ∀ field ∈ ownFields, (field.toList.all fun c => c.toNat < 128) = true ∧
      secretMarkers.any (fun marker => marker.toList <:+: (asciiLower field).toList) = false := by
    decide
  rw [isSecret, hlower field (hascii field h).1]
  exact (hascii field h).2

/-- A field of the event whose value is not scrubbed away. -/
theorem get?_scrubEvent (event : EventDict) {field : String}
    (hfield : field ≠ "stack_info" ∧ field ≠ "exception")
    (htold : ¬ (isSecret lower field = true ∨ field = "event" ∧ (recordName event).isSome = true)) :
    (scrubEvent (isSecret lower) event).get? field =
      (event.get? field).map (LogValue.scrub (isSecret lower)) := by
  rw [scrubEvent, Dict.get?_mapWithKey, Dict.get?_erase, Dict.get?_erase, if_neg hfield.2,
    if_neg hfield.1]
  exact Option.map_congr fun v _ => if_neg htold

/-- The form in which an exception is given is not a secret. -/
theorem namedType_eq (ambient : Option ExceptionInfo) (event : EventDict) :
    namedType ambient event =
      if (instanceType event).isSome then none else givenType ambient event := by
  unfold givenType namedType instanceType
  cases event.get? "exc_info" with
  | none => rfl
  | some value =>
    cases value with
    | exception => rfl
    | _ => exact (Option.or_none).symm

theorem recordName?_scrub (secret : String → Bool) (v : LogValue) :
    (v.scrub secret).recordName? = v.recordName? := by
  unfold LogValue.scrub
  cases v <;> rw [LogValue.rewrite] <;> rfl

theorem instanceType?_scrub (secret : String → Bool) (v : LogValue) :
    (v.scrub secret).instanceType? = v.instanceType? := by
  unfold LogValue.scrub
  cases v <;> rw [LogValue.rewrite] <;> rfl

/-- What is read of a field the same way with and without its secrets is the same in both runs. -/
theorem SameButSecrets.bind_eq (h : SameButSecrets lower ambient event ambient' event')
    {field : String} (hfield : field ≠ "stack_info" ∧ field ≠ "exception" ∧ field ≠ "event")
    (hsecret : isSecret lower field = false) (f : LogValue → Option String)
    (hf : ∀ v, f (v.scrub (isSecret lower)) = f v) :
    (event'.get? field).bind f = (event.get? field).bind f := by
  have htold : ∀ event : EventDict,
      ¬ (isSecret lower field = true ∨ field = "event" ∧ (recordName event).isSome = true) := by
    intro event
    simp [hsecret, hfield.2.2]
  have hget : ((scrubEvent _ event').get? field).bind f =
      ((scrubEvent _ event).get? field).bind f :=
    congrArg (fun d => (d.get? field).bind f) h.fields
  rw [get?_scrubEvent event' ⟨hfield.1, hfield.2.1⟩ (htold _),
    get?_scrubEvent event ⟨hfield.1, hfield.2.1⟩ (htold _), Option.bind_map,
    Option.bind_map] at hget
  simpa only [Function.comp_def, hf] using hget

theorem SameButSecrets.recordName_eq (hlower : LowersAscii lower)
    (h : SameButSecrets lower ambient event ambient' event') :
    recordName event' = recordName event :=
  h.bind_eq (by decide) (isSecret_own hlower (by decide)) LogValue.recordName?
    (recordName?_scrub _)

theorem SameButSecrets.namedType_eq (hlower : LowersAscii lower)
    (h : SameButSecrets lower ambient event ambient' event') :
    namedType ambient' event' = namedType ambient event := by
  have hinstance : instanceType event' = instanceType event :=
    h.bind_eq (by decide) (isSecret_own hlower (by decide)) LogValue.instanceType?
      (instanceType?_scrub _)
  rw [EpsCloud.namedType_eq, EpsCloud.namedType_eq, hinstance, h.type]

/-- The same fields are kept. -/
theorem SameButSecrets.keys_eq (h : SameButSecrets lower ambient event ambient' event') :
    (event'.keys.filter fun field => field ∉ droppedFields) =
      event.keys.filter fun field => field ∉ droppedFields := by
  have hkeys : ∀ event : EventDict, (event.keys.filter fun field => field ∉ droppedFields) =
      (scrubEvent (isSecret lower) event).keys.filter fun field => field ∉ droppedFields := by
    intro event
    rw [scrubEvent, Dict.keys_mapWithKey, Dict.keys_erase, Dict.keys_erase, List.filter_filter,
      List.filter_filter]
    refine List.filter_congr fun field _ => ?_
    simp only [droppedFields, List.mem_cons, List.not_mem_nil, or_false, not_or]
    grind
  rw [hkeys event', hkeys event, h.fields]

/-- A field that is told has the same value up to the secrets inside it. -/
theorem SameButSecrets.get?_eq (hlower : LowersAscii lower)
    (h : SameButSecrets lower ambient event ambient' event') {field : String}
    (htold : ToldField lower event field) :
    (event'.get? field).map (LogValue.scrub (isSecret lower)) =
      (event.get? field).map (LogValue.scrub (isSecret lower)) := by
  obtain ⟨hkept, hsecret, hevent⟩ := htold
  have hne : field ≠ "stack_info" ∧ field ≠ "exception" := by
    constructor <;> rintro rfl <;> exact hkept (by decide)
  have hget : (scrubEvent _ event').get? field = (scrubEvent _ event).get? field :=
    congrArg (Dict.get? · field) h.fields
  rwa [get?_scrubEvent event' hne (by simpa [hsecret, h.recordName_eq hlower] using hevent),
    get?_scrubEvent event hne (by simpa [hsecret] using hevent)] at hget

/-- A secret field is in both events or in neither. -/
theorem SameButSecrets.isSome_eq (h : SameButSecrets lower ambient event ambient' event')
    {field : String} (hkept : field ∉ droppedFields) :
    (event'.get? field).isSome = (event.get? field).isSome := by
  have hmem : ∀ event : EventDict, field ∈ event.keys ↔
      field ∈ event.keys.filter fun field => field ∉ droppedFields := by
    intro event
    rw [List.mem_filter]
    simp [hkept]
  rw [Bool.eq_iff_iff, Dict.isSome_get?_iff, Dict.isSome_get?_iff, hmem event', hmem event,
    h.keys_eq]

/-- **A redactable event is rendered alike** whatever its secrets. -/
theorem rendered_eq (hlower : LowersAscii lower) (hok : Redactable lower ambient event)
    (h : SameButSecrets lower ambient event ambient' event') :
    renderedEvent lower ambient' event' = renderedEvent lower ambient event := by
  have hrecord := h.recordName_eq hlower
  have htype := h.namedType_eq hlower
  refine Dict.ext_get? ?_ fun field => ?_
  · rw [keys_rendered, keys_rendered, hrecord, htype, h.keys_eq]
  rw [get?_rendered, get?_rendered]
  by_cases hdropped : field ∈ droppedFields
  · rw [if_pos hdropped, if_pos hdropped]
  rw [if_neg hdropped, if_neg hdropped]
  unfold writtenField
  rw [hrecord, htype]
  -- a field that is written is the same, and one that is secret is hidden
  by_cases htyped : field = "error_type" ∧ (namedType ambient event).isSome
  · rw [if_pos htyped, if_pos htyped]
  rw [if_neg htyped, if_neg htyped]
  by_cases hmessage : field = "event" ∧ (recordName event).isSome
  · rw [if_pos hmessage, if_pos hmessage]
  rw [if_neg hmessage, if_neg hmessage]
  by_cases hlogger : field = "logger" ∧ (recordName event).isSome
  · rw [if_pos hlogger, if_pos hlogger]
  rw [if_neg hlogger, if_neg hlogger]
  cases hsecret : isSecret lower field with
  | true =>
    have hsome := h.isSome_eq hdropped
    cases h' : event'.get? field <;> cases h'' : event.get? field <;> simp_all
  | false =>
    have htold : ToldField lower event field := ⟨hdropped, hsecret, hmessage⟩
    have hget := h.get?_eq hlower htold
    cases hv : event.get? field with
    | none =>
      rw [hv, Option.map_none, Option.map_eq_none_iff] at hget
      rw [hget]
    | some v =>
      rw [hv, Option.map_some, Option.map_eq_some_iff] at hget
      obtain ⟨v', hv', hscrub⟩ := hget
      rw [hv', eq_of_scrub_eq (hok.plain field v htold hv) hscrub]

theorem told_own (hlower : LowersAscii lower) {field : String}
    (h : field = "logger" ∨ field = "error_type") : ToldField lower event field := by
  rcases h with rfl | rfl
  · exact ⟨by decide, isSecret_own hlower (by decide), by simp⟩
  · exact ⟨by decide, isSecret_own hlower (by decide), by simp⟩

/-- A field that is told is rendered as it is written. -/
theorem get?_rendered_of_told {field : String} (h : ToldField lower event field) :
    (renderedEvent lower ambient event).get? field = writtenField ambient event field := by
  rw [get?_rendered, if_neg h.1]
  simp [h.2.1]

theorem writtenField_error_type {typeName : String} (h : namedType ambient event = some typeName) :
    writtenField ambient event "error_type" = some (.str typeName) := by
  rw [writtenField, if_pos ⟨rfl, by rw [h]; rfl⟩, h]
  rfl

theorem writtenField_logger {name : String} (h : recordName event = some name) :
    writtenField ambient event "logger" = some (.str name) := by
  rw [writtenField, if_neg (by simp), if_neg (by simp), if_pos ⟨rfl, by rw [h]; rfl⟩, h]
  rfl

/-- The other fields are written as they are. -/
theorem writtenField_of_told {field : String} (h : ToldField lower event field)
    (htype : ¬ (field = "error_type" ∧ (namedType ambient event).isSome = true))
    (hlogger : ¬ (field = "logger" ∧ (recordName event).isSome = true)) :
    writtenField ambient event field = event.get? field := by
  rw [writtenField, if_neg htype, if_neg h.2.2, if_neg hlogger]

theorem eq_str_of_scrub {secret : String → Bool} {v : LogValue} {text : String}
    (h : LogValue.scrub secret (.str text) = v.scrub secret) : v = .str text :=
  eq_of_scrub_eq (v := .str text) (by rw [LogValue.plain]) h.symm

theorem namedType_of_instanceType {typeName : String} (h : instanceType event = some typeName) :
    namedType ambient event = none := by
  rw [EpsCloud.namedType_eq, h]
  rfl

/-- An event in which one field has other secrets differs in these only. -/
theorem sameButSecrets_set {field : String} {v v' : LogValue} (hkept : field ∉ droppedFields)
    (hv : event.get? field = some v)
    (h : v'.scrub (isSecret lower) = v.scrub (isSecret lower)) :
    SameButSecrets lower ambient event ambient (event.set field v') := by
  have hother : ∀ other ∈ droppedFields, (event.set field v').get? other = event.get? other := by
    intro other hother
    rw [Dict.get?_set, if_neg]
    rintro rfl
    exact hkept hother
  have hrecord : recordName (event.set field v') = recordName event := by
    rw [recordName, hother "_record" (by decide), recordName]
  have hexc := hother "exc_info" (by decide)
  refine ⟨?_, by rw [givenType, givenType, namedType, namedType, instanceType, instanceType, hexc]⟩
  refine Dict.ext_get? ?_ fun other => ?_
  · rw [scrubEvent, scrubEvent, Dict.keys_mapWithKey, Dict.keys_mapWithKey, Dict.keys_erase,
      Dict.keys_erase, Dict.keys_erase, Dict.keys_erase, Dict.keys_set,
      if_pos (Dict.isSome_get?_iff.mp (by rw [hv]; rfl))]
  · rw [scrubEvent, scrubEvent, hrecord]
    simp only [Dict.get?_mapWithKey, Dict.get?_erase, Dict.get?_set]
    by_cases heq : other = field
    · subst heq
      rw [if_pos rfl, hv]
      split_ifs
      · rfl
      · rfl
      · simp only [Option.map_some, scrubField, h]
    · rw [if_neg heq]

/-- What has to hold of an event that is redacted well. -/
theorem redactable_of_redactsWell (hlower : LowersAscii lower)
    (h : RedactsWell lower ambient event) : Redactable lower ambient event := by
  have hlogger : ∀ name ∈ recordName event, ∀ v ∈ event.get? "logger", v = .str name := by
    intro name hname v hv
    have htold : ToldField lower event "logger" := told_own hlower (Or.inl rfl)
    obtain ⟨v', hv', hscrub⟩ := h.values _ v htold hv
    rw [get?_rendered_of_told htold, writtenField_logger hname] at hv'
    exact eq_str_of_scrub (Option.some.inj hv' ▸ hscrub)
  have hnamed : ∀ typeName ∈ namedType ambient event, ∀ v ∈ event.get? "error_type",
      v = .str typeName := by
    intro typeName htype v hv
    have htold : ToldField lower event "error_type" := told_own hlower (Or.inr rfl)
    obtain ⟨v', hv', hscrub⟩ := h.values _ v htold hv
    rw [get?_rendered_of_told htold, writtenField_error_type htype] at hv'
    exact eq_str_of_scrub (Option.some.inj hv' ▸ hscrub)
  refine ⟨fun field v htold hv => ?_, hlogger, hnamed, fun typeName htype => ?_⟩
  · by_cases htype : field = "error_type" ∧ (namedType ambient event).isSome = true
    · obtain ⟨typeName, htypeName⟩ := Option.isSome_iff_exists.mp htype.2
      rw [hnamed typeName htypeName v (htype.1 ▸ hv), LogValue.plain]
    by_cases hrecord : field = "logger" ∧ (recordName event).isSome = true
    · obtain ⟨name, hname⟩ := Option.isSome_iff_exists.mp hrecord.2
      rw [hlogger name hname v (hrecord.1 ▸ hv), LogValue.plain]
    -- the field is rendered as it is, with the secrets inside it
    by_contra hplain
    let event' := event.set field (v.disturb (isSecret lower))
    have hsame : SameButSecrets lower ambient event ambient event' :=
      sameButSecrets_set htold.1 hv (scrub_rewrite _ _ v)
    have htold' : ToldField lower event' field := by
      refine ⟨htold.1, htold.2.1, ?_⟩
      rw [hsame.recordName_eq hlower]
      exact htold.2.2
    have hwritten : writtenField ambient event' field = writtenField ambient event field := by
      rw [← get?_rendered_of_told htold', ← get?_rendered_of_told htold,
        h.alike ambient event' hsame]
    rw [writtenField_of_told htold htype hrecord, writtenField_of_told htold'
      (by rwa [hsame.namedType_eq hlower]) (by rwa [hsame.recordName_eq hlower]), hv,
      Dict.get?_set, if_pos rfl] at hwritten
    exact disturb_ne v (Bool.not_eq_true _ ▸ hplain) (Option.some.inj hwritten)
  · have hnone : namedType ambient event = none := namedType_of_instanceType htype
    have hgiven : givenType ambient event = some typeName := by
      rw [givenType, hnone, htype]
      rfl
    have htold : ToldField lower event "error_type" := told_own hlower (Or.inr rfl)
    have hrendered := h.types typeName hgiven
    rwa [get?_rendered_of_told htold, writtenField_of_told htold (by simp [hnone]) (by simp)]
      at hrendered

/-- A redactable event is redacted well. -/
theorem Redactable.redactsWell (hlower : LowersAscii lower) (h : Redactable lower ambient event) :
    RedactsWell lower ambient event := by
  refine ⟨fun _ _ hsame => rendered_eq hlower h hsame, ?_, fun typeName htype => ?_,
    fun field v htold hv => ?_⟩
  · rw [keys_rendered]
    exact (prefix_addKeyIf _ _ _).trans ((prefix_addKeyIf _ _ _).trans (prefix_addKeyIf _ _ _))
  · have htold : ToldField lower event "error_type" := told_own hlower (Or.inr rfl)
    rw [get?_rendered_of_told htold]
    cases hnamed : namedType ambient event with
    | some named =>
      rw [Option.mem_def, givenType, hnamed, Option.some_or] at htype
      rw [writtenField_error_type (hnamed.trans htype)]
    | none =>
      rw [Option.mem_def, givenType, hnamed, Option.none_or] at htype
      rw [writtenField_of_told htold (by simp [hnamed]) (by simp)]
      exact h.given typeName htype
  · rw [get?_rendered_of_told htold]
    by_cases htype : field = "error_type" ∧ (namedType ambient event).isSome = true
    · obtain ⟨typeName, htypeName⟩ := Option.isSome_iff_exists.mp htype.2
      rw [htype.1, writtenField_error_type htypeName]
      exact ⟨_, rfl, by rw [h.named typeName htypeName v (htype.1 ▸ hv)]⟩
    by_cases hrecord : field = "logger" ∧ (recordName event).isSome = true
    · obtain ⟨name, hname⟩ := Option.isSome_iff_exists.mp hrecord.2
      rw [hrecord.1, writtenField_logger hname]
      exact ⟨_, rfl, by rw [h.logger name hname v (hrecord.1 ▸ hv)]⟩
    · exact ⟨v, (writtenField_of_told htold htype hrecord).trans hv, rfl⟩

end TwoRuns

/-- **Which events are redacted well**: what is rendered does not depend on secrets and keeps names,
types and the other values, exactly when no field that is told holds a secret inside, an exception
given as itself has its type told already, and no field gives way to another value. -/
theorem redactsWell_iff (lower : String → String) (hlower : LowersAscii lower)
    (ambient : Option ExceptionInfo) (event : EventDict) :
    RedactsWell lower ambient event ↔ Redactable lower ambient event :=
  ⟨redactable_of_redactsWell hlower, Redactable.redactsWell hlower⟩

/-- A failed job, with a password among its fields and its exception being handled. -/
def jobFailed : EventDict :=
  ⟨[("event", .str "job failed"), ("Password", .str "hunter2"), ("exc_info", .bool true),
    ("exception", .str "Traceback"), ("attempt", .int 2)], by decide⟩

theorem redactsWell_iff_jobFailed :
    RedactsWell asciiLower (some ⟨"RuntimeError", "hunter2", "Traceback"⟩) jobFailed := by
  refine (redactsWell_iff asciiLower (fun _ _ => rfl) _ _).mpr ⟨?_, ?_, ?_, ?_⟩
  · intro field v htold hv
    have hentry := Dict.mem_entries_of_get? hv
    simp only [jobFailed, List.mem_cons, List.not_mem_nil, or_false, Prod.mk.injEq] at hentry
    rcases hentry with ⟨-, rfl⟩ | ⟨-, rfl⟩ | ⟨-, rfl⟩ | ⟨-, rfl⟩ | ⟨-, rfl⟩ <;> rw [LogValue.plain]
  · intro name hname
    have hrecord : recordName jobFailed = none := rfl
    exact absurd (hrecord.symm.trans hname) (by simp)
  · intro typeName _ v hv
    have htype : jobFailed.get? "error_type" = none := rfl
    exact absurd (htype.symm.trans hv) (by simp)
  · intro typeName hinstance
    have hnone : instanceType jobFailed = none := rfl
    exact absurd (hnone.symm.trans hinstance) (by simp)

/-- A request whose headers are one field. -/
def requestFailed : EventDict :=
  ⟨[("event", .str "request failed"), ("headers", .dict [("Token", .str "abc")])], by decide⟩

/-- The token among the headers is rendered. -/
theorem not_redactsWell_requestFailed : ¬ RedactsWell asciiLower none requestFailed := by
  intro h
  have hplain := (redactable_of_redactsWell (fun _ _ => rfl) h).plain "headers"
    (.dict [("Token", .str "abc")])
    ⟨by decide, by decide, by decide⟩ rfl
  exact absurd hplain (by decide)

end EpsCloud

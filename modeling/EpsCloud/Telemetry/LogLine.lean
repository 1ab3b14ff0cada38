import EpsCloud.Library.Dict

/-!
# What a log line tells

`app.logging.redact_secrets` is the last processor before an event is rendered as
JSON.  It names the type of an exception and drops the rest of it, replaces the
message of a library's record, and redacts the fields whose name contains a marker.
It looks at the names of the event's own fields only: a dictionary in one of them is
rendered as it is.  It also names the type of an exception only where the exception
comes as `True` or as a triple, although an exception itself may be given.

* `LogValue.rewrite`: a value with its secrets changed, at any depth.
* `get?_rendered`: what is rendered, field by field.
-/

namespace EpsCloud

/-! ## Events -/

/-- What `sys.exc_info()` tells of an exception. -/
structure ExceptionInfo where
  typeName : String
  message : String
  traceback : String
  deriving DecidableEq, Repr

/-- A value of an event, as far as a JSON renderer shows it. -/
inductive LogValue where
  | null
  | bool (value : Bool)
  | int (value : ℤ)
  | float (bits : ℕ)
  | str (text : String)
  | list (items : List LogValue)
  | dict (entries : List (String × LogValue))
  /-- Any other object, by its `repr`. -/
  | object (repr : String)
  | exception (typeName message : String)
  /-- A triple of type, exception and traceback, or of three times `None`. -/
  | excTriple (info : Option ExceptionInfo)
  /-- A `logging.LogRecord`. -/
  | logRecord (name message : String)

/-- An event dictionary. -/
abbrev EventDict := Dict String LogValue

/-! ## The source -/

/-- `SECRET_MARKERS`. -/
def secretMarkers : List String :=
  ["password", "secret", "token", "key", "credential", "database_url"]

/-- The lower-cased name of the field contains a marker. -/
def isSecret (lower : String → String) (field : String) : Bool :=
  secretMarkers.any fun marker => marker.toList <:+: (lower field).toList

/-- `redact_secrets`, where `ambient` is the exception that is being handled. -/
def redactSecrets (lower : String → String) (ambient : Option ExceptionInfo) (event : EventDict) :
    EventDict :=
  let named := match event.get? "_record" with
    | some (.logRecord name _) =>
      (event.set "logger" (.str name)).set "event" (.str "library_log")
    | _ => event
  let exception : Option LogValue := match named.get? "exc_info" with
    | some (.bool true) => some (.excTriple ambient)
    | other => other
  let popped := named.erase "exc_info"
  let typed := match exception with
    | some (.excTriple (some info)) => popped.set "error_type" (.str info.typeName)
    | _ => popped
  ((typed.erase "stack_info").erase "exception").mapWithKey fun field value =>
    if isSecret lower field then .str "[redacted]" else value

/-- The event that is rendered: the formatter drops the two fields that it has added. -/
def renderedEvent (lower : String → String) (ambient : Option ExceptionInfo) (event : EventDict) :
    EventDict :=
  ((redactSecrets lower ambient event).erase "_record").erase "_from_structlog"

/-! ## Secrets -/

mutual

/-- The value with the secrets inside it changed: `hide` for what stands under a secret name, and
`reword` for the messages and tracebacks of exceptions and records. -/
def LogValue.rewrite (secret : String → Bool) (hide : LogValue → LogValue)
    (reword : String → String) : LogValue → LogValue
  | .list items => .list (rewriteItems secret hide reword items)
  | .dict entries => .dict (rewriteEntries secret hide reword entries)
  | .exception typeName message => .exception typeName (reword message)
  | .excTriple info =>
    .excTriple (info.map fun i => ⟨i.typeName, reword i.message, reword i.traceback⟩)
  | .logRecord name message => .logRecord name (reword message)
  | .null => .null
  | .bool value => .bool value
  | .int value => .int value
  | .float bits => .float bits
  | .str text => .str text
  | .object repr => .object repr

def rewriteItems (secret : String → Bool) (hide : LogValue → LogValue)
    (reword : String → String) : List LogValue → List LogValue
  | [] => []
  | v :: items => v.rewrite secret hide reword :: rewriteItems secret hide reword items

def rewriteEntries (secret : String → Bool) (hide : LogValue → LogValue)
    (reword : String → String) : List (String × LogValue) → List (String × LogValue)
  | [] => []
  | (field, v) :: entries =>
    (field, if secret field then hide v else v.rewrite secret hide reword) ::
      rewriteEntries secret hide reword entries

end

mutual

/-- There is no secret inside the value. -/
def LogValue.plain (secret : String → Bool) : LogValue → Bool
  | .list items => plainItems secret items
  | .dict entries => plainEntries secret entries
  | .exception _ _ => false
  | .excTriple info => info.isNone
  | .logRecord _ _ => false
  | .null => true
  | .bool _ => true
  | .int _ => true
  | .float _ => true
  | .str _ => true
  | .object _ => true

def plainItems (secret : String → Bool) : List LogValue → Bool
  | [] => true
  | v :: items => v.plain secret && plainItems secret items

def plainEntries (secret : String → Bool) : List (String × LogValue) → Bool
  | [] => true
  | (field, v) :: entries =>
    !secret field && v.plain secret && plainEntries secret entries

end

/-- The value without its secrets. -/
def LogValue.scrub (secret : String → Bool) (v : LogValue) : LogValue :=
  v.rewrite secret (fun _ => .null) (fun _ => "")

/-- The value with every secret inside it made another one. -/
def LogValue.disturb (secret : String → Bool) (v : LogValue) : LogValue :=
  v.rewrite secret (fun v => .list [v]) (fun text => text.push '!')

section Rewrite

variable {secret : String → Bool} (hide : LogValue → LogValue) (reword : String → String)

mutual

/-- A value without secrets is not changed. -/
theorem rewrite_of_plain (v : LogValue) (h : v.plain secret = true) :
    v.rewrite secret hide reword = v := by
  cases v with
  | list items => rw [LogValue.rewrite, rewriteItems_of_plain items (by rwa [LogValue.plain] at h)]
  | dict entries =>
    rw [LogValue.rewrite, rewriteEntries_of_plain entries (by rwa [LogValue.plain] at h)]
  | exception typeName message => exact absurd h (by simp [LogValue.plain])
  | excTriple info =>
    rw [LogValue.plain, Option.isNone_iff_eq_none] at h
    rw [h, LogValue.rewrite, Option.map_none]
  | logRecord name message => exact absurd h (by simp [LogValue.plain])
  | _ => rw [LogValue.rewrite]

theorem rewriteItems_of_plain (items : List LogValue) (h : plainItems secret items = true) :
    rewriteItems secret hide reword items = items := by
  cases items with
  | nil => rw [rewriteItems]
  | cons v items =>
    rw [plainItems, Bool.and_eq_true] at h
    rw [rewriteItems, rewrite_of_plain v h.1, rewriteItems_of_plain items h.2]

theorem rewriteEntries_of_plain (entries : List (String × LogValue))
    (h : plainEntries secret entries = true) :
    rewriteEntries secret hide reword entries = entries := by
  cases entries with
  | nil => rw [rewriteEntries]
  | cons entry entries =>
    obtain ⟨field, v⟩ := entry
    rw [plainEntries, Bool.and_eq_true, Bool.and_eq_true, Bool.not_eq_true'] at h
    rw [rewriteEntries, h.1.1, rewrite_of_plain v h.1.2, rewriteEntries_of_plain entries h.2]
    rfl

end

mutual

/-- What is left without the secrets does not depend on them. -/
theorem scrub_rewrite (v : LogValue) :
    (v.rewrite secret hide reword).scrub secret = v.scrub secret := by
  unfold LogValue.scrub
  cases v with
  | list items =>
    rw [LogValue.rewrite, LogValue.rewrite, LogValue.rewrite, scrubItems_rewrite items]
  | dict entries =>
    rw [LogValue.rewrite, LogValue.rewrite, LogValue.rewrite, scrubEntries_rewrite entries]
  | excTriple info =>
    rw [LogValue.rewrite, LogValue.rewrite, LogValue.rewrite, Option.map_map]
    rfl
  | _ => simp only [LogValue.rewrite]

theorem scrubItems_rewrite (items : List LogValue) :
    rewriteItems secret (fun _ => .null) (fun _ => "") (rewriteItems secret hide reword items) =
      rewriteItems secret (fun _ => .null) (fun _ => "") items := by
  cases items with
  | nil => rw [rewriteItems]
  | cons v items =>
    have hv := scrub_rewrite v
    unfold LogValue.scrub at hv
    rw [rewriteItems, rewriteItems, rewriteItems, hv, scrubItems_rewrite items]

theorem scrubEntries_rewrite (entries : List (String × LogValue)) :
    rewriteEntries secret (fun _ => .null) (fun _ => "")
        (rewriteEntries secret hide reword entries) =
      rewriteEntries secret (fun _ => .null) (fun _ => "") entries := by
  cases entries with
  | nil => rw [rewriteEntries]
  | cons entry entries =>
    obtain ⟨field, v⟩ := entry
    have hv := scrub_rewrite v
    unfold LogValue.scrub at hv
    rw [rewriteEntries, rewriteEntries, rewriteEntries, scrubEntries_rewrite entries]
    split_ifs with hsecret
    · rfl
    · rw [hv]

end

mutual

theorem plain_rewrite (v : LogValue) :
    (v.rewrite secret hide reword).plain secret = v.plain secret := by
  cases v with
  | list items =>
    rw [LogValue.rewrite, LogValue.plain, LogValue.plain, plainItems_rewrite items]
  | dict entries =>
    rw [LogValue.rewrite, LogValue.plain, LogValue.plain, plainEntries_rewrite entries]
  | excTriple info => rw [LogValue.rewrite, LogValue.plain, LogValue.plain, Option.isNone_map]
  | _ => simp only [LogValue.rewrite, LogValue.plain]

theorem plainItems_rewrite (items : List LogValue) :
    plainItems secret (rewriteItems secret hide reword items) = plainItems secret items := by
  cases items with
  | nil => rw [rewriteItems]
  | cons v items =>
    rw [rewriteItems, plainItems, plainItems, plain_rewrite v, plainItems_rewrite items]

theorem plainEntries_rewrite (entries : List (String × LogValue)) :
    plainEntries secret (rewriteEntries secret hide reword entries) =
      plainEntries secret entries := by
  cases entries with
  | nil => rw [rewriteEntries]
  | cons entry entries =>
    obtain ⟨field, v⟩ := entry
    rw [rewriteEntries, plainEntries, plainEntries, plainEntries_rewrite entries]
    cases hsecret : secret field with
    | true => rfl
    | false => rw [if_neg Bool.false_ne_true, plain_rewrite v]

end

theorem push_ne (text : String) : text.push '!' ≠ text := fun h => by
  have hlength := congrArg String.length h
  rw [String.length_push] at hlength
  omega

theorem list_singleton_ne (v : LogValue) : .list [v] ≠ v := fun h => by
  have hsize := congrArg sizeOf h
  simp only [LogValue.list.sizeOf_spec, List.cons.sizeOf_spec, List.nil.sizeOf_spec] at hsize
  omega

mutual

/-- A value with a secret inside changes with it. -/
theorem disturb_ne (v : LogValue) (h : v.plain secret = false) : v.disturb secret ≠ v := by
  unfold LogValue.disturb
  cases v with
  | list items =>
    rw [LogValue.rewrite]
    exact fun heq => disturbItems_ne items (by rwa [LogValue.plain] at h) (LogValue.list.inj heq)
  | dict entries =>
    rw [LogValue.rewrite]
    exact fun heq => disturbEntries_ne entries (by rwa [LogValue.plain] at h)
      (LogValue.dict.inj heq)
  | exception typeName message =>
    rw [LogValue.rewrite]
    exact fun heq => push_ne message (LogValue.exception.inj heq).2
  | excTriple info =>
    cases info with
    | none => exact absurd h (by simp [LogValue.plain])
    | some info =>
      rw [LogValue.rewrite]
      intro heq
      have hinfo := Option.some.inj (LogValue.excTriple.inj heq)
      exact push_ne info.message (congrArg ExceptionInfo.message hinfo)
  | logRecord name message =>
    rw [LogValue.rewrite]
    exact fun heq => push_ne message (LogValue.logRecord.inj heq).2
  | _ => exact absurd h (by simp [LogValue.plain])

theorem disturbItems_ne (items : List LogValue) (h : plainItems secret items = false) :
    rewriteItems secret (fun v => .list [v]) (fun text => text.push '!') items ≠ items := by
  cases items with
  | nil => exact absurd h (by simp [plainItems])
  | cons v items =>
    rw [plainItems, Bool.and_eq_false_iff] at h
    rw [rewriteItems]
    intro heq
    obtain ⟨hv, hitems⟩ := List.cons.inj heq
    rcases h with h | h
    · exact disturb_ne v h hv
    · exact disturbItems_ne items h hitems

theorem disturbEntries_ne (entries : List (String × LogValue))
    (h : plainEntries secret entries = false) :
    rewriteEntries secret (fun v => .list [v]) (fun text => text.push '!') entries ≠ entries := by
  cases entries with
  | nil => exact absurd h (by simp [plainEntries])
  | cons entry entries =>
    obtain ⟨field, v⟩ := entry
    rw [plainEntries, Bool.and_eq_false_iff, Bool.and_eq_false_iff, Bool.not_eq_false'] at h
    rw [rewriteEntries]
    intro heq
    obtain ⟨hentry, hentries⟩ := List.cons.inj heq
    have hv := congrArg Prod.snd hentry
    dsimp only at hv
    rcases h with (hsecret | h) | h
    · rw [if_pos hsecret] at hv
      exact list_singleton_ne v hv
    · split_ifs at hv with hsecret
      · exact list_singleton_ne v hv
      · exact disturb_ne v h hv
    · exact disturbEntries_ne entries h hentries

end

/-- A value without secrets is told from every other one by what is not secret. -/
theorem eq_of_scrub_eq {v v' : LogValue} (hplain : v.plain secret = true)
    (h : v'.scrub secret = v.scrub secret) : v' = v := by
  have hplain' : v'.plain secret = true := by
    rw [← plain_rewrite (fun _ => .null) (fun _ => "") v']
    exact (congrArg (LogValue.plain secret) h).trans ((plain_rewrite _ _ v).trans hplain)
  have hv := rewrite_of_plain (fun _ => .null) (fun _ => "") v hplain
  have hv' := rewrite_of_plain (fun _ => .null) (fun _ => "") v' hplain'
  exact hv'.symm.trans (h.trans hv)

end Rewrite

/-! ## What is rendered -/

def LogValue.recordName? : LogValue → Option String
  | .logRecord name _ => some name
  | _ => none

/-- The name of the library's record, if the event is one of a library. -/
def recordName (event : EventDict) : Option String :=
  (event.get? "_record").bind LogValue.recordName?

def LogValue.namedType? (ambient : Option ExceptionInfo) : LogValue → Option String
  | .bool true => ambient.map ExceptionInfo.typeName
  | .excTriple info => info.map ExceptionInfo.typeName
  | _ => none

/-- The type of the exception that is given as `True` or as a triple. -/
def namedType (ambient : Option ExceptionInfo) (event : EventDict) : Option String :=
  (event.get? "exc_info").bind (LogValue.namedType? ambient)

def LogValue.instanceType? : LogValue → Option String
  | .exception typeName _ => some typeName
  | _ => none

/-- The type of the exception that is given as itself. -/
def instanceType (event : EventDict) : Option String :=
  (event.get? "exc_info").bind LogValue.instanceType?

/-- The type of the exception, in whichever of the three forms it is given. -/
def givenType (ambient : Option ExceptionInfo) (event : EventDict) : Option String :=
  (namedType ambient event).or (instanceType event)

/-- The fields that are dropped. -/
def droppedFields : List String :=
  ["exc_info", "stack_info", "exception", "_record", "_from_structlog"]

/-- The fields that a library's record sets. -/
def withRecord (event : EventDict) : Option String → EventDict
  | some name => (event.set "logger" (.str name)).set "event" (.str "library_log")
  | none => event

/-- The field that an exception sets. -/
def withType (event : EventDict) : Option String → EventDict
  | some typeName => event.set "error_type" (.str typeName)
  | none => event

theorem get?_withRecord (event : EventDict) (name : Option String) (field : String) :
    (withRecord event name).get? field =
      if field = "event" ∧ name.isSome then some (.str "library_log")
      else if field = "logger" ∧ name.isSome then name.map .str
      else event.get? field := by
  cases name with
  | none => simp [withRecord]
  | some name =>
    rw [withRecord, Dict.get?_set, Dict.get?_set]
    simp

theorem get?_withType (event : EventDict) (typeName : Option String) (field : String) :
    (withType event typeName).get? field =
      if field = "error_type" ∧ typeName.isSome then typeName.map .str else event.get? field := by
  cases typeName with
  | none => simp [withType]
  | some typeName =>
    rw [withType, Dict.get?_set]
    simp

section Rendered

variable (lower : String → String) (ambient : Option ExceptionInfo) (event : EventDict)

theorem redactSecrets_eq :
    redactSecrets lower ambient event =
      (((withType ((withRecord event (recordName event)).erase "exc_info")
        (namedType ambient event)).erase "stack_info").erase "exception").mapWithKey
        fun field value => if isSecret lower field then .str "[redacted]" else value := by
  have hnamed : (match event.get? "_record" with
      | some (.logRecord name _) =>
        (event.set "logger" (.str name)).set "event" (.str "library_log")
      | _ => event) = withRecord event (recordName event) := by
    unfold recordName
    cases event.get? "_record" with
    | none => rfl
    | some value => cases value <;> rfl
  have hexception : (withRecord event (recordName event)).get? "exc_info" =
      event.get? "exc_info" := by
    rw [get?_withRecord, if_neg (by simp), if_neg (by simp)]
  unfold redactSecrets
  dsimp only
  rw [hnamed, hexception]
  congr 3
  unfold namedType
  cases event.get? "exc_info" with
  | none => rfl
  | some value =>
    cases value with
    | bool b => cases b <;> cases ambient <;> rfl
    | excTriple info => cases info <;> rfl
    | _ => rfl

/-- A field, before the secret ones are redacted. -/
def writtenField (field : String) : Option LogValue :=
  if field = "error_type" ∧ (namedType ambient event).isSome then
    (namedType ambient event).map .str
  else if field = "event" ∧ (recordName event).isSome then some (.str "library_log")
  else if field = "logger" ∧ (recordName event).isSome then (recordName event).map .str
  else event.get? field

/-- **What is rendered, field by field.** -/
theorem get?_rendered (field : String) :
    (renderedEvent lower ambient event).get? field =
      if field ∈ droppedFields then none
      else (writtenField ambient event field).map fun value =>
        if isSecret lower field then .str "[redacted]" else value := by
  rw [renderedEvent, redactSecrets_eq]
  simp only [Dict.get?_erase, Dict.get?_mapWithKey, get?_withType, get?_withRecord, droppedFields,
    List.mem_cons, List.not_mem_nil, or_false, writtenField]
  by_cases hdropped : field = "exc_info" ∨ field = "stack_info" ∨ field = "exception" ∨
      field = "_record" ∨ field = "_from_structlog"
  · rw [if_pos hdropped]
    rcases hdropped with rfl | rfl | rfl | rfl | rfl <;> simp
  · rw [if_neg hdropped]
    simp only [not_or] at hdropped
    rw [if_neg hdropped.2.2.2.2, if_neg hdropped.2.2.2.1, if_neg hdropped.2.2.1,
      if_neg hdropped.2.1, if_neg hdropped.1]

/-- The keys with one more. -/
def addKey (keys : List String) (field : String) : List String :=
  if field ∈ keys then keys else keys ++ [field]

theorem prefix_addKey (keys : List String) (field : String) : keys <+: addKey keys field := by
  unfold addKey
  split_ifs
  · exact List.prefix_rfl
  · exact List.prefix_append keys [field]

def addKeyIf (b : Bool) (keys : List String) (field : String) : List String :=
  if b then addKey keys field else keys

theorem prefix_addKeyIf (b : Bool) (keys : List String) (field : String) :
    keys <+: addKeyIf b keys field := by
  cases b with
  | false => exact List.prefix_rfl
  | true => exact prefix_addKey keys field

theorem filter_addKeyIf {p : String → Bool} {field : String} (hp : p field = true) (b : Bool)
    (keys : List String) :
    (addKeyIf b keys field).filter p = addKeyIf b (keys.filter p) field := by
  cases b with
  | false => rfl
  | true =>
    unfold addKeyIf addKey
    rw [if_pos rfl, if_pos rfl]
    by_cases h : field ∈ keys
    · rw [if_pos h, if_pos (List.mem_filter.mpr ⟨h, hp⟩)]
    · rw [if_neg h, if_neg fun h' => h (List.mem_filter.mp h').1, List.filter_append,
        List.filter_cons_of_pos hp, List.filter_nil]

/-- **The fields that are rendered**, in order. -/
theorem keys_rendered :
    (renderedEvent lower ambient event).keys =
      addKeyIf (namedType ambient event).isSome
        (addKeyIf (recordName event).isSome (addKeyIf (recordName event).isSome
          (event.keys.filter fun field => field ∉ droppedFields) "logger") "event")
        "error_type" := by
  have hrecord : ∀ name, (withRecord event name).keys =
      addKeyIf name.isSome (addKeyIf name.isSome event.keys "logger") "event" := by
    intro name
    cases name with
    | none => rfl
    | some name =>
      rw [withRecord, Dict.keys_set, Dict.keys_set]
      rfl
  have htype : ∀ (event : EventDict) typeName, (withType event typeName).keys =
      addKeyIf typeName.isSome event.keys "error_type" := by
    intro event typeName
    cases typeName with
    | none => rfl
    | some typeName =>
      rw [withType, Dict.keys_set]
      rfl
  rw [renderedEvent, redactSecrets_eq, Dict.keys_erase, Dict.keys_erase, Dict.keys_mapWithKey,
    Dict.keys_erase, Dict.keys_erase, htype, Dict.keys_erase, hrecord]
  simp (disch := decide) only [filter_addKeyIf, List.filter_filter]
  congr 4
  funext field
  simp only [droppedFields, List.mem_cons, List.not_mem_nil, or_false, not_or]
  grind

end Rendered

end EpsCloud

import EpsCloud.Library.Fallible
import EpsCloud.Schema.Tables

/-!
# What an exported span says

`app.tracing`, the export side: `safe_span` rebuilds a span from its ids, its times,
and a few permitted attributes, and `PrivateExporter` hands the rebuilt spans of a
batch on.  A span has many places for text: its name, its attributes, the states of
its contexts, the description of its status, its events and links, its resource and
its scope.

The name of a database span is its first word, read with `split(maxsplit=1)[0]`,
and a name that is made of white space only has none.

* `SpanView`: what an exported span may depend on, and `SpanView.exported` the span
  that is made of it.
* `safeSpan_eq_ok`, `safeSpan_eq_error`: `safe_span` makes that span, or raises.
* `exportsPrivately_iff`: a batch is exported as a whole, without free text and
  without depending on any, exactly when no span of it has a blank name to be read
  or a `db.system` that cannot be hashed.
-/

namespace EpsCloud

/-! ## Spans -/

/-- `SpanKind`. -/
inductive SpanKind where
  | internal | server | client | producer | consumer
  deriving DecidableEq, Repr

/-- `StatusCode`. -/
inductive StatusCode where
  | unset | ok | error
  deriving DecidableEq, Repr

/-- A primitive value of an attribute. -/
inductive Primitive where
  | str (text : String)
  | bool (value : Bool)
  | int (value : ℤ)
  | float (bits : ℕ)
  deriving DecidableEq, Repr

/-- The value of an attribute.  A tuple can be hashed and a list cannot. -/
inductive AttributeValue where
  | primitive (value : Primitive)
  | tuple (items : List Primitive)
  | list (items : List Primitive)
  deriving DecidableEq, Repr

/-- A mapping of attributes. -/
abbrev Attributes := List (String × AttributeValue)

/-- `SpanContext`. -/
structure SpanContext where
  traceId : ℕ
  spanId : ℕ
  isRemote : Bool
  traceFlags : ℕ
  traceState : List (String × String) := []
  deriving DecidableEq, Repr

/-- `Status`. -/
structure SpanStatus where
  code : StatusCode
  description : Option String := none
  deriving DecidableEq, Repr

/-- `Resource`. -/
structure Resource where
  attributes : Attributes
  schemaUrl : String := ""
  deriving DecidableEq, Repr

/-- `InstrumentationScope`. -/
structure InstrumentationScope where
  name : String
  version : Option String := none
  schemaUrl : String := ""
  attributes : Attributes := []
  deriving DecidableEq, Repr

/-- An event of a span. -/
structure SpanEvent where
  name : String
  attributes : Attributes := []
  timestamp : ℕ
  deriving DecidableEq, Repr

/-- A link of a span. -/
structure SpanLink where
  context : SpanContext
  attributes : Attributes := []
  deriving DecidableEq, Repr

/-- `ReadableSpan`. -/
structure Span where
  name : String
  context : Option SpanContext := none
  parent : Option SpanContext := none
  resource : Resource
  attributes : Option Attributes := none
  kind : SpanKind := .internal
  status : SpanStatus
  startTime : Option ℕ := none
  endTime : Option ℕ := none
  scope : Option InstrumentationScope := none
  events : List SpanEvent := []
  links : List SpanLink := []
  deriving DecidableEq, Repr

/-! ## The source -/

/-- `RESOURCE`. -/
def exportResource : Resource :=
  { attributes := [("service.name", .primitive (.str "eps-web"))] }

/-- `SQL_OPERATIONS`. -/
def sqlOperations : List String :=
  ["SELECT", "INSERT", "UPDATE", "DELETE", "COMMIT", "ROLLBACK", "CONNECT"]

/-- The database systems that are named in an export. -/
def databaseSystems : List String := ["postgresql", "sqlite"]

/-- `clean_context`: the ids and flags, without the trace state. -/
def cleanContext (context : Option SpanContext) : Option SpanContext :=
  context.map fun c =>
    { traceId := c.traceId, spanId := c.spanId, isRemote := c.isRemote, traceFlags := c.traceFlags }

/-- The characters that `str.split` takes for white space. -/
def isSpace (c : Char) : Bool :=
  let n := c.toNat
  (0x09 ≤ n ∧ n ≤ 0x0d) ∨ (0x1c ≤ n ∧ n ≤ 0x20) ∨ n = 0x85 ∨ n = 0xa0 ∨ n = 0x1680 ∨
    (0x2000 ≤ n ∧ n ≤ 0x200a) ∨ n = 0x2028 ∨ n = 0x2029 ∨ n = 0x202f ∨ n = 0x205f ∨ n = 0x3000

/-- `text.split(maxsplit=1)[0]`, or none where the list of words is empty. -/
def firstWord (text : String) : Option String :=
  match text.toList.dropWhile isSpace with
  | [] => none
  | cs => some (String.ofList (cs.takeWhile fun c => !isSpace c))

section Source

variable (upper : String → String) (routes : List String)

/-- The route of a server span, "unmatched" unless it is one of the route table. -/
def safeRoute (source : Attributes) : String :=
  match source.lookup "http.route" with
  | some (.primitive (.str route)) => if route ∈ routes then route else "unmatched"
  | _ => "unmatched"

/-- The status code of a server span, if it is one. -/
def safeStatus (source : Attributes) : Option ℤ :=
  match source.lookup "http.response.status_code" with
  | some (.primitive (.int status)) => if 100 ≤ status ∧ status ≤ 599 then some status else none
  | _ => none

/-- `source.get("db.system") in {"postgresql", "sqlite"}`: the system if it is one of them.  The
test raises for a value that cannot be hashed. -/
def safeSystem (source : Attributes) : Except Failure (Option String) :=
  match source.lookup "db.system" with
  | some (.primitive (.str system)) =>
    .ok (if system ∈ databaseSystems then some system else none)
  | some (.list _) => .error .raised
  | _ => .ok none

/-- `span.name.split(maxsplit=1)[0].upper() if span.name else "DB"`. -/
def operationOf (name : String) : Except Failure String :=
  if name = "" then .ok "DB"
  else
    match firstWord name with
    | none => .error .raised
    | some word => .ok (upper word)

/-- The span that is rebuilt from what is kept of another one. -/
def rebuild (span : Span) (name : String) (attributes : Attributes) : Span :=
  { name := name
    context := cleanContext span.context
    parent := cleanContext span.parent
    resource := exportResource
    attributes := some attributes
    kind := span.kind
    status := { code := span.status.code }
    startTime := span.startTime
    endTime := span.endTime
    scope := some { name := "eps" } }

/-- `safe_span`. -/
def safeSpan (span : Span) : Except Failure Span :=
  let source := span.attributes.getD []
  if span.kind = .server then
    let route := safeRoute routes source
    let status := (safeStatus source).toList.map fun status =>
      ("http.response.status_code", .primitive (.int status))
    .ok (rebuild span ("HTTP " ++ route)
      (("http.route", .primitive (.str route)) :: status))
  else
    match safeSystem source with
    | .error e => .error e
    | .ok none => .ok (rebuild span "HTTP request" [])
    | .ok (some system) =>
      (operationOf upper span.name).map fun operation =>
        rebuild span (if operation ∈ sqlOperations then operation else "DB")
          [("db.system", .primitive (.str system))]

/-- `[safe_span(span, routes) for span in spans]`. -/
def safeSpans (spans : List Span) : Except Failure (List Span) := spans.mapM (safeSpan upper routes)

/-- `SpanExportResult`. -/
inductive ExportResult where
  | success | failure
  deriving DecidableEq, Repr

/-- What `PrivateExporter.export` makes of the answer of the inner exporter. -/
def outcome : Except Failure ExportResult → ExportResult
  | .ok result => result
  | .error _ => .failure

/-- `PrivateExporter.export`. -/
def privateExport (inner : List Span → Except Failure ExportResult) (spans : List Span) :
    ExportResult :=
  outcome (safeSpans upper routes spans >>= inner)

end Source

/-! ## What an exported span may depend on -/

/-- The ids and flags of a context. -/
structure ContextIds where
  traceId : ℕ
  spanId : ℕ
  isRemote : Bool
  traceFlags : ℕ
  deriving DecidableEq, Repr

def SpanContext.ids (c : SpanContext) : ContextIds :=
  ⟨c.traceId, c.spanId, c.isRemote, c.traceFlags⟩

def ContextIds.context (ids : ContextIds) : SpanContext :=
  { traceId := ids.traceId, spanId := ids.spanId, isRemote := ids.isRemote,
    traceFlags := ids.traceFlags }

/-- What two spans have to agree on: kind, ids and flags, times, status code, and, each where it is
permitted, the route, the HTTP status, the database system and the SQL operation. -/
structure SpanView where
  kind : SpanKind
  context : Option ContextIds
  parent : Option ContextIds
  code : StatusCode
  startTime : Option ℕ
  endTime : Option ℕ
  route : Option String
  httpStatus : Option ℤ
  system : Option String
  operation : Option String
  deriving DecidableEq, Repr

/-- The route, where the span is one of a request and the route is in the table. -/
def Span.permittedRoute (span : Span) (routes : List String) : Option String :=
  match span.kind, (span.attributes.getD []).lookup "http.route" with
  | .server, some (.primitive (.str route)) => if route ∈ routes then some route else none
  | _, _ => none

/-- The HTTP status, where the span is one of a request. -/
def Span.permittedStatus (span : Span) : Option ℤ :=
  if span.kind = .server then safeStatus (span.attributes.getD []) else none

/-- The database system, where the span is not one of a request. -/
def Span.permittedSystem (span : Span) : Option String :=
  match span.kind, (span.attributes.getD []).lookup "db.system" with
  | .server, _ => none
  | _, some (.primitive (.str system)) => if system ∈ databaseSystems then some system else none
  | _, _ => none

/-- The first word of the name, in upper case, where the span has a database system and the word is
an SQL operation. -/
def Span.permittedOperation (span : Span) (upper : String → String) : Option String :=
  if span.permittedSystem.isSome then
    ((firstWord span.name).map upper).filter fun operation => operation ∈ sqlOperations
  else none

def Span.view (upper : String → String) (routes : List String) (span : Span) : SpanView :=
  { kind := span.kind
    context := span.context.map SpanContext.ids
    parent := span.parent.map SpanContext.ids
    code := span.status.code
    startTime := span.startTime
    endTime := span.endTime
    route := span.permittedRoute routes
    httpStatus := span.permittedStatus
    system := span.permittedSystem
    operation := span.permittedOperation upper }

/-- The name that a view is exported under. -/
def SpanView.name (v : SpanView) : String :=
  if v.kind = .server then "HTTP " ++ v.route.getD "unmatched"
  else if v.system.isSome then v.operation.getD "DB"
  else "HTTP request"

/-- The attributes that a view is exported with. -/
def SpanView.attributes (v : SpanView) : Attributes :=
  if v.kind = .server then
    ("http.route", .primitive (.str (v.route.getD "unmatched"))) ::
      v.httpStatus.toList.map fun status =>
        ("http.response.status_code", .primitive (.int status))
  else v.system.toList.map fun system => ("db.system", .primitive (.str system))

/-- The span that is made of a view. -/
def SpanView.exported (v : SpanView) : Span :=
  { name := v.name
    context := v.context.map ContextIds.context
    parent := v.parent.map ContextIds.context
    resource := exportResource
    attributes := some v.attributes
    kind := v.kind
    status := { code := v.code }
    startTime := v.startTime
    endTime := v.endTime
    scope := some { name := "eps" } }

/-! ## Which spans can be rebuilt -/

/-- `safe_span` can read the span: it is one of a request, or its `db.system` can be hashed and, if
that is a system to be named, the name is empty or has something in it that is not white space. -/
def Span.Exportable (span : Span) : Prop :=
  span.kind = .server ∨
    (∀ items, (span.attributes.getD []).lookup "db.system" ≠ some (.list items)) ∧
      (span.permittedSystem = none ∨ span.name = "" ∨ ∃ c ∈ span.name.toList, isSpace c = false)

theorem firstWord_eq_none {text : String} :
    firstWord text = none ↔ ∀ c ∈ text.toList, isSpace c = true := by
  rw [firstWord]
  cases h : text.toList.dropWhile isSpace with
  | nil => simpa using List.dropWhile_eq_nil_iff.mp h
  | cons c cs =>
    refine iff_of_false (by simp) fun hall => ?_
    rw [List.dropWhile_eq_nil_iff.mpr hall] at h
    exact absurd h (by simp)

theorem firstWord_empty : firstWord "" = none :=
  firstWord_eq_none.mpr (by simp)

theorem map_ids_context (context : Option SpanContext) :
    (context.map SpanContext.ids).map ContextIds.context = cleanContext context := by
  cases context <;> rfl

section Rebuilt

variable {upper : String → String} {routes : List String} {span : Span}

theorem rebuild_eq_exported {name : String} {attributes : Attributes}
    (hname : name = (span.view upper routes).name)
    (hattributes : attributes = (span.view upper routes).attributes) :
    rebuild span name attributes = (span.view upper routes).exported := by
  subst hname hattributes
  simp only [rebuild, SpanView.exported, Span.view, map_ids_context]

theorem safeRoute_eq (hkind : span.kind = .server) :
    safeRoute routes (span.attributes.getD []) = (span.permittedRoute routes).getD "unmatched" := by
  unfold safeRoute Span.permittedRoute
  rw [hkind]
  split
  · next route hroute =>
    rw [hroute]
    dsimp only
    split_ifs <;> rfl
  · next hroute =>
    split
    · next route _ heq => exact absurd heq (hroute route)
    · rfl

/-- The span of a request is rebuilt with its route and its status. -/
theorem safeSpan_server (hkind : span.kind = .server) :
    safeSpan upper routes span = .ok (span.view upper routes).exported := by
  have hview : (span.view upper routes).kind = .server := hkind
  have hstatus : span.permittedStatus = safeStatus (span.attributes.getD []) := if_pos hkind
  rw [safeSpan, if_pos hkind]
  refine congrArg Except.ok (rebuild_eq_exported ?_ ?_)
  · rw [safeRoute_eq hkind, SpanView.name, if_pos hview]
    rfl
  · rw [safeRoute_eq hkind, ← hstatus, SpanView.attributes, if_pos hview]
    rfl

/-- What `safe_span` makes of the `db.system` of a span that is not one of a request. -/
theorem safeSystem_eq (hkind : span.kind ≠ .server)
    (hlist : ∀ items, (span.attributes.getD []).lookup "db.system" ≠ some (.list items)) :
    safeSystem (span.attributes.getD []) = .ok span.permittedSystem := by
  unfold safeSystem Span.permittedSystem
  split <;> split <;> simp_all

/-- The name of a database span, where it can be read. -/
theorem operationOf_eq (upper : String → String) (hsystem : span.permittedSystem.isSome = true)
    (hname : span.name = "" ∨ ∃ c ∈ span.name.toList, isSpace c = false) :
    ∃ operation, operationOf upper span.name = .ok operation ∧
      (if operation ∈ sqlOperations then operation else "DB") =
        (span.permittedOperation upper).getD "DB" := by
  have hop : span.permittedOperation upper =
      ((firstWord span.name).map upper).filter fun operation => operation ∈ sqlOperations :=
    if_pos hsystem
  rcases eq_or_ne span.name "" with hempty | hne
  · refine ⟨"DB", if_pos hempty, ?_⟩
    rw [hop, hempty, firstWord_empty]
    exact ite_self _
  · cases hword : firstWord span.name with
    | none =>
      obtain ⟨c, hc, hspace⟩ := hname.resolve_left hne
      exact absurd (firstWord_eq_none.mp hword c hc) (by simp [hspace])
    | some word =>
      refine ⟨upper word, by rw [operationOf, if_neg hne, hword], ?_⟩
      rw [hop, hword, Option.map_some, Option.filter_some]
      by_cases hmem : upper word ∈ sqlOperations
      · rw [if_pos hmem, if_pos (decide_eq_true hmem)]
        rfl
      · rw [if_neg hmem, if_neg (by simpa using hmem)]
        rfl

/-- **A span that can be read is rebuilt from its view.** -/
theorem safeSpan_eq_ok (h : span.Exportable) :
    safeSpan upper routes span = .ok (span.view upper routes).exported := by
  by_cases hkind : span.kind = .server
  · exact safeSpan_server hkind
  obtain ⟨hlist, hname⟩ := h.resolve_left hkind
  have hview : (span.view upper routes).kind ≠ .server := hkind
  have hsystem : (span.view upper routes).system = span.permittedSystem := rfl
  rw [safeSpan, if_neg hkind, safeSystem_eq hkind hlist]
  cases h : span.permittedSystem with
  | none =>
    refine congrArg Except.ok (rebuild_eq_exported ?_ ?_)
    · rw [SpanView.name, if_neg hview, hsystem, h]
      rfl
    · rw [SpanView.attributes, if_neg hview, hsystem, h]
      rfl
  | some system =>
    obtain ⟨operation, hoperation, hword⟩ := operationOf_eq upper
      (Option.isSome_of_eq_some h) (hname.resolve_left (by rw [h]; exact Option.some_ne_none _))
    dsimp only
    rw [hoperation]
    refine congrArg Except.ok (rebuild_eq_exported ?_ ?_)
    · rw [hword, SpanView.name, if_neg hview, hsystem, h]
      rfl
    · rw [SpanView.attributes, if_neg hview, hsystem, h]
      rfl

/-- A span that cannot be read raises. -/
theorem safeSpan_eq_error (h : ¬ span.Exportable) :
    safeSpan upper routes span = .error .raised := by
  obtain ⟨hkind, hrest⟩ := not_or.mp h
  rw [safeSpan, if_neg hkind]
  by_cases hlist : ∃ items, (span.attributes.getD []).lookup "db.system" = some (.list items)
  · obtain ⟨items, hitems⟩ := hlist
    rw [safeSystem, hitems]
  rw [not_exists] at hlist
  have hname := not_or.mp (not_and.mp hrest hlist)
  rw [safeSystem_eq hkind hlist]
  cases hsystem : span.permittedSystem with
  | none => exact absurd hsystem hname.1
  | some system =>
    obtain ⟨hne, hblank⟩ := not_or.mp hname.2
    have hword : firstWord span.name = none := by
      refine firstWord_eq_none.mpr fun c hc => ?_
      by_contra hspace
      exact hblank ⟨c, hc, Bool.not_eq_true _ ▸ hspace⟩
    dsimp only
    rw [operationOf, if_neg hne, hword]
    rfl

/-! ## Batches -/

/-- A batch whose spans can all be read is rebuilt from their views. -/
theorem safeSpans_eq_ok {spans : List Span} (h : ∀ span ∈ spans, span.Exportable) :
    safeSpans upper routes spans =
      .ok (spans.map fun span => (span.view upper routes).exported) :=
  Fallible.mapM_eq_ok fun span hspan => safeSpan_eq_ok (h span hspan)

/-- One span that cannot be read makes its batch raise. -/
theorem safeSpans_eq_error {spans : List Span} (h : ¬ ∀ span ∈ spans, span.Exportable) :
    safeSpans upper routes spans = .error .raised := by
  refine Fallible.mapM_eq_error (fun span _ => ?_) ?_
  · by_cases hspan : span.Exportable
    · exact Or.inr ⟨_, safeSpan_eq_ok hspan⟩
    · exact Or.inl (safeSpan_eq_error hspan)
  · obtain ⟨span, hmem, hspan⟩ : ∃ span ∈ spans, ¬ span.Exportable := by
      simpa using h
    exact ⟨span, hmem, safeSpan_eq_error hspan⟩

end Rebuilt

/-! ## The texts of an exported span -/

/-- The texts of a primitive value. -/
def Primitive.texts : Primitive → List String
  | .str text => [text]
  | _ => []

def AttributeValue.texts : AttributeValue → List String
  | .primitive value => value.texts
  | .tuple items => items.flatMap Primitive.texts
  | .list items => items.flatMap Primitive.texts

/-- The keys and the texts of a mapping of attributes. -/
def Attributes.texts (attributes : Attributes) : List String :=
  attributes.flatMap fun (key, value) => key :: value.texts

def SpanContext.texts (c : SpanContext) : List String :=
  c.traceState.flatMap fun (key, value) => [key, value]

def InstrumentationScope.texts (scope : InstrumentationScope) : List String :=
  scope.name :: scope.schemaUrl :: scope.version.toList ++ Attributes.texts scope.attributes

def SpanEvent.texts (event : SpanEvent) : List String :=
  event.name :: Attributes.texts event.attributes

def SpanLink.texts (link : SpanLink) : List String :=
  link.context.texts ++ Attributes.texts link.attributes

/-- Every text of a span. -/
def Span.texts (span : Span) : List String :=
  span.name :: span.context.toList.flatMap SpanContext.texts ++
    span.parent.toList.flatMap SpanContext.texts ++
    (span.resource.schemaUrl :: Attributes.texts span.resource.attributes) ++
    Attributes.texts (span.attributes.getD []) ++ span.status.description.toList ++
    span.scope.toList.flatMap InstrumentationScope.texts ++
    span.events.flatMap SpanEvent.texts ++ span.links.flatMap SpanLink.texts

/-- The texts that the code writes itself. -/
def vocabulary : List String :=
  ["", "service.name", "eps-web", "eps", "http.route", "http.response.status_code", "db.system",
    "unmatched", "HTTP unmatched", "HTTP request", "DB"] ++ databaseSystems ++ sqlOperations

/-- A text of the code or of the route table. -/
def InVocabulary (routes : List String) (text : String) : Prop :=
  text ∈ vocabulary ∨ ∃ route ∈ routes, text = route ∨ text = "HTTP " ++ route

section Texts

variable {upper : String → String} {routes : List String} {span : Span}

theorem mem_of_permittedRoute {route : String} (h : span.permittedRoute routes = some route) :
    route ∈ routes := by
  unfold Span.permittedRoute at h
  split at h
  · split_ifs at h with hmem
    exact Option.some.inj h ▸ hmem
  · exact absurd h (by simp)

theorem mem_of_permittedSystem {system : String} (h : span.permittedSystem = some system) :
    system ∈ databaseSystems := by
  unfold Span.permittedSystem at h
  split at h
  · exact absurd h (by simp)
  · split_ifs at h with hmem
    exact Option.some.inj h ▸ hmem
  · exact absurd h (by simp)

theorem mem_of_permittedOperation {operation : String}
    (h : span.permittedOperation upper = some operation) : operation ∈ sqlOperations := by
  unfold Span.permittedOperation at h
  split_ifs at h
  exact of_decide_eq_true (Option.filter_eq_some_iff.mp h).2

theorem inVocabulary_of_mem {text : String} (h : text ∈ vocabulary) : InVocabulary routes text :=
  Or.inl h

theorem inVocabulary_name : InVocabulary routes (span.view upper routes).name := by
  unfold SpanView.name
  split_ifs with hkind hsystem
  · cases hroute : span.permittedRoute routes with
    | none =>
      have h : (span.view upper routes).route = none := hroute
      rw [h]
      exact inVocabulary_of_mem (by decide)
    | some route =>
      have h : (span.view upper routes).route = some route := hroute
      rw [h]
      exact Or.inr ⟨route, mem_of_permittedRoute hroute, Or.inr rfl⟩
  · cases hop : span.permittedOperation upper with
    | none =>
      have h : (span.view upper routes).operation = none := hop
      rw [h]
      exact inVocabulary_of_mem (by decide)
    | some operation =>
      have h : (span.view upper routes).operation = some operation := hop
      rw [h]
      exact inVocabulary_of_mem (List.mem_append_right _ (mem_of_permittedOperation hop))
  · exact inVocabulary_of_mem (by decide)

theorem inVocabulary_attributes {text : String}
    (h : text ∈ Attributes.texts (span.view upper routes).attributes) :
    InVocabulary routes text := by
  obtain ⟨⟨key, value⟩, hmem, htext⟩ := List.mem_flatMap.mp h
  unfold SpanView.attributes at hmem
  split_ifs at hmem with hkind
  · rcases List.mem_cons.mp hmem with heq | hmem
    · obtain ⟨rfl, rfl⟩ := Prod.mk.inj heq
      rcases List.mem_cons.mp htext with rfl | htext
      · exact inVocabulary_of_mem (by decide)
      rw [AttributeValue.texts, Primitive.texts, List.mem_singleton] at htext
      subst htext
      cases hroute : span.permittedRoute routes with
      | none =>
        have h : (span.view upper routes).route = none := hroute
        rw [h]
        exact inVocabulary_of_mem (by decide)
      | some route =>
        have h : (span.view upper routes).route = some route := hroute
        rw [h]
        exact Or.inr ⟨route, mem_of_permittedRoute hroute, Or.inl rfl⟩
    · obtain ⟨status, -, heq⟩ := List.mem_map.mp hmem
      obtain ⟨rfl, rfl⟩ := Prod.mk.inj heq
      obtain rfl := List.mem_singleton.mp htext
      exact inVocabulary_of_mem (by decide)
  · obtain ⟨system, hsystem, heq⟩ := List.mem_map.mp hmem
    obtain ⟨rfl, rfl⟩ := Prod.mk.inj heq
    rcases List.mem_cons.mp htext with rfl | htext
    · exact inVocabulary_of_mem (by decide)
    · obtain rfl := List.mem_singleton.mp htext
      have h := mem_of_permittedSystem (Option.mem_toList.mp hsystem)
      exact inVocabulary_of_mem (List.mem_append_left _ (List.mem_append_right _ h))

theorem texts_context (context : Option ContextIds) :
    (context.map ContextIds.context).toList.flatMap SpanContext.texts = [] := by
  cases context <;> rfl

/-- **Every text of an exported span is fixed or from the route table.** -/
theorem inVocabulary_exported {text : String}
    (h : text ∈ (span.view upper routes).exported.texts) : InVocabulary routes text := by
  have htexts : (span.view upper routes).exported.texts =
      (span.view upper routes).name :: ["", "service.name", "eps-web"] ++
        Attributes.texts (span.view upper routes).attributes ++ ["eps", ""] := by
    simp [Span.texts, SpanView.exported, texts_context, exportResource, Attributes.texts,
      AttributeValue.texts, Primitive.texts, InstrumentationScope.texts]
  rw [htexts, List.mem_append, List.mem_append, List.mem_cons] at h
  rcases h with ((rfl | hfixed) | hattribute) | hfixed
  · exact inVocabulary_name
  · fin_cases hfixed <;> exact inVocabulary_of_mem (by decide)
  · exact inVocabulary_attributes hattribute
  · fin_cases hfixed <;> exact inVocabulary_of_mem (by decide)

end Texts

/-! ## What an export owes -/

/-- Two batches are exported to the same spans, whose texts are all fixed or routes, and an exporter
is given all of them. -/
def ExportedAlike (upper : String → String) (routes : List String) (spans spans' : List Span) :
    Prop :=
  ∃ out, safeSpans upper routes spans = .ok out ∧ safeSpans upper routes spans' = .ok out ∧
    out.length = spans.length ∧
    (∀ span ∈ out, ∀ text ∈ span.texts, InVocabulary routes text) ∧
    ∀ inner, privateExport upper routes inner spans = outcome (inner out) ∧
      privateExport upper routes inner spans' = outcome (inner out)

/-- **When an export is private.**  Batches whose spans agree in what may be exported are exported
alike exactly when every span of them can be read. -/
theorem exportsPrivately_iff (upper : String → String) (routes : List String)
    (spans spans' : List Span)
    (hviews : spans.map (Span.view upper routes) = spans'.map (Span.view upper routes)) :
    ExportedAlike upper routes spans spans' ↔ ∀ span ∈ spans ++ spans', span.Exportable := by
  rw [List.forall_mem_append]
  constructor
  · rintro ⟨out, hok, hok', -⟩
    have hread : ∀ {batch}, safeSpans upper routes batch = .ok out →
        ∀ span ∈ batch, span.Exportable := by
      intro batch hbatch
      by_contra hnot
      rw [safeSpans_eq_error hnot] at hbatch
      exact absurd hbatch (by simp)
    exact ⟨hread hok, hread hok'⟩
  · rintro ⟨h, h'⟩
    have hout : (spans'.map fun span => (span.view upper routes).exported) =
        spans.map fun span => (span.view upper routes).exported := by
      have hexported := congrArg (List.map SpanView.exported) hviews
      rw [List.map_map, List.map_map] at hexported
      exact hexported.symm
    have hok : safeSpans upper routes spans = .ok _ := safeSpans_eq_ok h
    have hok' : safeSpans upper routes spans' = .ok _ := safeSpans_eq_ok h'
    rw [hout] at hok'
    refine ⟨_, hok, hok', List.length_map _, ?_, fun inner => ⟨?_, ?_⟩⟩
    · intro exported hmem text htext
      obtain ⟨span, -, rfl⟩ := List.mem_map.mp hmem
      exact inVocabulary_exported htext
    · rw [privateExport, hok]
      rfl
    · rw [privateExport, hok']
      rfl

/-- **One span that cannot be read loses its batch**, whatever the exporter. -/
theorem privateExport_eq_failure {upper : String → String} {routes : List String}
    {spans : List Span} (h : ¬ ∀ span ∈ spans, span.Exportable)
    (inner : List Span → Except Failure ExportResult) :
    privateExport upper routes inner spans = .failure := by
  rw [privateExport, safeSpans_eq_error h]
  rfl

/-- `str.upper` on ASCII texts. -/
def asciiUpper (text : String) : String := String.ofList (text.toList.map Char.toUpper)

/-- A statement of a database. -/
def statementSpan (statement : String) : Span :=
  { name := statement
    resource := { attributes := [("private", .primitive (.str statement))] }
    attributes := some [("db.system", .primitive (.str "sqlite"))]
    kind := .client
    status := { code := .error, description := some statement } }

theorem exportsPrivately_iff_statements :
    ExportedAlike asciiUpper ["/"] [statementSpan "select a"] [statementSpan "select b"] := by
  have hread : ∀ statement, ∀ c ∈ statement.toList, isSpace c = false →
      (statementSpan statement).Exportable := by
    intro statement c hc hspace
    exact Or.inr ⟨by simp [statementSpan], Or.inr (Or.inr ⟨c, hc, hspace⟩)⟩
  have hviews : [statementSpan "select a"].map (Span.view asciiUpper ["/"]) =
      [statementSpan "select b"].map (Span.view asciiUpper ["/"]) := by decide +kernel
  refine (exportsPrivately_iff asciiUpper ["/"] _ _ hviews).mpr fun span hspan => ?_
  rcases List.mem_cons.mp hspan with rfl | hspan
  · exact hread _ 's' (by decide) (by decide)
  · obtain rfl := List.mem_singleton.mp hspan
    exact hread _ 's' (by decide) (by decide)

/-- A statement is lost with one whose name is blank. -/
theorem not_exportedAlike_blank :
    ¬ ExportedAlike asciiUpper ["/"] [statementSpan "select a", statementSpan "  "]
      [statementSpan "select a", statementSpan "  "] := by
  rintro ⟨out, hok, -⟩
  have hraise : safeSpans asciiUpper ["/"] [statementSpan "select a", statementSpan "  "] =
      .error .raised := rfl
  rw [hraise] at hok
  exact absurd hok (by simp)

end EpsCloud

import EpsCloud.Library.Dict
import EpsCloud.Library.Processes

/-!
# What the process tells of its requests

`app.tracing`, `app.metrics` and `app.request_log` hook into every request: the functions before
it run in the order in which the modules are set up, those after it in the reverse order, and
last the one that tears it down.  The server has a pool of threads, which are used again, and
each thread has log variables and a current span of its own; the counters, the log and the spans
are shared.  The threads run between any two hooks of each other.

* `webStep`: one hook, or one line of a library, on one thread.
* `tidy_of_step`: what a thread has is determined by its own requests, whatever the other threads
  did; until the id of a request is bound, the log variables have the id of the one before.
* `telemetry_of_exec`: the lines, the counters and the spans agree with what was answered.
-/

namespace EpsCloud

open Processes

/-! ## The source -/

/-- The ids of a span, and the flag of its trace. -/
structure TraceIds where
  traceId : ℕ
  spanId : ℕ
  sampled : Bool
  deriving DecidableEq

/-- A request as it comes in, with what `uuid4` and the tracer would make for it. -/
structure WebRequest where
  method : String
  rule : Option String
  requestIdHeader : Option String
  uuid : String
  ids : TraceIds
  deriving DecidableEq

/-- `HTTP_METHODS` -/
def httpMethods : List String :=
  ["GET", "HEAD", "POST", "PUT", "PATCH", "DELETE", "OPTIONS", "CONNECT", "TRACE"]

/-- `UNCOUNTED_ROUTES` -/
def uncountedRoutes : List String := ["/metrics", "/healthz", "/readyz"]

namespace WebRequest

/-- The pattern of the route, not the path. -/
def route (r : WebRequest) : String := r.rule.getD "unmatched"

def counted (r : WebRequest) : Bool := r.route ∉ uncountedRoutes

/-- The method as a label. -/
def methodLabel (r : WebRequest) : String := if r.method ∈ httpMethods then r.method else "OTHER"

end WebRequest

/-- `REQUEST_ID_PATTERN` -/
def isRequestId (text : String) : Bool :=
  8 ≤ text.toList.length ∧ text.toList.length ≤ 64 ∧
    text.toList.all fun c => c.isAlphanum ∨ c = '-'

/-- `request_id_from`, where `uuid` is what `uuid4().hex` would give. -/
def requestIdFrom (header : Option String) (uuid : String) : String :=
  match header with
  | some text => if isRequestId text then text else uuid
  | none => uuid

/-- `f"{n:0{width}x}"` -/
def paddedHex (width n : ℕ) : String := String.ofList ((Nat.toDigits 16 n).leftpad width '0')

/-- `current_trace` -/
def currentTrace : Option TraceIds → List (String × String)
  | none => []
  | some ids =>
    if ids.traceId = 0 ∨ ids.spanId = 0 then []
    else [("trace_id", paddedHex 32 ids.traceId), ("span_id", paddedHex 16 ids.spanId)]

/-- The variables of `structlog.contextvars`. -/
abbrev LogContext := Dict String String

/-- `bind_contextvars` -/
def LogContext.bind (context : LogContext) (vars : List (String × String)) : LogContext :=
  vars.foldl (fun context var => context.set var.1 var.2) context

/-- A line of the log with the variables that are merged into it. -/
inductive WebLine where
  | library (logger : String) (context : LogContext)
  | request (method path : String) (status : ℕ) (context : LogContext)
  deriving DecidableEq

/-- Where a request is: before or after the hook. -/
inductive Stage where
  | arrived | spanned | timed | bound
  | answered (status : ℕ)
  | logged (status : ℕ)
  | counted (status : ℕ)
  | observed (status : ℕ)
  | marked (status : ℕ)
  deriving DecidableEq

/-- The object of a request, with what the hooks keep on it. -/
structure Visit where
  request : WebRequest
  /-- Its span, and the span to go back to. -/
  tracing : Option (TraceIds × Option TraceIds) := none
  startTime : Bool := false
  requestId : Option String := none
  /-- The header of the response. -/
  responseId : Option String := none
  spanStatus : Option ℕ := none

structure WebThread where
  context : LogContext := Dict.empty
  span : Option TraceIds := none
  visit : Option (Visit × Stage) := none

/-- What is sent back. -/
structure Answered where
  request : WebRequest
  status : ℕ
  requestId : String
  deriving DecidableEq

/-- A span that has ended. -/
structure EndedSpan where
  ids : TraceIds
  route : String
  status : Option ℕ
  deriving DecidableEq

/-- The labels of `REQUESTS`. -/
structure RequestLabels where
  method : String
  route : String
  status : ℕ
  deriving DecidableEq

/-- A counter with its last exemplar. -/
structure RequestCounter where
  value : ℕ := 0
  exemplar : Option ℕ := none

/-- A histogram with the last exemplar of each of its buckets. -/
structure RequestHistogram where
  count : ℕ := 0
  exemplar : ℕ → Option ℕ := fun _ => none

/-- What the threads share: the two metrics, the log, the spans and the responses. -/
structure Telemetry where
  requests : RequestLabels → RequestCounter := fun _ => {}
  latency : String → RequestHistogram := fun _ => {}
  log : List WebLine := []
  spans : List EndedSpan := []
  responses : List Answered := []

/-- `exemplar` -/
def exemplar : Option TraceIds → Option ℕ
  | none => none
  | some ids =>
    if ids.traceId = 0 ∨ ids.spanId = 0 ∨ ids.sampled = false then none else some ids.traceId

/-- `REQUESTS.labels(...).inc(exemplar=...)` -/
def RequestCounter.inc (counter : RequestCounter) (exemplar : Option ℕ) : RequestCounter :=
  ⟨counter.value + 1, exemplar <|> counter.exemplar⟩

/-- `LATENCY.labels(...).observe(..., exemplar=...)`, for a time that falls in the bucket. -/
def RequestHistogram.observe (histogram : RequestHistogram) (bucket : ℕ) (exemplar : Option ℕ) :
    RequestHistogram :=
  ⟨histogram.count + 1,
    Function.update histogram.exemplar bucket (exemplar <|> histogram.exemplar bucket)⟩

def Visit.labels (v : Visit) (status : ℕ) : RequestLabels :=
  ⟨v.request.methodLabel, v.request.route, status⟩

/-- What a thread does next: one hook, one line of a library, or the handler. -/
inductive WebAction where
  | arrive (request : WebRequest)
  | startRequestSpan
  | startTimer
  | bindRequestId
  | libraryLine (logger : String)
  | handler (status : ℕ)
  | logRequest
  | count
  /-- The time of the request falls in the bucket. -/
  | observe (bucket : ℕ)
  | recordStatus
  | endRequestSpan
  deriving DecidableEq

/-- The requests that a thread takes up. -/
def WebAction.arriving : WebAction → List WebRequest
  | .arrive request => [request]
  | _ => []

/-- One step of a thread, where `tracing` tells whether tracing is set up. -/
def webStep {ι : Type} (tracing : Bool) (_ : ι) (action : WebAction) (s : Telemetry)
    (l : WebThread) : Option (Telemetry × WebThread) :=
  match l.visit, action with
  | _, .libraryLine logger => some ({ s with log := s.log ++ [.library logger l.context] }, l)
  | none, .arrive request => some (s, { l with visit := some ({ request := request }, .arrived) })
  | some (v, .arrived), .startRequestSpan =>
    if tracing = true ∧ v.request.counted = true then
      some (s,
        { context := l.context.bind (currentTrace (some v.request.ids))
          span := some v.request.ids
          visit := some ({ v with tracing := some (v.request.ids, l.span) }, .spanned) })
    else some (s, { l with visit := some (v, .spanned) })
  | some (v, .spanned), .startTimer =>
    some (s, { l with visit := some ({ v with startTime := true }, .timed) })
  | some (v, .timed), .bindRequestId =>
    let requestId := requestIdFrom v.request.requestIdHeader v.request.uuid
    some (s,
      { l with
        context := LogContext.bind Dict.empty (("request_id", requestId) :: currentTrace l.span)
        visit := some ({ v with requestId := some requestId }, .bound) })
  | some (v, .bound), .handler status =>
    some (s, { l with visit := some (v, .answered status) })
  | some (v, .answered status), .logRequest =>
    let v' := { v with responseId := some (v.requestId.getD "") }
    let l' := { l with visit := some (v', .logged status) }
    if v.request.counted then
      some ({ s with
        log := s.log ++ [.request v.request.method v.request.route status l.context] }, l')
    else some (s, l')
  | some (v, .logged status), .count =>
    let l' := { l with visit := some (v, .counted status) }
    if v.request.counted then
      let labels := v.labels status
      some ({ s with
        requests := Function.update s.requests labels
          ((s.requests labels).inc (exemplar l.span)) }, l')
    else some (s, l')
  | some (v, .counted status), .observe bucket =>
    let l' := { l with visit := some (v, .observed status) }
    if v.request.counted = true ∧ v.startTime = true then
      let route := v.request.route
      some ({ s with
        latency := Function.update s.latency route
          ((s.latency route).observe bucket (exemplar l.span)) }, l')
    else some (s, l')
  | some (v, .observed status), .recordStatus =>
    let v' := if v.tracing.isSome then { v with spanStatus := some status } else v
    some (s, { l with visit := some (v', .marked status) })
  | some (v, .marked status), .endRequestSpan =>
    let responses := s.responses ++ [⟨v.request, status, v.responseId.getD ""⟩]
    match v.tracing with
    | some (ids, before) =>
      some ({ s with
          spans := s.spans ++ [⟨ids, v.request.route, v.spanStatus⟩]
          responses := responses },
        { context := (l.context.erase "trace_id").erase "span_id", span := before })
    | none => some ({ s with responses := responses }, { l with visit := none })
  | _, _ => none

/-- The process when it starts. -/
def idlePool (ι : Type) : Config ι Telemetry WebThread := ⟨{}, fun _ => {}⟩

/-! ## One thread -/

namespace WebRequest

/-- The id that the lines and the response of the request carry. -/
def requestId (r : WebRequest) : String := requestIdFrom r.requestIdHeader r.uuid

/-- The span that the request has. -/
def spanIn (tracing : Bool) (r : WebRequest) : Option TraceIds :=
  if tracing = true ∧ r.counted = true then some r.ids else none

/-- The log variables of the request. -/
def contextIn (tracing : Bool) (r : WebRequest) : LogContext :=
  LogContext.bind Dict.empty (("request_id", r.requestId) :: currentTrace (r.spanIn tracing))

/-- What a request leaves in the log variables of its thread: its id. -/
def leaves : Option WebRequest → LogContext
  | none => Dict.empty
  | some r => LogContext.bind Dict.empty [("request_id", r.requestId)]

/-- The log variables of the thread at each stage, where `before` is its request before.  The id
that this one left is there until the new one is bound. -/
def contextAt (tracing : Bool) (before : Option WebRequest) (r : WebRequest) : Stage → LogContext
  | .arrived => leaves before
  | .spanned | .timed => (leaves before).bind (currentTrace (r.spanIn tracing))
  | _ => r.contextIn tracing

/-- The object of the request at each stage. -/
def visitAt (tracing : Bool) (r : WebRequest) (stage : Stage) : Visit :=
  let spanned : Visit :=
    { request := r, tracing := (r.spanIn tracing).map fun ids => (ids, none) }
  match stage with
  | .arrived => { request := r }
  | .spanned => spanned
  | .timed => { spanned with startTime := true }
  | .bound | .answered _ => { spanned with startTime := true, requestId := some r.requestId }
  | .logged _ | .counted _ | .observed _ =>
    { spanned with
      startTime := true, requestId := some r.requestId, responseId := some r.requestId }
  | .marked status =>
    { spanned with
      startTime := true, requestId := some r.requestId, responseId := some r.requestId
      spanStatus := (r.spanIn tracing).map fun _ => status }

end WebRequest

/-- The request that a thread has, and its stage. -/
def WebThread.place (l : WebThread) : Option (WebRequest × Stage) :=
  l.visit.map fun visit => (visit.1.request, visit.2)

/-- A thread between its requests. -/
def idleAfter (before : Option WebRequest) : WebThread where
  context := WebRequest.leaves before

/-- The thread of a request at a stage. -/
def threadAt (tracing : Bool) (before : Option WebRequest) (r : WebRequest) (stage : Stage) :
    WebThread where
  context := r.contextAt tracing before stage
  span := if stage = .arrived then none else r.spanIn tracing
  visit := some (r.visitAt tracing stage, stage)

/-- What a thread has is determined by the requests that it has taken up, and the stage of the
last one: its span and its log variables are those of that request, but for the id of the one
before. -/
inductive WebThread.Tidy (tracing : Bool) : List WebRequest → WebThread → Prop where
  | idle (past) : Tidy tracing past (idleAfter past.getLast?)
  | visited (past r stage) :
      Tidy tracing (past ++ [r]) (threadAt tracing past.getLast? r stage)

/-- Nothing is told of the request yet. -/
def isEarly : Option (WebRequest × Stage) → Bool
  | none | some (_, .arrived) | some (_, .spanned) | some (_, .timed) | some (_, .bound)
  | some (_, .answered _) => true
  | _ => false

namespace Telemetry

variable (s : Telemetry) (tracing : Bool) (r : WebRequest) (status : ℕ)

/-- The line of a request that is counted. -/
def tellLine : Telemetry :=
  { s with
    log := s.log ++ if r.counted then
      [.request r.method r.route status (r.contextIn tracing)] else [] }

/-- `REQUESTS` after a request that is counted. -/
def tellCount : Telemetry :=
  if r.counted then
    let labels := ⟨r.methodLabel, r.route, status⟩
    { s with
      requests := Function.update s.requests labels
        ((s.requests labels).inc (exemplar (r.spanIn tracing))) }
  else s

/-- `LATENCY` after a request that is counted. -/
def tellLatency (bucket : ℕ) : Telemetry :=
  if r.counted then
    { s with
      latency := Function.update s.latency r.route
        ((s.latency r.route).observe bucket (exemplar (r.spanIn tracing))) }
  else s

@[simp] theorem responses_tellLine : (s.tellLine tracing r status).responses = s.responses := rfl

@[simp] theorem responses_tellCount : (s.tellCount tracing r status).responses = s.responses := by
  unfold tellCount
  split <;> rfl

@[simp] theorem responses_tellLatency (bucket : ℕ) :
    (s.tellLatency tracing r bucket).responses = s.responses := by
  unfold tellLatency
  split <;> rfl

end Telemetry

/-- What one step does to what is shared. -/
inductive Effect (tracing : Bool) (s : Telemetry) : WebAction →
    Option (WebRequest × Stage) → Telemetry → Option (WebRequest × Stage) → Prop where
  | arrive (r) : Effect tracing s (.arrive r) none s (some (r, .arrived))
  | quiet {action r stage stage'} (h : isEarly (some (r, stage)) = true)
      (h' : isEarly (some (r, stage')) = true) :
      Effect tracing s action (some (r, stage)) s (some (r, stage'))
  | line (p logger context) :
      Effect tracing s (.libraryLine logger) p
        { s with log := s.log ++ [.library logger context] } p
  | log (r status) :
      Effect tracing s .logRequest (some (r, .answered status))
        (s.tellLine tracing r status) (some (r, .logged status))
  | count (r status) :
      Effect tracing s .count (some (r, .logged status))
        (s.tellCount tracing r status) (some (r, .counted status))
  | observe (r status bucket) :
      Effect tracing s (.observe bucket) (some (r, .counted status))
        (s.tellLatency tracing r bucket) (some (r, .observed status))
  | mark (r status) :
      Effect tracing s .recordStatus (some (r, .observed status)) s (some (r, .marked status))
  | finish (r status) :
      Effect tracing s .endRequestSpan (some (r, .marked status))
        { s with
          spans := s.spans ++ (r.spanIn tracing).toList.map fun ids => ⟨ids, r.route, some status⟩
          responses := s.responses ++ [⟨r, status, r.requestId⟩] }
        none

section

variable {ι : Type} {tracing : Bool} {i : ι} {action : WebAction} {s s' : Telemetry}
  {l l' : WebThread} {before : Option WebRequest} {past : List WebRequest} {r : WebRequest}
  {stage : Stage}

@[simp] theorem request_visitAt : (r.visitAt tracing stage).request = r := by
  cases stage <;> rfl

@[simp] theorem place_idleAfter : (idleAfter before).place = none := rfl

@[simp] theorem place_threadAt : (threadAt tracing before r stage).place = some (r, stage) := by
  rw [threadAt, WebThread.place, Option.map_some, request_visitAt]

/-- The hook that starts the span. -/
theorem startRequestSpan_step :
    webStep tracing i .startRequestSpan s (threadAt tracing before r .arrived) =
      some (s, threadAt tracing before r .spanned) := by
  by_cases h : tracing = true ∧ r.counted = true
  · refine (if_pos h).trans ?_
    simp only [threadAt, WebRequest.contextAt, WebRequest.visitAt, WebRequest.spanIn, if_pos h]
    rfl
  · refine (if_neg h).trans ?_
    simp only [threadAt, WebRequest.contextAt, WebRequest.visitAt, WebRequest.spanIn, if_neg h]
    rfl

theorem startTimer_step :
    webStep tracing i .startTimer s (threadAt tracing before r .spanned) =
      some (s, threadAt tracing before r .timed) := rfl

/-- The hook that binds the id clears what was left. -/
theorem bindRequestId_step :
    webStep tracing i .bindRequestId s (threadAt tracing before r .timed) =
      some (s, threadAt tracing before r .bound) := rfl

theorem handler_step (status : ℕ) :
    webStep tracing i (.handler status) s (threadAt tracing before r .bound) =
      some (s, threadAt tracing before r (.answered status)) := rfl

theorem logRequest_step (status : ℕ) :
    webStep tracing i .logRequest s (threadAt tracing before r (.answered status)) =
      some (s.tellLine tracing r status, threadAt tracing before r (.logged status)) := by
  unfold Telemetry.tellLine
  cases h : r.counted with
  | true => exact (if_pos h).trans rfl
  | false =>
    have hnot : ¬ r.counted = true := Bool.not_eq_true _ ▸ h
    refine (if_neg hnot).trans ?_
    rw [if_neg Bool.false_ne_true, List.append_nil]
    rfl

theorem count_step (status : ℕ) :
    webStep tracing i .count s (threadAt tracing before r (.logged status)) =
      some (s.tellCount tracing r status, threadAt tracing before r (.counted status)) := by
  unfold Telemetry.tellCount
  cases h : r.counted with
  | true => exact (if_pos h).trans rfl
  | false =>
    have hnot : ¬ r.counted = true := Bool.not_eq_true _ ▸ h
    exact (if_neg hnot).trans rfl

theorem observe_step (status bucket : ℕ) :
    webStep tracing i (.observe bucket) s (threadAt tracing before r (.counted status)) =
      some (s.tellLatency tracing r bucket, threadAt tracing before r (.observed status)) := by
  unfold Telemetry.tellLatency
  cases h : r.counted with
  | true => exact (if_pos ⟨h, rfl⟩).trans rfl
  | false =>
    have hnot : ¬ (r.counted = true ∧ true = true) := fun hr =>
      Bool.false_ne_true (h.symm.trans hr.1)
    exact (if_neg hnot).trans rfl

theorem recordStatus_step (status : ℕ) :
    webStep tracing i .recordStatus s (threadAt tracing before r (.observed status)) =
      some (s, threadAt tracing before r (.marked status)) := by
  cases h : r.spanIn tracing with
  | none =>
    simp only [webStep, threadAt, WebRequest.contextAt, WebRequest.visitAt, h]
    rfl
  | some ids =>
    simp only [webStep, threadAt, WebRequest.contextAt, WebRequest.visitAt, h]
    rfl

/-- Without the ids of the span, only the id of the request is left. -/
theorem erase_contextIn :
    ((r.contextIn tracing).erase "trace_id").erase "span_id" = WebRequest.leaves (some r) := by
  have hone (context : LogContext) (h : context = WebRequest.leaves (some r)) :
      (context.erase "trace_id").erase "span_id" = WebRequest.leaves (some r) := by
    rw [h]
    rfl
  unfold WebRequest.contextIn currentTrace
  cases r.spanIn tracing with
  | none => exact hone _ rfl
  | some ids =>
    dsimp only
    split_ifs
    · exact hone _ rfl
    · rfl

/-- The request ends, and leaves no span and no trace behind. -/
theorem endRequestSpan_step (status : ℕ) :
    webStep tracing i .endRequestSpan s (threadAt tracing before r (.marked status)) =
      some ({ s with
          spans := s.spans ++ (r.spanIn tracing).toList.map fun ids => ⟨ids, r.route, some status⟩
          responses := s.responses ++ [⟨r, status, r.requestId⟩] }, idleAfter (some r)) := by
  cases h : r.spanIn tracing with
  | none =>
    have hcontext : r.contextIn tracing = WebRequest.leaves (some r) := by
      rw [WebRequest.contextIn, h]
      rfl
    simp only [webStep, threadAt, WebRequest.contextAt, WebRequest.visitAt, h, hcontext]
    rw [Option.toList_none, List.map_nil, List.append_nil]
    rfl
  | some ids =>
    simp only [webStep, threadAt, WebRequest.contextAt, WebRequest.visitAt, h]
    rw [idleAfter, ← @erase_contextIn tracing]
    rfl

/-- A step to another stage of the same request. -/
theorem tidy_of_eq {s₁ : Telemetry} {stage' : Stage}
    (hstep : webStep tracing i action s (threadAt tracing past.getLast? r stage) =
      some (s₁, threadAt tracing past.getLast? r stage'))
    (h : webStep tracing i action s (threadAt tracing past.getLast? r stage) = some (s', l'))
    (harriving : action.arriving = [])
    (heffect : Effect tracing s action (some (r, stage)) s₁ (some (r, stage'))) :
    l'.Tidy tracing (past ++ [r] ++ action.arriving) ∧
      Effect tracing s action (some (r, stage)) s' l'.place := by
  cases hstep.symm.trans h
  rw [harriving, List.append_nil, place_threadAt]
  exact ⟨.visited past r stage', heffect⟩

/-- **What a step does**: the thread stays tidy, and the step has one of the effects. -/
theorem tidy_of_step (h : webStep tracing i action s l = some (s', l'))
    (hl : l.Tidy tracing past) :
    l'.Tidy tracing (past ++ action.arriving) ∧ Effect tracing s action l.place s' l'.place := by
  cases hl with
  | idle =>
    cases action with
    | libraryLine logger =>
      cases h
      exact ⟨(List.append_nil past).symm ▸ .idle past, .line _ _ _⟩
    | arrive r =>
      have harrive : webStep tracing i (.arrive r) s (idleAfter past.getLast?) =
          some (s, threadAt tracing past.getLast? r .arrived) := rfl
      cases harrive.symm.trans h
      rw [place_threadAt]
      exact ⟨.visited past r .arrived, .arrive r⟩
    | _ => cases h
  | visited past r stage =>
    rw [place_threadAt]
    cases action with
    | arrive request => cases stage <;> cases h
    | libraryLine logger => exact tidy_of_eq rfl h rfl (.line _ _ _)
    | startRequestSpan =>
      cases stage with
      | arrived => exact tidy_of_eq startRequestSpan_step h rfl (.quiet rfl rfl)
      | _ => cases h
    | startTimer =>
      cases stage with
      | spanned => exact tidy_of_eq startTimer_step h rfl (.quiet rfl rfl)
      | _ => cases h
    | bindRequestId =>
      cases stage with
      | timed => exact tidy_of_eq bindRequestId_step h rfl (.quiet rfl rfl)
      | _ => cases h
    | handler status =>
      cases stage with
      | bound => exact tidy_of_eq (handler_step status) h rfl (.quiet rfl rfl)
      | _ => cases h
    | logRequest =>
      cases stage with
      | answered status => exact tidy_of_eq (logRequest_step status) h rfl (.log r status)
      | _ => cases h
    | count =>
      cases stage with
      | logged status => exact tidy_of_eq (count_step status) h rfl (.count r status)
      | _ => cases h
    | observe bucket =>
      cases stage with
      | counted status =>
        exact tidy_of_eq (observe_step status bucket) h rfl (.observe r status bucket)
      | _ => cases h
    | recordStatus =>
      cases stage with
      | observed status => exact tidy_of_eq (recordStatus_step status) h rfl (.mark r status)
      | _ => cases h
    | endRequestSpan =>
      cases stage with
      | marked status =>
        cases (endRequestSpan_step status).symm.trans h
        have hidle : (idleAfter (some r)).Tidy tracing (past ++ [r]) := by
          have hlast := @WebThread.Tidy.idle tracing (past ++ [r])
          rwa [List.getLast?_concat] at hlast
        exact ⟨(List.append_nil (past ++ [r])).symm ▸ hidle, .finish r status⟩
      | _ => cases h

end

/-! ## All threads -/

/-- What the hooks have told of a counted request: how many of the three, and its status. -/
def Stage.told : Stage → ℕ × ℕ
  | .logged status => (1, status)
  | .counted status => (2, status)
  | .observed status => (3, status)
  | .marked status => (3, status)
  | _ => (0, 0)

section

variable {ι : Type} {tracing : Bool} {M : Type} [AddCommMonoid M] {n : ℕ}
  {value : WebRequest → ℕ → M} {f : Telemetry → M}

/-- What the hook `n` has told of a request that is not answered yet. -/
def pending (n : ℕ) (value : WebRequest → ℕ → M) : Option (WebRequest × Stage) → M
  | none => 0
  | some (r, stage) =>
    if n ≤ stage.told.1 ∧ r.counted = true then value r stage.told.2 else 0

/-- What the answered requests that are counted come to. -/
def answeredSum (value : WebRequest → ℕ → M) (responses : List Answered) : M :=
  (responses.map fun a => if a.request.counted then value a.request a.status else 0).sum

/-- `f` measures what the hook `n`, the first to the third after the request, tells. -/
structure Measures (tracing : Bool) (n : ℕ) (value : WebRequest → ℕ → M) (f : Telemetry → M) :
    Prop where
  hook : 1 ≤ n ∧ n ≤ 3
  start : f {} = 0
  finish : ∀ s spans responses, f { s with spans := spans, responses := responses } = f s
  line : ∀ s logger context,
    f { s with log := s.log ++ [.library logger context] } = f s
  log : ∀ s r status, f (s.tellLine tracing r status) =
    f s + if n = 1 ∧ r.counted = true then value r status else 0
  count : ∀ s r status, f (s.tellCount tracing r status) =
    f s + if n = 2 ∧ r.counted = true then value r status else 0
  observe : ∀ s r status bucket, f (s.tellLatency tracing r bucket) =
    f s + if n = 3 ∧ r.counted = true then value r status else 0

theorem pending_of_isEarly {p : Option (WebRequest × Stage)} (hn : 1 ≤ n) (hp : isEarly p = true) :
    pending n value p = 0 := by
  have hnot : ∀ r : WebRequest, ¬ (n ≤ 0 ∧ r.counted = true) := fun r h => by omega
  rcases p with _ | ⟨r, stage⟩
  · rfl
  · cases stage with
    | arrived => exact if_neg (hnot r)
    | spanned => exact if_neg (hnot r)
    | timed => exact if_neg (hnot r)
    | bound => exact if_neg (hnot r)
    | answered status => exact if_neg (hnot r)
    | _ => cases hp

/-- A hook adds what it tells, and the others add nothing. -/
theorem pending_next (r : WebRequest) (k : ℕ) (a : M) :
    (if n ≤ k + 1 ∧ r.counted = true then a else 0) =
      (if n = k + 1 ∧ r.counted = true then a else 0) +
        if n ≤ k ∧ r.counted = true then a else 0 := by
  rcases lt_trichotomy n (k + 1) with h | h | h
  · have hne : ¬ (n = k + 1 ∧ r.counted = true) := fun hn => h.ne hn.1
    simp only [if_neg hne, zero_add, h.le, Nat.le_of_lt_succ h]
  · have hgt : ¬ (n ≤ k ∧ r.counted = true) := fun hn => by omega
    rw [if_neg hgt, add_zero]
    simp only [h, le_refl]
  · have hne : ¬ (n = k + 1 ∧ r.counted = true) := fun hn => h.ne' hn.1
    have hgt : ¬ (n ≤ k + 1 ∧ r.counted = true) := fun hn => by omega
    have hgt' : ¬ (n ≤ k ∧ r.counted = true) := fun hn => by omega
    rw [if_neg hne, if_neg hgt, if_neg hgt', add_zero]

theorem answeredSum_concat (responses : List Answered) (a : Answered) :
    answeredSum value (responses ++ [a]) =
      answeredSum value responses + if a.request.counted then value a.request a.status else 0 := by
  rw [answeredSum, List.map_append, List.sum_append, List.map_singleton, List.sum_singleton]
  rfl

/-- **Every step keeps the balance**: what is told is what was answered and what is pending. -/
theorem Measures.effect (hf : Measures tracing n value f) {s s' : Telemetry} {action : WebAction}
    {p p' : Option (WebRequest × Stage)} (h : Effect tracing s action p s' p') :
    f s' + (answeredSum value s.responses + pending n value p) =
      f s + (answeredSum value s'.responses + pending n value p') := by
  cases h with
  | arrive r =>
    rw [pending_of_isEarly hf.hook.1 (rfl : isEarly none = true),
      pending_of_isEarly hf.hook.1 (rfl : isEarly (some (r, .arrived)) = true)]
  | quiet hp hp' => rw [pending_of_isEarly hf.hook.1 hp, pending_of_isEarly hf.hook.1 hp']
  | line p logger context => rw [hf.line]
  | log r status =>
    have hearly : pending n value (some (r, .answered status)) = 0 :=
      pending_of_isEarly hf.hook.1 rfl
    have hnot : ¬ (n ≤ 0 ∧ r.counted = true) := fun h => absurd hf.hook.1 (by omega)
    have hnext := pending_next (n := n) r 0 (value r status)
    rw [if_neg hnot, add_zero] at hnext
    rw [hf.log, hearly, Telemetry.responses_tellLine, pending, Stage.told]
    dsimp only
    rw [hnext]
    abel
  | count r status =>
    have hnext := pending_next (n := n) r 1 (value r status)
    rw [hf.count, Telemetry.responses_tellCount, pending, pending, Stage.told, Stage.told]
    dsimp only
    rw [hnext]
    abel
  | observe r status bucket =>
    have hnext := pending_next (n := n) r 2 (value r status)
    rw [hf.observe s r status bucket, Telemetry.responses_tellLatency, pending, pending,
      Stage.told, Stage.told]
    dsimp only
    rw [hnext]
    abel
  | mark r status => rfl
  | finish r status =>
    have hlast : (n ≤ 3 ∧ r.counted = true) = (r.counted = true) := by
      rw [eq_iff_iff, and_iff_right hf.hook.2]
    rw [hf.finish, answeredSum_concat, pending, pending, Stage.told]
    dsimp only
    simp only [hlast, add_zero]

theorem place_of_visit {l : WebThread} (h : l.visit = none) : l.place = none := by
  rw [WebThread.place, h, Option.map_none]

theorem tidy_idlePool (i : ι) : ((idlePool ι).locals i).Tidy tracing [] := .idle []

/-- **When no request is left, what is told is what was answered**, in every interleaving. -/
theorem Measures.exec [Fintype ι] [DecidableEq ι] [IsCancelAdd M]
    (hf : Measures tracing n value f) {xs : List (ι × WebAction)}
    {c : Config ι Telemetry WebThread}
    (h : Processes.exec (webStep tracing) (idlePool ι) xs = some c)
    (hidle : ∀ i, (c.locals i).visit = none) :
    f c.shared = answeredSum value c.shared.responses := by
  have hbalance := exec_balance (J := fun l : WebThread => ∃ past, l.Tidy tracing past) (f := f)
    (g := fun s => answeredSum value s.responses) (h := fun l => pending n value l.place)
    (fun i => ⟨[], tidy_idlePool i⟩)
    (by
      change f {} = 0 + ∑ i : ι, (0 : M)
      rw [hf.start, Finset.sum_const_zero, add_zero])
    (fun i a s l s' l' hstep hl => by
      obtain ⟨past, hl⟩ := hl
      obtain ⟨htidy, heffect⟩ := tidy_of_step hstep hl
      exact ⟨⟨_, htidy⟩, hf.effect heffect⟩) h
  have hnone : ∀ i, pending n value (c.locals i).place = 0 := fun i => by
    rw [place_of_visit (hidle i)]
    rfl
  simp only [hnone, Finset.sum_const_zero, add_zero] at hbalance
  exact hbalance

end

/-! ## The three hooks -/

/-- The line is that of a request. -/
def WebLine.isRequest : WebLine → Bool
  | .request _ _ _ _ => true
  | .library _ _ => false

namespace WebRequest

/-- The line of a request. -/
def lineIn (tracing : Bool) (r : WebRequest) (status : ℕ) : WebLine :=
  .request r.method r.route status (r.contextIn tracing)

def labels (r : WebRequest) (status : ℕ) : RequestLabels := ⟨r.methodLabel, r.route, status⟩

end WebRequest

section

variable {ι : Type} {tracing : Bool}

/-- The lines of the requests. -/
def requestLines (s : Telemetry) : Multiset WebLine := s.log.filter WebLine.isRequest

/-- `REQUESTS` after a request. -/
theorem requests_tellCount (s : Telemetry) (r : WebRequest) (status : ℕ) (labels : RequestLabels) :
    (s.tellCount tracing r status).requests labels =
      if r.counted = true ∧ labels = r.labels status then
        (s.requests labels).inc (exemplar (r.spanIn tracing))
      else s.requests labels := by
  unfold Telemetry.tellCount
  cases r.counted with
  | false => simp
  | true =>
    by_cases hlabels : labels = r.labels status
    · rw [if_pos rfl, if_pos ⟨rfl, hlabels⟩, hlabels]
      exact Function.update_self _ _ _
    · rw [if_pos rfl, if_neg fun h => hlabels h.2]
      exact Function.update_of_ne hlabels _ _

/-- `LATENCY` after a request. -/
theorem latency_tellLatency (s : Telemetry) (r : WebRequest) (bucket : ℕ) (route : String) :
    (s.tellLatency tracing r bucket).latency route =
      if r.counted = true ∧ route = r.route then
        (s.latency route).observe bucket (exemplar (r.spanIn tracing))
      else s.latency route := by
  unfold Telemetry.tellLatency
  cases r.counted with
  | false => simp
  | true =>
    by_cases hroute : route = r.route
    · rw [if_pos rfl, if_pos ⟨rfl, hroute⟩, hroute]
      exact Function.update_self _ _ _
    · rw [if_pos rfl, if_neg fun h => hroute h.2]
      exact Function.update_of_ne hroute _ _

theorem measures_lines :
    Measures tracing 1 (fun r status => {r.lineIn tracing status}) requestLines where
  hook := by decide
  start := rfl
  finish _ _ _ := rfl
  line s logger context := by
    rw [requestLines, List.filter_append]
    exact congrArg _ (List.append_nil _)
  log s r status := by
    rw [requestLines, Telemetry.tellLine, List.filter_append, ← Multiset.coe_add]
    cases r.counted <;> rfl
  count s r status := by
    rw [if_neg (fun h => absurd h.1 (by decide)), add_zero, Telemetry.tellCount]
    split <;> rfl
  observe s r status bucket := by
    rw [if_neg (fun h => absurd h.1 (by decide)), add_zero, Telemetry.tellLatency]
    split <;> rfl

theorem measures_requests (labels : RequestLabels) :
    Measures tracing 2 (fun r status => if labels = r.labels status then 1 else 0)
      (fun s => (s.requests labels).value) where
  hook := by decide
  start := rfl
  finish _ _ _ := rfl
  line _ _ _ := rfl
  log s r status := by
    rw [if_neg (fun h => absurd h.1 (by decide)), add_zero, Telemetry.tellLine]
  count s r status := by
    rw [requests_tellCount]
    by_cases h : r.counted = true ∧ labels = r.labels status
    · rw [if_pos h, if_pos ⟨rfl, h.1⟩, if_pos h.2, RequestCounter.inc]
    · rw [if_neg h]
      by_cases hr : r.counted = true
      · rw [if_pos ⟨rfl, hr⟩, if_neg fun hlabels => h ⟨hr, hlabels⟩, add_zero]
      · rw [if_neg fun hrule => hr hrule.2, add_zero]
  observe s r status bucket := by
    rw [if_neg (fun h => absurd h.1 (by decide)), add_zero, Telemetry.tellLatency]
    split <;> rfl

theorem measures_latency (route : String) :
    Measures tracing 3 (fun r _ => if route = r.route then 1 else 0)
      (fun s => (s.latency route).count) where
  hook := by decide
  start := rfl
  finish _ _ _ := rfl
  line _ _ _ := rfl
  log s r status := by
    rw [if_neg (fun h => absurd h.1 (by decide)), add_zero, Telemetry.tellLine]
  count s r status := by
    rw [if_neg (fun h => absurd h.1 (by decide)), add_zero, Telemetry.tellCount]
    split <;> rfl
  observe s r status bucket := by
    rw [latency_tellLatency]
    by_cases h : r.counted = true ∧ route = r.route
    · rw [if_pos h, if_pos ⟨rfl, h.1⟩, if_pos h.2, RequestHistogram.observe]
    · rw [if_neg h]
      by_cases hr : r.counted = true
      · rw [if_pos ⟨rfl, hr⟩, if_neg fun hroute => h ⟨hr, hroute⟩, add_zero]
      · rw [if_neg fun hrule => hr hrule.2, add_zero]

/-! ## What is told is true -/

/-- The span of an answered request. -/
def endedSpan (tracing : Bool) (a : Answered) : List EndedSpan :=
  (a.request.spanIn tracing).toList.map fun ids => ⟨ids, a.request.route, some a.status⟩

/-- What is shared tells of requests `P` only, and nothing false. -/
structure Telemetry.Truthful (tracing : Bool) (P : WebRequest → Prop) (s : Telemetry) : Prop where
  answered : ∀ a ∈ s.responses, P a.request ∧ a.requestId = a.request.requestId
  spans : s.spans = s.responses.flatMap (endedSpan tracing)
  series : ∀ labels, 0 < (s.requests labels).value →
    ∃ r status, P r ∧ r.counted = true ∧ labels = r.labels status
  exemplars : ∀ labels t, (s.requests labels).exemplar = some t →
    ∃ r status, P r ∧ r.counted = true ∧ labels = r.labels status ∧
      exemplar (r.spanIn tracing) = some t
  routes : ∀ route, 0 < (s.latency route).count →
    ∃ r, P r ∧ r.counted = true ∧ route = r.route
  bucketExemplars : ∀ route bucket t, (s.latency route).exemplar bucket = some t →
    ∃ r, P r ∧ r.counted = true ∧ route = r.route ∧ exemplar (r.spanIn tracing) = some t

section Truth

variable {P Q : WebRequest → Prop} {s s' : Telemetry}

theorem Telemetry.Truthful.mono (h : s.Truthful tracing P) (hPQ : ∀ r, P r → Q r) :
    s.Truthful tracing Q where
  answered a ha := (h.answered a ha).imp_left (hPQ _)
  spans := h.spans
  series labels hpos := by
    obtain ⟨r, status, hr, hrest⟩ := h.series labels hpos
    exact ⟨r, status, hPQ r hr, hrest⟩
  exemplars labels t ht := by
    obtain ⟨r, status, hr, hrest⟩ := h.exemplars labels t ht
    exact ⟨r, status, hPQ r hr, hrest⟩
  routes route hpos := by
    obtain ⟨r, hr, hrest⟩ := h.routes route hpos
    exact ⟨r, hPQ r hr, hrest⟩
  bucketExemplars route bucket t ht := by
    obtain ⟨r, hr, hrest⟩ := h.bucketExemplars route bucket t ht
    exact ⟨r, hPQ r hr, hrest⟩

/-- An exemplar that is not given leaves the one that is there. -/
theorem or_eq_some {given there : Option ℕ} {t : ℕ} (h : (given <|> there) = some t) :
    given = some t ∨ given = none ∧ there = some t := by
  cases given with
  | none => exact .inr ⟨rfl, h⟩
  | some t' => exact .inl h

theorem truthful_tellCount (h : s.Truthful tracing P) {r : WebRequest} (hr : P r) (status : ℕ) :
    (s.tellCount tracing r status).Truthful tracing P := by
  have hsame : (s.tellCount tracing r status).spans = s.spans ∧
      (s.tellCount tracing r status).latency = s.latency := by
    rw [Telemetry.tellCount]
    split <;> exact ⟨rfl, rfl⟩
  refine ⟨fun a ha => h.answered a (by rwa [Telemetry.responses_tellCount] at ha), ?_,
    fun labels hpos => ?_, fun labels t ht => ?_, by rw [hsame.2]; exact h.routes,
    by rw [hsame.2]; exact h.bucketExemplars⟩
  · rw [hsame.1, Telemetry.responses_tellCount, h.spans]
  · rw [requests_tellCount] at hpos
    split at hpos
    case isTrue hlabels => exact ⟨r, status, hr, hlabels⟩
    case isFalse => exact h.series labels hpos
  · rw [requests_tellCount] at ht
    split at ht
    case isFalse => exact h.exemplars labels t ht
    case isTrue hlabels =>
      rcases or_eq_some ht with hgiven | ⟨-, hthere⟩
      · exact ⟨r, status, hr, hlabels.1, hlabels.2, hgiven⟩
      · exact h.exemplars labels t hthere

theorem truthful_tellLatency (h : s.Truthful tracing P) {r : WebRequest} (hr : P r)
    (bucket : ℕ) : (s.tellLatency tracing r bucket).Truthful tracing P := by
  have hsame : (s.tellLatency tracing r bucket).spans = s.spans ∧
      (s.tellLatency tracing r bucket).requests = s.requests := by
    rw [Telemetry.tellLatency]
    split <;> exact ⟨rfl, rfl⟩
  refine ⟨fun a ha => h.answered a (by rwa [Telemetry.responses_tellLatency] at ha), ?_,
    by rw [hsame.2]; exact h.series, by rw [hsame.2]; exact h.exemplars, fun route hpos => ?_,
    fun route b t ht => ?_⟩
  · rw [hsame.1, Telemetry.responses_tellLatency, h.spans]
  · rw [latency_tellLatency] at hpos
    split at hpos
    case isTrue hroute => exact ⟨r, hr, hroute⟩
    case isFalse => exact h.routes route hpos
  · rw [latency_tellLatency] at ht
    split at ht
    case isFalse => exact h.bucketExemplars route b t ht
    case isTrue hroute =>
      rw [RequestHistogram.observe] at ht
      dsimp only at ht
      by_cases hb : b = bucket
      · subst hb
        rw [Function.update_self] at ht
        rcases or_eq_some ht with hgiven | ⟨-, hthere⟩
        · exact ⟨r, hr, hroute.1, hroute.2, hgiven⟩
        · exact h.bucketExemplars route b t hthere
      · rw [Function.update_of_ne hb] at ht
        exact h.bucketExemplars route b t ht

/-- **What a step tells is true.** -/
theorem truthful_effect {action : WebAction} {p p' : Option (WebRequest × Stage)}
    (h : Effect tracing s action p s' p') (hp : ∀ r stage, p = some (r, stage) → P r)
    (hs : s.Truthful tracing P) : s'.Truthful tracing P := by
  cases h with
  | arrive r => exact hs
  | quiet _ _ => exact hs
  | line p logger context =>
    exact ⟨hs.answered, hs.spans, hs.series, hs.exemplars, hs.routes, hs.bucketExemplars⟩
  | log r status =>
    exact ⟨hs.answered, hs.spans, hs.series, hs.exemplars, hs.routes, hs.bucketExemplars⟩
  | count r status => exact truthful_tellCount hs (hp r _ rfl) status
  | observe r status bucket => exact truthful_tellLatency hs (hp r _ rfl) bucket
  | mark r status => exact hs
  | finish r status =>
    refine ⟨fun a ha => ?_, ?_, hs.series, hs.exemplars, hs.routes, hs.bucketExemplars⟩
    · rcases List.mem_append.mp ha with ha | ha
      · exact hs.answered a ha
      · rw [List.mem_singleton.mp ha]
        exact ⟨hp r _ rfl, rfl⟩
    · rw [List.flatMap_append, ← hs.spans]
      exact congrArg _ (List.append_nil _).symm

/-- A request that a thread has after a step has come with the step, or was there. -/
theorem place_of_effect {action : WebAction} {p p' : Option (WebRequest × Stage)}
    (h : Effect tracing s action p s' p') {r : WebRequest} {stage : Stage}
    (hp' : p' = some (r, stage)) : action = .arrive r ∨ ∃ stage', p = some (r, stage') := by
  cases h with
  | arrive r => cases hp'; exact Or.inl rfl
  | finish r status => cases hp'
  | line p logger context => exact Or.inr ⟨stage, hp'⟩
  | _ => cases hp'; exact Or.inr ⟨_, rfl⟩

end Truth

/-! ## Sums over the answered requests -/

theorem answeredSum_cons {M : Type} [AddCommMonoid M] (value : WebRequest → ℕ → M)
    (a : Answered) (responses : List Answered) :
    answeredSum value (a :: responses) =
      (if a.request.counted then value a.request a.status else 0) +
        answeredSum value responses := by
  rw [answeredSum, List.map_cons, List.sum_cons]
  rfl

theorem answeredSum_eq_countP (p : WebRequest → ℕ → Bool) (responses : List Answered) :
    answeredSum (fun r status => if p r status then 1 else 0) responses =
      responses.countP fun a => a.request.counted && p a.request a.status := by
  induction responses with
  | nil => rfl
  | cons a responses ih =>
    rw [answeredSum_cons, ih, List.countP_cons, Nat.add_comm]
    cases a.request.counted <;> rfl

theorem answeredSum_singleton {α : Type} (g : WebRequest → ℕ → α) (responses : List Answered) :
    answeredSum (fun r status => ({g r status} : Multiset α)) responses =
      ((responses.filter fun a => a.request.counted).map fun a => g a.request a.status) := by
  induction responses with
  | nil => rfl
  | cons a responses ih =>
    rw [answeredSum_cons, ih, List.filter_cons]
    cases a.request.counted with
    | false => exact zero_add _
    | true => rfl

/-! ## The run -/

theorem WebRequest.methodLabel_mem (r : WebRequest) : r.methodLabel ∈ "OTHER" :: httpMethods := by
  rw [WebRequest.methodLabel]
  split_ifs with h
  · exact List.mem_cons_of_mem _ h
  · exact List.mem_cons_self

/-- The requests that a thread has taken up. -/
def requestsOf [DecidableEq ι] (i : ι) (xs : List (ι × WebAction)) : List WebRequest :=
  (own i xs).flatMap WebAction.arriving

/-- **A thread has what its own requests bring**, whatever the others do. -/
theorem tidy_of_exec [DecidableEq ι] {xs : List (ι × WebAction)} {c : Config ι Telemetry WebThread}
    (h : exec (webStep tracing) (idlePool ι) xs = some c) (i : ι) :
    (c.locals i).Tidy tracing (requestsOf i xs) := by
  refine locals_invariant (L := fun as l => l.Tidy tracing (as.flatMap WebAction.arriving))
    (tidy_idlePool i) (fun as a s l s' l' hl hstep => ?_) h
  rw [List.flatMap_append, List.flatMap_singleton]
  exact (tidy_of_step hstep hl).1

/-- What is so after every step: the requests that the threads have and those that are told of have
come. -/
theorem truthful_of_exec [DecidableEq ι] {xs : List (ι × WebAction)}
    {c : Config ι Telemetry WebThread}
    (h : exec (webStep tracing) (idlePool ι) xs = some c) :
    (∀ i r stage, (c.locals i).place = some (r, stage) → ∃ j, (j, .arrive r) ∈ xs) ∧
      c.shared.Truthful tracing fun r => ∃ j, (j, .arrive r) ∈ xs := by
  refine exec_invariant (I := fun xs d =>
    (∀ i r stage, (d.locals i).place = some (r, stage) → ∃ j, (j, .arrive r) ∈ xs) ∧
    d.shared.Truthful tracing fun r => ∃ j, (j, .arrive r) ∈ xs) ?_ ?_ h
  · refine ⟨fun i r stage hplace => ?_, ?_⟩
    · cases hplace
    · exact ⟨by simp [idlePool], rfl, fun labels hpos => absurd hpos (lt_irrefl 0),
        fun labels t ht => (Option.some_ne_none t ht.symm).elim,
        fun route hpos => absurd hpos (lt_irrefl 0),
        fun route bucket t ht => (Option.some_ne_none t ht.symm).elim⟩
  · rintro xs d ⟨i, action⟩ d' hd ⟨hplace, htrue⟩ hx
    obtain ⟨hnext, hothers⟩ := stepBy_spec hx
    obtain ⟨-, heffect⟩ := tidy_of_step hnext (tidy_of_exec hd i)
    have hgrow : ∀ r, (∃ j, (j, WebAction.arrive r) ∈ xs) →
        ∃ j, (j, .arrive r) ∈ xs ++ [(i, action)] := fun r ⟨j, hj⟩ =>
      ⟨j, List.mem_append_left _ hj⟩
    refine ⟨fun j r stage hj => ?_, (truthful_effect heffect (hplace i) htrue).mono hgrow⟩
    by_cases hij : j = i
    · subst hij
      rcases place_of_effect heffect hj with rfl | ⟨stage', hbefore⟩
      · exact ⟨j, List.mem_append_right _ List.mem_cons_self⟩
      · exact hgrow r (hplace j r stage' hbefore)
    · rw [hothers j hij] at hj
      exact hgrow r (hplace j r stage hj)

/-- **The telemetry tells what happened**, in every interleaving of any requests on any threads.
At every moment the span and the log variables of a thread are determined by its own requests:
they are those of its request, but for the id of the one before, which stays until the new one is
bound.  Every response, span, series and exemplar is that of a request that has come, and the
labels keep to a few methods and to the routes that are counted.  When no request is left, the
lines are just those of the answered requests that are counted, and so are the two metrics. -/
theorem telemetry_of_exec [Fintype ι] [DecidableEq ι] {xs : List (ι × WebAction)}
    {c : Config ι Telemetry WebThread}
    (h : exec (webStep tracing) (idlePool ι) xs = some c) :
    (∀ i, (c.locals i).Tidy tracing (requestsOf i xs)) ∧
      c.shared.Truthful tracing (fun r => ∃ j, (j, .arrive r) ∈ xs) ∧
      (∀ labels, 0 < (c.shared.requests labels).value →
        labels.method ∈ "OTHER" :: httpMethods ∧ labels.route ∉ uncountedRoutes) ∧
      (∀ route, 0 < (c.shared.latency route).count → route ∉ uncountedRoutes) ∧
      ((∀ i, (c.locals i).visit = none) →
        requestLines c.shared =
            ((c.shared.responses.filter fun a => a.request.counted).map fun a =>
              a.request.lineIn tracing a.status) ∧
          (∀ labels, (c.shared.requests labels).value = c.shared.responses.countP fun a =>
            a.request.counted && decide (labels = a.request.labels a.status)) ∧
          ∀ route, (c.shared.latency route).count = c.shared.responses.countP fun a =>
            a.request.counted && decide (route = a.request.route)) := by
  obtain ⟨-, htrue⟩ := truthful_of_exec h
  refine ⟨tidy_of_exec h, htrue, fun labels hpos => ?_, fun route hpos => ?_,
    fun hidle => ⟨?_, fun labels => ?_, fun route => ?_⟩⟩
  · obtain ⟨r, status, -, hcounted, rfl⟩ := htrue.series labels hpos
    exact ⟨r.methodLabel_mem, of_decide_eq_true hcounted⟩
  · obtain ⟨r, -, hcounted, rfl⟩ := htrue.routes route hpos
    exact of_decide_eq_true hcounted
  · exact (measures_lines.exec h hidle).trans (answeredSum_singleton _ _)
  · rw [(measures_requests labels).exec h hidle,
      ← answeredSum_eq_countP fun r status => decide (labels = r.labels status)]
    simp only [decide_eq_true_eq]
  · rw [(measures_latency route).exec h hidle,
      ← answeredSum_eq_countP fun r _ => decide (route = r.route)]
    simp only [decide_eq_true_eq]

end

/-- The steps of a request that no library line interrupts. -/
def wholeRequest (r : WebRequest) (status : ℕ) : List WebAction :=
  [.arrive r, .startRequestSpan, .startTimer, .bindRequestId, .handler status, .logRequest, .count,
    .observe 0, .recordStatus, .endRequestSpan]

/-- A page whose id is refused. -/
def forgedRequest : WebRequest where
  method := "BREW"
  rule := none
  requestIdHeader := some "forged id"
  uuid := "6f1c"
  ids := ⟨7, 3, true⟩

/-- A probe. -/
def probeRequest : WebRequest where
  method := "GET"
  rule := some "/healthz"
  requestIdHeader := some "probe-0001"
  uuid := "a0b2"
  ids := ⟨8, 4, true⟩

/-- Two threads, step by step in turn; then the first serves a probe. -/
def twoThreads : List (Bool × WebAction) :=
  ((wholeRequest forgedRequest 404).flatMap fun action => [(true, action), (false, action)]) ++
    (wholeRequest probeRequest 200).map fun action => (true, action)

def twoThreadsEnd : Config Bool Telemetry WebThread :=
  (exec (webStep true) (idlePool Bool) twoThreads).getD (idlePool Bool)

theorem telemetry_of_exec_twoThreads :
    exec (webStep true) (idlePool Bool) twoThreads = some twoThreadsEnd ∧
      (twoThreadsEnd.shared.requests ⟨"OTHER", "unmatched", 404⟩).value = 2 ∧
      requestLines twoThreadsEnd.shared =
        [forgedRequest.lineIn true 404, forgedRequest.lineIn true 404] := by
  have hc : exec (webStep true) (idlePool Bool) twoThreads = some twoThreadsEnd := rfl
  have hidle : ∀ i, (twoThreadsEnd.locals i).visit = none := by
    intro i
    cases i <;> rfl
  have hresponses : twoThreadsEnd.shared.responses =
      [⟨forgedRequest, 404, "6f1c"⟩, ⟨forgedRequest, 404, "6f1c"⟩,
        ⟨probeRequest, 200, "probe-0001"⟩] := by decide
  obtain ⟨hlines, hrequests, -⟩ := (telemetry_of_exec hc).2.2.2.2 hidle
  refine ⟨hc, ?_, ?_⟩
  · rw [hrequests, hresponses]
    decide
  · rw [hlines, hresponses]
    rfl

end EpsCloud

import EpsCloud.Library.Fallible
import EpsCloud.Library.JsonText

/-!
# The log of the alerts

`observability/alert-log.py` receives the notifications of Alertmanager one after another and
prints a line of JSON for each alert: its status, and of its labels only those on a list, cut to
256 characters.

`loads` is `json.loads` of a body and `int` is the built-in `int` of a header, `none` where they
raise.  A text that is loaded may have surrogates; a pair of them is printed like the character
that it encodes, and so it is read back as that one.  The log is what is printed; an answer is
missing where the handler raises.

* `Notifies`, `IsAlert`: the notifications that are taken, and what is kept of an alert.
* `handleHttp_of_taken`, `handleHttp_cases`: a request is logged as a whole or not at all.
* `alertLog_after_run`: the log is read back as just the alerts that were taken, in order.
-/

namespace EpsCloud

open TextReader JsonText

/-! ## The source -/

/-- What a read meets past the bytes that have come. -/
inductive StreamEnd where
  | closed
  /-- Nothing comes for five seconds. -/
  | stalled
  | reset
  deriving DecidableEq

/-- A request, and the bytes behind its headers. -/
structure AlertRequest where
  isPost : Bool
  path : String
  transferEncoding : Option String
  contentLengths : List String
  received : List UInt8
  ending : StreamEnd

/-- A value that `json.loads` gives, the numbers, truth values and `None` not told apart. -/
inductive Loaded where
  | scalar
  | text (s : List Code)
  | array (items : List Loaded)
  | object (fields : List (List Code × Loaded))

/-- A text of the source. -/
def lit (s : String) : List Code := codes s.toList

/-- `LABELS` -/
def alertLabels : List (List Code) :=
  [lit "alertname", lit "severity", lit "namespace", lit "pod", lit "cronjob", lit "job"]

/-- An entry of the result of `parse_alerts`; its event is `alert`. -/
structure AlertLine where
  status : List Code
  labels : List (List Code × List Code)

inductive ParseError where
  | type (message : String)
  | value (message : String)
  /-- `json.loads` raises. -/
  | loads
  deriving DecidableEq

/-- The labels if all values are texts. -/
def textLabels : List (List Code × Loaded) → Option (List (List Code × List Code))
  | [] => some []
  | (name, .text value) :: labels => (textLabels labels).map ((name, value) :: ·)
  | _ :: _ => none

/-- `{k: v[:256] for k, v in labels.items() if k in LABELS}` -/
def keptLabels (labels : List (List Code × List Code)) : List (List Code × List Code) :=
  (labels.filter fun label => label.1 ∈ alertLabels).map fun label =>
    (label.1, label.2.take 256)

/-- One turn of the loop of `parse_alerts`. -/
def parseAlert (alert : Loaded) : Except ParseError AlertLine :=
  match alert with
  | .object fields =>
    match fields.lookup (lit "status") with
    | some (.text status) =>
      if status = lit "firing" ∨ status = lit "resolved" then
        match fields.lookup (lit "labels") with
        | some (.object labels) =>
          match textLabels labels with
          | some labels => .ok ⟨status, keptLabels labels⟩
          | none => .error (.value "Invalid labels")
        | _ => .error (.value "Invalid labels")
      else .error (.value "Invalid alert")
    | some (.array _) => .error (.type "unhashable type: 'list'")
    | some (.object _) => .error (.type "unhashable type: 'dict'")
    | _ => .error (.value "Invalid alert")
  | _ => .error (.value "Invalid alert")

section

variable (loads : List UInt8 → Option Loaded) (int : String → Option ℤ)

/-- `parse_alerts` -/
def parseAlerts (body : List UInt8) : Except ParseError (List AlertLine) :=
  match loads body with
  | none => .error .loads
  | some (.object fields) =>
    match fields.lookup (lit "alerts") with
    | some (.array alerts) =>
      if 100 < alerts.length then .error (.value "Too many alerts")
      else alerts.mapM parseAlert
    | _ => .error (.type "Expected an alerts array")
  | some _ => .error (.type "Expected an alerts array")

/-- What `json.dumps` is given. -/
def AlertLine.tree (line : AlertLine) : Tree :=
  .object [(lit "event", .text (lit "alert")), (lit "status", .text line.status),
    (lit "labels", .object (line.labels.map fun label => (label.1, .text label.2)))]

/-- `print(json.dumps(line))` of each line. -/
def printLines (lines : List AlertLine) : List Char :=
  lines.flatMap fun line => dumps oneLine 0 line.tree ++ ['\n']

/-- `do_POST`: the status of the answer, and what is printed. -/
def doPost (r : AlertRequest) : Option ℕ × List Char :=
  if r.path ≠ "/" then (some 404, [])
  else if r.transferEncoding.getD "" ≠ "" then (some 400, [])
  else
    match r.contentLengths with
    | _ :: _ :: _ => (some 400, [])
    | [] => (some 411, [])
    | [length] =>
      match int length with
      | none => (some 400, [])
      | some size =>
        if size < 0 ∨ 65536 < size then (some 413, [])
        else if r.received.length < size.toNat then
          match r.ending with
          | .closed => (some 400, [])
          | .stalled => (some 408, [])
          | .reset => (none, [])
        else
          match parseAlerts loads (r.received.take size.toNat) with
          | .error _ => (some 400, [])
          | .ok lines => (some 200, printLines lines)

/-- `do_GET` -/
def doGet (r : AlertRequest) : Option ℕ × List Char :=
  (some (if r.path = "/healthz" then 200 else 404), [])

def handleHttp (r : AlertRequest) : Option ℕ × List Char :=
  if r.isPost then doPost loads int r else doGet r

/-- `serve_forever`: the answers to the requests, and the log. -/
def serveAlerts (log : List Char) : List AlertRequest → List (Option ℕ) × List Char
  | [] => ([], log)
  | r :: requests =>
    let handled := handleHttp loads int r
    let served := serveAlerts (log ++ handled.2) requests
    (handled.1 :: served.1, served.2)

/-! ## What is taken -/

/-- The request is a notification of the alerts that is well formed and complete. -/
structure Notifies (r : AlertRequest) (alerts : List Loaded) : Prop where
  post : r.isPost = true
  path : r.path = "/"
  encoding : r.transferEncoding = none ∨ r.transferEncoding = some ""
  /-- The body has the length that the only header says. -/
  body : ∃ (length : String) (size : ℕ) (fields : List (List Code × Loaded)),
    r.contentLengths = [length] ∧ int length = some (size : ℤ) ∧
    size ≤ 65536 ∧ size ≤ r.received.length ∧
    loads (r.received.take size) = some (.object fields) ∧
    fields.lookup (lit "alerts") = some (.array alerts)
  few : alerts.length ≤ 100

end

/-- The alert is well formed, and the line has its status and the labels on the list. -/
def IsAlert (alert : Loaded) (line : AlertLine) : Prop :=
  ∃ fields status labels, alert = .object fields ∧
    fields.lookup (lit "status") = some (.text status) ∧
    (status = lit "firing" ∨ status = lit "resolved") ∧
    fields.lookup (lit "labels") =
      some (.object (labels.map fun label => (label.1, .text label.2))) ∧
    line = ⟨status, keptLabels labels⟩

theorem textLabels_eq_some_iff {labels : List (List Code × Loaded)}
    {texts : List (List Code × List Code)} :
    textLabels labels = some texts ↔
      labels = texts.map fun label => (label.1, .text label.2) := by
  induction labels generalizing texts with
  | nil => cases texts <;> simp [textLabels]
  | cons label labels ih =>
    obtain ⟨name, value⟩ := label
    cases texts with
    | nil => cases value <;> simp [textLabels]
    | cons text texts =>
      cases value with
      | text value =>
        rw [textLabels, Option.map_eq_some_iff, List.map_cons, List.cons_eq_cons,
          Prod.mk.injEq, Loaded.text.injEq, ← ih]
        constructor
        · rintro ⟨texts', h, heq⟩
          cases heq
          exact ⟨⟨rfl, rfl⟩, h⟩
        · rintro ⟨⟨rfl, rfl⟩, h⟩
          exact ⟨texts, h, rfl⟩
      | _ => simp [textLabels]

/-- **Which alerts are taken, and as which lines.** -/
theorem parseAlert_eq_ok_iff {alert : Loaded} {line : AlertLine} :
    parseAlert alert = .ok line ↔ IsAlert alert line := by
  constructor
  · intro h
    unfold parseAlert at h
    split at h
    case h_2 => cases h
    rename_i fields
    split at h
    case h_2 => cases h
    case h_3 => cases h
    case h_4 => cases h
    rename_i status hstatus
    split_ifs at h with hknown
    split at h
    case h_2 => cases h
    rename_i labels hlabels
    split at h
    case h_2 => cases h
    rename_i texts htexts
    cases h
    rw [textLabels_eq_some_iff.mp htexts] at hlabels
    exact ⟨fields, status, texts, rfl, hstatus, hknown, hlabels, rfl⟩
  · rintro ⟨fields, status, texts, rfl, hstatus, hknown, hlabels, rfl⟩
    have htexts := textLabels_eq_some_iff.mpr
      (rfl : texts.map (fun label => (label.1, Loaded.text label.2)) = _)
    simp only [parseAlert, hstatus, hlabels, htexts, if_pos hknown]

section

variable {loads : List UInt8 → Option Loaded} {int : String → Option ℤ} {r : AlertRequest}
  {alerts : List Loaded} {lines : List AlertLine}

/-- The notification is taken, as the lines. -/
def Taken (loads : List UInt8 → Option Loaded) (int : String → Option ℤ) (r : AlertRequest)
    (lines : List AlertLine) : Prop :=
  ∃ alerts, Notifies loads int r alerts ∧ List.Forall₂ IsAlert alerts lines

theorem mapM_parseAlert_eq_ok_iff :
    alerts.mapM parseAlert = .ok lines ↔ List.Forall₂ IsAlert alerts lines := by
  rw [Fallible.mapM_eq_ok_iff]
  exact ⟨fun h => h.imp fun _ _ => parseAlert_eq_ok_iff.mp,
    fun h => h.imp fun _ _ => parseAlert_eq_ok_iff.mpr⟩

theorem parseAlerts_eq_ok_iff {body : List UInt8} :
    parseAlerts loads body = .ok lines ↔
      ∃ fields alerts, loads body = some (.object fields) ∧
        fields.lookup (lit "alerts") = some (.array alerts) ∧ alerts.length ≤ 100 ∧
        List.Forall₂ IsAlert alerts lines := by
  constructor
  · intro h
    unfold parseAlerts at h
    split at h
    case h_1 => cases h
    case h_3 => cases h
    rename_i fields hbody
    split at h
    case h_2 => cases h
    rename_i alerts halerts
    split_ifs at h with hmany
    exact ⟨fields, alerts, hbody, halerts, not_lt.mp hmany, mapM_parseAlert_eq_ok_iff.mp h⟩
  · rintro ⟨fields, alerts, hbody, halerts, hfew, hlines⟩
    simp only [parseAlerts, hbody, halerts, if_neg (not_lt.mpr hfew)]
    exact mapM_parseAlert_eq_ok_iff.mpr hlines

/-- A notification that is taken is answered and logged. -/
theorem handleHttp_of_taken (h : Taken loads int r lines) :
    handleHttp loads int r = (some 200, printLines lines) := by
  obtain ⟨alerts, hr, hlines⟩ := h
  obtain ⟨length, size, fields, hlengths, hint, hmax, hcomplete, hloads, halerts⟩ := hr.body
  have hencoding : r.transferEncoding.getD "" = "" := by
    rcases hr.encoding with h | h
    · rw [h, Option.getD_none]
    · rw [h, Option.getD_some]
  have hsize : ¬ ((size : ℤ) < 0 ∨ 65536 < (size : ℤ)) := by omega
  have hparse : parseAlerts loads (r.received.take size) = .ok lines :=
    parseAlerts_eq_ok_iff.mpr ⟨fields, alerts, hloads, halerts, hr.few, hlines⟩
  rw [handleHttp, if_pos hr.post, doPost, if_neg (not_not.mpr hr.path),
    if_neg (not_not.mpr hencoding)]
  simp only [hlengths, hint, if_neg hsize, Int.toNat_natCast, if_neg (not_lt.mpr hcomplete),
    hparse]

/-- **A request is logged as a whole or not at all.** -/
theorem handleHttp_cases (loads : List UInt8 → Option Loaded) (int : String → Option ℤ)
    (r : AlertRequest) :
    (∃ lines, Taken loads int r lines) ∨
      (handleHttp loads int r).2 = [] ∧
        (r.isPost = true → (handleHttp loads int r).1 ≠ some 200) := by
  cases hpost : r.isPost with
  | false =>
    rw [handleHttp, hpost, if_neg Bool.false_ne_true]
    exact Or.inr ⟨rfl, fun h => absurd h Bool.false_ne_true⟩
  | true =>
    rw [handleHttp, if_pos hpost]
    unfold doPost
    split_ifs with hpath hencoding
    · exact Or.inr ⟨rfl, by simp⟩
    · exact Or.inr ⟨rfl, by simp⟩
    · split
      case h_1 => exact Or.inr ⟨rfl, by simp⟩
      case h_2 => exact Or.inr ⟨rfl, by simp⟩
      rename_i length hlengths
      split
      case h_1 => exact Or.inr ⟨rfl, by simp⟩
      rename_i size hint
      split_ifs with hsize hshort
      · exact Or.inr ⟨rfl, by simp⟩
      · cases r.ending with
        | closed => exact Or.inr ⟨rfl, by simp⟩
        | stalled => exact Or.inr ⟨rfl, by simp⟩
        | reset => exact Or.inr ⟨rfl, by simp⟩
      · split
        case h_1 => exact Or.inr ⟨rfl, by simp⟩
        rename_i lines hparse
        obtain ⟨fields, alerts, hloads, halerts, hfew, hlines⟩ := parseAlerts_eq_ok_iff.mp hparse
        have htoNat : (size.toNat : ℤ) = size := Int.toNat_of_nonneg (by omega)
        refine Or.inl ⟨lines, alerts, ⟨hpost, not_not.mp hpath, ?_, ?_, hfew⟩, hlines⟩
        · cases hgiven : r.transferEncoding with
          | none => exact Or.inl rfl
          | some encoding =>
            rw [hgiven, Option.getD_some, not_not] at hencoding
            exact Or.inr (congrArg some hencoding)
        · exact ⟨length, size.toNat, fields, hlengths, by rw [hint, htoNat], by omega,
            not_lt.mp hshort, hloads, halerts⟩

/-! ## The log -/

/-- What the log tells of a request: the lines of a notification that is taken, else nothing. -/
def Logs (loads : List UInt8 → Option Loaded) (int : String → Option ℤ) (r : AlertRequest)
    (lines : List AlertLine) : Prop :=
  Taken loads int r lines ∨ (∀ lines, ¬ Taken loads int r lines) ∧ lines = []

/-- One request adds its lines to the log. -/
theorem exists_logs (loads : List UInt8 → Option Loaded) (int : String → Option ℤ)
    (r : AlertRequest) :
    ∃ lines, Logs loads int r lines ∧ (handleHttp loads int r).2 = printLines lines := by
  rcases handleHttp_cases loads int r with ⟨lines, h⟩ | ⟨hnothing, hanswer⟩
  · exact ⟨lines, Or.inl h, by rw [handleHttp_of_taken h]⟩
  · refine ⟨[], Or.inr ⟨fun lines h => ?_, rfl⟩, hnothing⟩
    obtain ⟨alerts, hr, -⟩ := id h
    exact hanswer hr.post (congrArg Prod.fst (handleHttp_of_taken h))

example : printLines [⟨lit "firing", [(lit "job", lit "a\nb")]⟩] =
    ("\x7b\"event\": \"alert\", \"status\": \"firing\", \"labels\": " ++
      "\x7b\"job\": \"a\\nb\"\x7d\x7d\n").toList := by decide

/-- Two surrogates that form a pair are printed like the character that they encode. -/
example : printLines [⟨lit "firing", [(lit "job", [⟨55357, by decide⟩, ⟨56832, by decide⟩])]⟩] =
    printLines [⟨lit "firing", [(lit "job", lit "😀")]⟩] := by decide

theorem printLines_append (lines lines' : List AlertLine) :
    printLines (lines ++ lines') = printLines lines ++ printLines lines' :=
  List.flatMap_append

/-- The log is what the requests add to it, one after another. -/
theorem log_of_serveAlerts (log : List Char) (requests : List AlertRequest) :
    ∃ written, List.Forall₂ (Logs loads int) requests written ∧
      (serveAlerts loads int log requests).2 = log ++ printLines written.flatten := by
  induction requests generalizing log with
  | nil => exact ⟨[], List.Forall₂.nil, (List.append_nil log).symm⟩
  | cons r requests ih =>
    obtain ⟨lines, hlines, hout⟩ := exists_logs loads int r
    obtain ⟨written, hwritten, hlog⟩ := ih (log ++ (handleHttp loads int r).2)
    refine ⟨lines :: written, List.Forall₂.cons hlines hwritten, ?_⟩
    rw [serveAlerts, hlog, hout, List.flatten_cons, printLines_append, List.append_assoc]

/-- The answer tells whether a notification is taken. -/
def IsAnswer (loads : List UInt8 → Option Loaded) (int : String → Option ℤ) (r : AlertRequest)
    (answer : Option ℕ) : Prop :=
  r.isPost = true → (answer = some 200 ↔ ∃ lines, Taken loads int r lines)

theorem answers_of_serveAlerts (log : List Char) (requests : List AlertRequest) :
    List.Forall₂ (IsAnswer loads int) requests (serveAlerts loads int log requests).1 := by
  induction requests generalizing log with
  | nil => exact List.Forall₂.nil
  | cons r requests ih =>
    refine List.Forall₂.cons (fun hpost => ⟨fun h => ?_, fun ⟨lines, h⟩ => ?_⟩) (ih _)
    · rcases handleHttp_cases loads int r with htaken | ⟨-, hanswer⟩
      · exact htaken
      · exact absurd h (hanswer hpost)
    · exact congrArg Prod.fst (handleHttp_of_taken h)

/-- What a line tells: a status, and labels on the list, cut. -/
def AlertLine.IsMinimal (line : AlertLine) : Prop :=
  (line.status = lit "firing" ∨ line.status = lit "resolved") ∧
    ∀ label ∈ line.labels, label.1 ∈ alertLabels ∧ label.2.length ≤ 256

theorem isMinimal_of_isAlert {alert : Loaded} {line : AlertLine} (h : IsAlert alert line) :
    line.IsMinimal := by
  obtain ⟨fields, status, labels, -, -, hstatus, -, rfl⟩ := h
  refine ⟨hstatus, fun label hlabel => ?_⟩
  obtain ⟨given, hgiven, rfl⟩ := List.mem_map.mp hlabel
  rw [List.mem_filter, decide_eq_true_eq] at hgiven
  exact ⟨hgiven.2, List.length_take_le _ _⟩

/-- The line with each pair of surrogates in the values of its labels as the one character that it
encodes. -/
def AlertLine.joined (line : AlertLine) : AlertLine :=
  { line with labels := line.labels.map fun label => (label.1, join label.2) }

theorem join_lit (s : String) : join (lit s) = lit s := join_codes _

theorem join_of_mem_alertLabels {name : List Code} (h : name ∈ alertLabels) : join name = name := by
  unfold alertLabels at h
  simp only [List.mem_cons, List.not_mem_nil, or_false] at h
  rcases h with rfl | rfl | rfl | rfl | rfl | rfl <;> exact join_lit _

theorem joinMembers_labels {labels : List (List Code × List Code)}
    (h : ∀ label ∈ labels, join label.1 = label.1) :
    joinMembers (labels.map fun label => (label.1, .text label.2)) =
      labels.map fun label => (label.1, .text (join label.2)) := by
  induction labels with
  | nil => rfl
  | cons label labels ih =>
    rw [List.forall_mem_cons] at h
    rw [List.map_cons, List.map_cons, joinMembers, Tree.join, h.1, ih h.2]

/-- Nothing of a line is read back otherwise than the values of its labels. -/
theorem join_tree {line : AlertLine} (h : line.IsMinimal) : line.tree.join = line.joined.tree := by
  have hstatus : join line.status = line.status := by
    rcases h.1 with h | h <;> rw [h, join_lit]
  have hlabels := joinMembers_labels fun label hlabel =>
    join_of_mem_alertLabels (h.2 label hlabel).1
  simp only [AlertLine.tree, AlertLine.joined, Tree.join, joinMembers, join_lit, hstatus, hlabels,
    List.map_map]
  rfl

/-- The lines are read back from what is printed. -/
theorem readLines_printLines {lines : List AlertLine} (h : ∀ line ∈ lines, line.IsMinimal) :
    readLines '\n' readJson (printLines lines) =
      some (lines.map fun line => line.joined.tree) :=
  readLines_flatMap (fun line hline => join_tree (h line hline) ▸ reads_readJson oneLine line.tree)
    fun line _ => newline_notMem_of_isPrintable (isPrintable_dumps 0 line.tree)

/-- A request adds at most a hundred lines. -/
theorem Logs.bounded (h : Logs loads int r lines) :
    lines.length ≤ 100 ∧ ∀ line ∈ lines, line.IsMinimal := by
  rcases h with ⟨alerts, hr, hlines⟩ | ⟨-, rfl⟩
  · refine ⟨hlines.length_eq ▸ hr.few, fun line hline => ?_⟩
    obtain ⟨alert, -, halert⟩ := Fallible.exists_of_mem_right hlines hline
    exact isMinimal_of_isAlert halert
  · exact ⟨Nat.zero_le _, by simp⟩

/-- **The log is just the alerts that were taken**: over any requests it is read back, line by
line, as the lines of the notifications that were taken, in their order, each pair of surrogates
in a label as the one character that it encodes, and the answers tell which ones were; it is
printable, and no request adds more than a hundred lines, of permitted labels only. -/
theorem alertLog_after_run (loads : List UInt8 → Option Loaded) (int : String → Option ℤ)
    (requests : List AlertRequest) :
    List.Forall₂ (IsAnswer loads int) requests (serveAlerts loads int [] requests).1 ∧
    ∃ written, List.Forall₂ (Logs loads int) requests written ∧
      readLines '\n' readJson (serveAlerts loads int [] requests).2 =
        some (written.flatten.map fun line => line.joined.tree) ∧
      (∀ c ∈ (serveAlerts loads int [] requests).2, c = '\n' ∨ ' ' ≤ c ∧ c ≤ '~') ∧
      ∀ lines ∈ written, lines.length ≤ 100 ∧ ∀ line ∈ lines, line.IsMinimal := by
  refine ⟨answers_of_serveAlerts [] requests, ?_⟩
  obtain ⟨written, hwritten, hlog⟩ := @log_of_serveAlerts loads int [] requests
  rw [List.nil_append] at hlog
  have hbounded : ∀ lines ∈ written, lines.length ≤ 100 ∧ ∀ line ∈ lines, line.IsMinimal := by
    intro lines hlines
    obtain ⟨r, -, hr⟩ := Fallible.exists_of_mem_right hwritten hlines
    exact hr.bounded
  refine ⟨written, hwritten, ?_, fun c hc => ?_, hbounded⟩
  · rw [hlog]
    refine readLines_printLines fun line hline => ?_
    obtain ⟨lines, hlines, hmem⟩ := List.mem_flatten.mp hline
    exact (hbounded lines hlines).2 line hmem
  · rw [hlog] at hc
    obtain ⟨line, -, hc⟩ := List.mem_flatMap.mp hc
    rcases List.mem_append.mp hc with hc | hc
    · have hprint := List.all_eq_true.mp (isPrintable_dumps 0 line.tree) c hc
      exact Or.inr (decide_eq_true_eq.mp hprint)
    · exact Or.inl (List.mem_singleton.mp hc)

end

end EpsCloud

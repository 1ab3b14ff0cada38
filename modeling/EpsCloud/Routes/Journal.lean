import EpsCloud.Recompute.Streak
import EpsCloud.Recompute.Tracker
import EpsCloud.Routes.Audit
import EpsCloud.Routes.Forms

/-!
# The journal's write routes

`app.routes.journal`: each `POST` endpoint records one interaction.  A handler is
a function from the database to the database that its commit leaves, or to the
failure it answers with, in which case the session is rolled back.  Rendering
the response is not modelled.

Each of the four edits changes one row of one event table.  `RowChange` is what
a handler works out from the stored row: the row it leaves, and the `old` and
`new` values it hands to the audit.

* `map_lookup_recomputeStreaks`: what the loop over the active streaks writes.
* `markHabit_eq_ok`, `markTracker_eq_ok`, `saveMetric_eq_ok`, `toggleBadDay_eq_ok`:
  what a successful request has checked and what it leaves.
-/

namespace EpsCloud

/-- `grace_enabled`: whether a long streak may absorb a missed day. -/
def graceEnabled (db : Database) : Bool :=
  match db.settings with
  | some row => row.graceEnabled
  | none => true

/-- The text id of a row whose key is a day and a definition. -/
def rowIdOf (day : Date) (id : ℕ) : String := isoformat day ++ ":" ++ toString id

/-- What an edit does to one event row. -/
structure RowChange (ρ α : Type) where
  row : Option ρ
  old : Option α
  new : Option α

/-! ## Habits -/

/-- The edit of `mark_habit`: pressing the mark that is already active removes the entry. -/
def habitChange (entry : Option HabitLog) (passed : Bool) (now : Moment) :
    RowChange HabitLog Bool :=
  match entry with
  | none => ⟨some { passed := passed }, none, some passed⟩
  | some entry =>
    if entry.passed = passed then ⟨none, some entry.passed, none⟩
    else ⟨some { passed := passed, editedAt := some now }, some entry.passed, some passed⟩

/-- The column that `mark_habit` edits. -/
def habitTarget (day : Date) (streakId : ℕ) : AuditTarget :=
  ⟨"habit_log", rowIdOf day streakId, "passed"⟩

/-- `mark_habit` past its checks. -/
def recordHabit (clock : Clock) (day : Date) (streakId : ℕ) (passed : Bool) (db : Database) :
    Except Failure Database := do
  let change := habitChange (db.habitLog.lookup (day, streakId)) passed clock.now
  let db := { db with habitLog := db.habitLog.put (day, streakId) change.row }
  let db ← maybeAudit db (habitTarget day streakId) (change.old.map .bool)
    (change.new.map .bool) day clock.today
  return recomputeStreakState db streakId clock (graceEnabled db)

/-- The two marks of a habit row. -/
def parseMark (mark : String) : Except Failure Bool :=
  if mark = "pass" then .ok true
  else if mark = "fail" then .ok false
  else .error (.abort 404)

/-- `mark_habit`: record a pass or fail for one streak on one day. -/
def markHabit (clock : Clock) (date : String) (streakId : ℕ) (mark : String) (db : Database) :
    Except Failure Database := do
  let day ← parseDate date
  let passed ← parseMark mark
  let _ ← foundOr404 (db.getStreak streakId)
  recordHabit clock day streakId passed db

/-! ## Trackers -/

/-- The edit of `mark_tracker`: pressing again removes the entry. -/
def trackerChange (event : Option TrackerEvent) : RowChange TrackerEvent Bool :=
  match event with
  | none => ⟨some { activityDone := true }, none, some true⟩
  | some event => ⟨none, some event.activityDone, none⟩

/-- The column that a tracker mark edits. -/
def trackerTarget (day : Date) (trackerId : ℕ) : AuditTarget :=
  ⟨"tracker_events", rowIdOf day trackerId, "activity_done"⟩

/-- `mark_tracker`: record or clear one tracker's doing on one day. -/
def markTracker (clock : Clock) (date : String) (trackerId : ℕ) (db : Database) :
    Except Failure Database := do
  let day ← parseDate date
  let _ ← foundOr404 (db.getTracker trackerId)
  let change := trackerChange (db.trackerEvents.lookup (day, trackerId))
  let db := { db with trackerEvents := db.trackerEvents.put (day, trackerId) change.row }
  let db ← maybeAudit db (trackerTarget day trackerId) (change.old.map .bool)
    (change.new.map .bool) day clock.today
  return recomputeTrackerState db trackerId clock

/-! ## Metrics -/

/-- `metric.scale_min <= value <= metric.scale_max`, with the 400 of a value outside.  A
missing bound or a NaN makes the comparison raise. -/
def checkScale (metric : Metric) (value : Decimal) : Except Failure Unit :=
  match metric.scaleMin, metric.scaleMax with
  | some low, some high =>
    match Decimal.pyLe (.ofInt low) value with
    | none => .error .raised
    | some false => .error (.abort 400)
    | some true =>
      match Decimal.pyLe value (.ofInt high) with
      | none => .error .raised
      | some false => .error (.abort 400)
      | some true => .ok ()
  | _, _ => .error .raised

/-- The submitted value: `None` for an empty field, else a decimal inside the scale. -/
def parseMetricValue (py : TextParsers) (metric : Metric) (value : String) :
    Except Failure (Option Decimal) :=
  let raw := py.strip value
  if raw = "" then .ok none
  else
    match py.decimal raw with
    | none => .error (.abort 400)
    | some value =>
      match metric.metricType with
      | .scale => (checkScale metric value).map fun _ => some value
      | .numeric => .ok (some value)

/-- The edit of `save_metric`: tapping the scale value that is already selected clears it. -/
def metricChange (metricType : MetricType) (entry : Option MetricLog) (value : Option Decimal)
    (now : Moment) : Except Failure (RowChange MetricLog Decimal) :=
  match entry, value with
  | none, none => .ok ⟨none, none, none⟩
  | none, some value => .ok ⟨some { value := value.stored }, none, some value⟩
  | some entry, none => .ok ⟨none, some entry.value, none⟩
  | some entry, some value =>
    match metricType with
    | .numeric =>
      .ok ⟨some { value := value.stored, editedAt := some now }, some entry.value, some value⟩
    | .scale =>
      match entry.value.pyEq value with
      | none => .error .raised
      | some true => .ok ⟨none, some entry.value, none⟩
      | some false =>
        .ok ⟨some { value := value.stored, editedAt := some now }, some entry.value, some value⟩

/-- The column that `save_metric` edits. -/
def metricTarget (day : Date) (metricId : ℕ) : AuditTarget :=
  ⟨"metric_log", rowIdOf day metricId, "value"⟩

/-- `save_metric`: save, change or clear one metric value for one day. -/
def saveMetric (py : TextParsers) (clock : Clock) (date : String) (metricId : ℕ) (value : String)
    (db : Database) : Except Failure Database := do
  let day ← parseDate date
  let metric ← foundOr404 (db.getMetric metricId)
  let value ← parseMetricValue py metric value
  let change ← metricChange metric.metricType (db.metricLog.lookup (day, metricId)) value clock.now
  let db := { db with metricLog := db.metricLog.put (day, metricId) change.row }
  maybeAudit db (metricTarget day metricId) (change.old.map .decimal) (change.new.map .decimal)
    day clock.today

/-! ## Bad days -/

/-- The edit of `toggle_bad_day`: the first press creates the row, every other one flips it. -/
def badDayChange (daily : Option DailyState) (now : Moment) : RowChange DailyState Bool :=
  match daily with
  | none => ⟨some { badDay := true }, none, some true⟩
  | some daily =>
    ⟨some { badDay := !daily.badDay, editedAt := some now }, some daily.badDay,
      some (!daily.badDay)⟩

/-- The column that `toggle_bad_day` edits. -/
def badDayTarget (day : Date) : AuditTarget := ⟨"daily_state", isoformat day, "bad_day"⟩

/-- The loop over the active streaks. -/
def recomputeStreaks (clock : Clock) (grace : Bool) (ids : List ℕ) (db : Database) : Database :=
  ids.foldl (fun db streakId => recomputeStreakState db streakId clock grace) db

/-- `toggle_bad_day`: flip the bad-day flag and recount every active streak. -/
def toggleBadDay (clock : Clock) (date : String) (db : Database) : Except Failure Database := do
  let day ← parseDate date
  let change := badDayChange (db.dailyState.lookup day) clock.now
  let db := { db with dailyState := db.dailyState.put day change.row }
  let db ← maybeAudit db (badDayTarget day) (change.old.map .bool) (change.new.map .bool) day
    clock.today
  return recomputeStreaks clock (graceEnabled db) db.activeStreakIds db

/-! ## Every edit hands the audit the stored values -/

/-- The value before is that of the row before, and the value after is stored as that of the
row after. -/
structure RowChange.Faithful {ρ α : Type} (change : RowChange ρ α) (before : Option ρ)
    (value : ρ → α) (stored : α → α) : Prop where
  old : change.old = before.map value
  new : change.new.map stored = change.row.map value

theorem habitChange_faithful (entry : Option HabitLog) (passed : Bool) (now : Moment) :
    (habitChange entry passed now).Faithful entry HabitLog.passed id := by
  cases entry with
  | none => exact ⟨rfl, rfl⟩
  | some entry =>
    rw [habitChange]
    split_ifs <;> exact ⟨rfl, rfl⟩

theorem trackerChange_faithful (event : Option TrackerEvent) :
    (trackerChange event).Faithful event TrackerEvent.activityDone id := by
  cases event <;> exact ⟨rfl, rfl⟩

theorem badDayChange_faithful (daily : Option DailyState) (now : Moment) :
    (badDayChange daily now).Faithful daily DailyState.badDay id := by
  cases daily <;> exact ⟨rfl, rfl⟩

theorem metricChange_faithful {metricType : MetricType} {entry : Option MetricLog}
    {value : Option Decimal} {now : Moment} {change : RowChange MetricLog Decimal}
    (h : metricChange metricType entry value now = .ok change) :
    change.Faithful entry MetricLog.value Decimal.stored := by
  cases entry with
  | none => cases value <;> cases h <;> exact ⟨rfl, rfl⟩
  | some entry =>
    cases value with
    | none =>
      cases h
      exact ⟨rfl, rfl⟩
    | some value =>
      cases metricType with
      | numeric =>
        cases h
        exact ⟨rfl, rfl⟩
      | scale =>
        rw [metricChange] at h
        split at h <;> cases h <;> exact ⟨rfl, rfl⟩

/-- A change of a metric has the submitted value as its new one, where it keeps one. -/
theorem metricChange_values {metricType : MetricType} {entry : Option MetricLog}
    {value : Option Decimal} {now : Moment} {change : RowChange MetricLog Decimal}
    (h : metricChange metricType entry value now = .ok change) {new : Decimal}
    (hnew : change.new = some new) : value = some new := by
  cases entry with
  | none => cases value <;> cases h <;> exact hnew
  | some entry =>
    cases value with
    | none =>
      cases h
      exact absurd hnew (by simp)
    | some value =>
      cases metricType with
      | numeric =>
        cases h
        exact hnew
      | scale =>
        rw [metricChange] at h
        split at h <;> cases h
        · exact absurd hnew (by simp)
        · exact hnew

theorem eqTellsChange_map_bool (old new : Option Bool) :
    EqTellsChange (old.map .bool) (new.map .bool) := by
  cases old with
  | none => exact eqTellsChange_of_none_left _
  | some old =>
    cases new with
    | none => exact eqTellsChange_of_none_right _
    | some new => exact eqTellsChange_bool old new

/-! ## What a successful request leaves -/

/-- The database after `mark_habit` has edited the entry and written the audit. -/
def habitEdited (clock : Clock) (day : Date) (streakId : ℕ) (passed : Bool) (db : Database) :
    Database :=
  let change := habitChange (db.habitLog.lookup (day, streakId)) passed clock.now
  { db with
    habitLog := db.habitLog.put (day, streakId) change.row
    editLog := db.editLog ++ dueAuditRows (habitTarget day streakId) (change.old.map .bool)
      (change.new.map .bool) day clock.today }

theorem recordHabit_eq (clock : Clock) (day : Date) (streakId : ℕ) (passed : Bool)
    (db : Database) :
    recordHabit clock day streakId passed db =
      .ok (recomputeStreakState (habitEdited clock day streakId passed db) streakId clock
        (graceEnabled db)) := by
  rw [recordHabit, maybeAudit_eq_due (eqTellsChange_map_bool _ _)]
  rfl

theorem markHabit_eq_ok {clock : Clock} {date : String} {streakId : ℕ} {mark : String}
    {db db' : Database} :
    markHabit clock date streakId mark db = .ok db' ↔
      ∃ day passed, fromisoformat date = some day ∧ parseMark mark = .ok passed ∧
        (∃ streak, db.getStreak streakId = some streak) ∧
        db' = recomputeStreakState (habitEdited clock day streakId passed db) streakId clock
          (graceEnabled db) := by
  rw [markHabit]
  simp only [bind_eq_ok, parseDate_eq_ok, foundOr404_eq_ok, recordHabit_eq, Except.ok.injEq]
  constructor
  · rintro ⟨day, hday, passed, hmark, streak, hstreak, rfl⟩
    exact ⟨day, passed, hday, hmark, ⟨streak, hstreak⟩, rfl⟩
  · rintro ⟨day, passed, hday, hmark, ⟨streak, hstreak⟩, rfl⟩
    exact ⟨day, hday, passed, hmark, streak, hstreak, rfl⟩

/-- The database after a tracker mark has edited the event and written the audit. -/
def trackerEdited (clock : Clock) (day : Date) (trackerId : ℕ) (db : Database) : Database :=
  let change := trackerChange (db.trackerEvents.lookup (day, trackerId))
  { db with
    trackerEvents := db.trackerEvents.put (day, trackerId) change.row
    editLog := db.editLog ++ dueAuditRows (trackerTarget day trackerId) (change.old.map .bool)
      (change.new.map .bool) day clock.today }

theorem markTracker_eq_ok {clock : Clock} {date : String} {trackerId : ℕ} {db db' : Database} :
    markTracker clock date trackerId db = .ok db' ↔
      ∃ day, fromisoformat date = some day ∧
        (∃ tracker, db.getTracker trackerId = some tracker) ∧
        db' = recomputeTrackerState (trackerEdited clock day trackerId db) trackerId clock := by
  rw [markTracker]
  simp only [bind_eq_ok, parseDate_eq_ok, foundOr404_eq_ok,
    maybeAudit_eq_due (eqTellsChange_map_bool _ _), Except.ok.injEq, pure, Except.pure]
  constructor
  · rintro ⟨day, hday, tracker, htracker, _, rfl, rfl⟩
    exact ⟨day, hday, ⟨tracker, htracker⟩, rfl⟩
  · rintro ⟨day, hday, ⟨tracker, htracker⟩, rfl⟩
    exact ⟨day, hday, tracker, htracker, _, rfl, rfl⟩

/-- The database after `toggle_bad_day` has edited the day and written the audit. -/
def badDayEdited (clock : Clock) (day : Date) (db : Database) : Database :=
  let change := badDayChange (db.dailyState.lookup day) clock.now
  { db with
    dailyState := db.dailyState.put day change.row
    editLog := db.editLog ++ dueAuditRows (badDayTarget day) (change.old.map .bool)
      (change.new.map .bool) day clock.today }

/-- The loop changes nothing but the state rows. -/
theorem recomputeStreaks_frame (clock : Clock) (grace : Bool) (ids : List ℕ) (db : Database) :
    ∃ rows, recomputeStreaks clock grace ids db = { db with streakState := rows } := by
  induction ids generalizing db with
  | nil => exact ⟨db.streakState, rfl⟩
  | cons id ids ih =>
    obtain ⟨rows, hrows⟩ := ih (recomputeStreakState db id clock grace)
    exact ⟨rows, hrows⟩

/-- **What the loop writes.**  If a figure of a recomputed row does not depend on the rows that
are there, the loop leaves it in the row of every listed streak, and leaves the other rows. -/
theorem map_lookup_recomputeStreaks {γ : Type} {f : StreakState → γ} {v : γ} {clock : Clock}
    {grace : Bool} {k : ℕ} (ids : List ℕ) (db : Database)
    (hv : ∀ rows, f (recomputedStreakState { db with streakState := rows } k clock grace) = v) :
    ((recomputeStreaks clock grace ids db).streakState.lookup k).map f =
      if k ∈ ids then some v else (db.streakState.lookup k).map f := by
  induction ids generalizing db with
  | nil => rfl
  | cons id ids ih =>
    have hstep : recomputeStreaks clock grace (id :: ids) db =
        recomputeStreaks clock grace ids (recomputeStreakState db id clock grace) := rfl
    rw [hstep, ih (recomputeStreakState db id clock grace) hv]
    by_cases hk : k ∈ ids
    · rw [if_pos hk, if_pos (List.mem_cons_of_mem _ hk)]
    · rw [if_neg hk, recomputeStreakState]
      by_cases hid : k = id
      · subst hid
        rw [if_pos List.mem_cons_self, AList.lookup_insert, Option.map_some]
        exact congrArg some (hv db.streakState)
      · rw [if_neg fun h => (List.mem_cons.mp h).elim hid hk, AList.lookup_insert_ne hid]

theorem toggleBadDay_eq_ok {clock : Clock} {date : String} {db db' : Database} :
    toggleBadDay clock date db = .ok db' ↔
      ∃ day, fromisoformat date = some day ∧
        db' = recomputeStreaks clock (graceEnabled db) db.activeStreakIds
          (badDayEdited clock day db) := by
  rw [toggleBadDay]
  simp only [bind_eq_ok, parseDate_eq_ok, maybeAudit_eq_due (eqTellsChange_map_bool _ _),
    Except.ok.injEq, pure, Except.pure]
  constructor
  · rintro ⟨day, hday, _, rfl, rfl⟩
    exact ⟨day, hday, rfl⟩
  · rintro ⟨day, hday, rfl⟩
    exact ⟨day, hday, _, rfl, rfl⟩

theorem saveMetric_eq_ok {py : TextParsers} {clock : Clock} {date : String} {metricId : ℕ}
    {text : String} {db db' : Database} :
    saveMetric py clock date metricId text db = .ok db' ↔
      ∃ day metric value change, fromisoformat date = some day ∧
        db.getMetric metricId = some metric ∧ parseMetricValue py metric text = .ok value ∧
        metricChange metric.metricType (db.metricLog.lookup (day, metricId)) value clock.now =
          .ok change ∧
        maybeAudit { db with metricLog := db.metricLog.put (day, metricId) change.row }
          (metricTarget day metricId) (change.old.map .decimal) (change.new.map .decimal) day
          clock.today = .ok db' := by
  rw [saveMetric]
  simp only [bind_eq_ok, parseDate_eq_ok, foundOr404_eq_ok]
  constructor
  · rintro ⟨day, hday, metric, hmetric, value, hvalue, change, hchange, haudit⟩
    exact ⟨day, metric, value, change, hday, hmetric, hvalue, hchange, haudit⟩
  · rintro ⟨day, metric, value, change, hday, hmetric, hvalue, hchange, haudit⟩
    exact ⟨day, hday, metric, hmetric, value, hvalue, change, hchange, haudit⟩

end EpsCloud

import EpsCloud.Library.Runs
import EpsCloud.Routes.Trackers

/-!
# Which edits leave an audit row

The four journal edits hand `maybe_audit` the stored value before and the written
value after, so what they leave is decided by whether `==` tells a change.  It
does, except on two NaNs.  `toggle_tracker` edits the same rows and does not call
`maybe_audit`, which goes unnoticed as long as it only creates today's event.

* `auditedOnce_of_change`: a faithful change with the due rows is audited once.
* `audited_iff_accountable`: a request is audited as it should be exactly when it
  does not take today's tracker event back on the dashboard, and does not save a
  NaN over a NaN.
* `audited_run_iff`: the same for the requests of any run.
-/

namespace EpsCloud

/-- A request that edits an event table. -/
inductive EditRequest where
  | markHabit (date : String) (streakId : ℕ) (mark : String)
  | markTracker (date : String) (trackerId : ℕ)
  | saveMetric (date : String) (metricId : ℕ) (value : String)
  | toggleBadDay (date : String)
  | toggleTracker (trackerId : ℕ)

/-- The handler of a request. -/
def handleEdit (py : TextParsers) (clock : Clock) (db : Database) :
    EditRequest → Except Failure Database
  | .markHabit date streakId mark => markHabit clock date streakId mark db
  | .markTracker date trackerId => markTracker clock date trackerId db
  | .saveMetric date metricId value => saveMetric py clock date metricId value db
  | .toggleBadDay date => toggleBadDay clock date db
  | .toggleTracker trackerId => toggleTracker clock trackerId db

/-- The place an edit is about: the column, the day of its row, and the value stored there. -/
structure EditPlace where
  target : AuditTarget
  day : Date
  value : Database → Option AuditValue

/-- The place of an entry of a streak. -/
def habitPlace (day : Date) (streakId : ℕ) : EditPlace :=
  ⟨habitTarget day streakId, day, fun db =>
    ((db.habitLog.lookup (day, streakId)).map HabitLog.passed).map .bool⟩

/-- The place of an event of a tracker. -/
def trackerPlace (day : Date) (trackerId : ℕ) : EditPlace :=
  ⟨trackerTarget day trackerId, day, fun db =>
    ((db.trackerEvents.lookup (day, trackerId)).map TrackerEvent.activityDone).map .bool⟩

/-- The place of an entry of a metric. -/
def metricPlace (day : Date) (metricId : ℕ) : EditPlace :=
  ⟨metricTarget day metricId, day, fun db =>
    ((db.metricLog.lookup (day, metricId)).map MetricLog.value).map .decimal⟩

/-- The place of a bad-day flag. -/
def badDayPlace (day : Date) : EditPlace :=
  ⟨badDayTarget day, day, fun db =>
    ((db.dailyState.lookup day).map DailyState.badDay).map .bool⟩

/-- The place that a request is about. -/
def EditRequest.place? (clock : Clock) : EditRequest → Option EditPlace
  | .markHabit date streakId _ => (fromisoformat date).map (habitPlace · streakId)
  | .markTracker date trackerId => (fromisoformat date).map (trackerPlace · trackerId)
  | .saveMetric date metricId _ => (fromisoformat date).map (metricPlace · metricId)
  | .toggleBadDay date => (fromisoformat date).map badDayPlace
  | .toggleTracker trackerId => some (trackerPlace clock.today trackerId)

/-- An edit from `db` to `db'` appends exactly one audit row, with the value before and the
value written, if the stored value changed and the change is not the creation of a row dated
today, and none otherwise. -/
def EditPlace.AuditedOnce (place : EditPlace) (today : Date) (db db' : Database) : Prop :=
  ∃ written, written.map AuditValue.stored = place.value db' ∧
    db'.editLog = db.editLog ++
      if Changed (place.value db) (place.value db') ∧ ¬ (place.value db = none ∧ place.day = today)
      then [auditRow place.target (place.value db) written] else []

/-- The two routes that mark a tracker today leave the same tables. -/
def TogglesAgree (clock : Clock) (trackerId : ℕ) (db db' : Database) : Prop :=
  ∀ date, fromisoformat date = some clock.today → ∀ db'',
    markTracker clock date trackerId db = .ok db'' →
    db''.trackerEvents = db'.trackerEvents ∧ db''.trackerState = db'.trackerState ∧
      db''.editLog = db'.editLog

/-- A request that succeeds is audited once, and a dashboard toggle leaves what the journal's
mark leaves. -/
def EditRequest.Audited (py : TextParsers) (clock : Clock) (db : Database) (req : EditRequest) :
    Prop :=
  ∀ db', handleEdit py clock db req = .ok db' →
    (∃ place ∈ req.place? clock, place.AuditedOnce clock.today db db') ∧
    ∀ trackerId, req = .toggleTracker trackerId → TogglesAgree clock trackerId db db'

/-- A NaN is saved over a stored NaN. -/
def SavesNanOverNan (py : TextParsers) (db : Database) (date : String) (metricId : ℕ)
    (value : String) : Prop :=
  ∃ day metric entry, fromisoformat date = some day ∧ db.getMetric metricId = some metric ∧
    parseMetricValue py metric value = .ok (some .nan) ∧
    db.metricLog.lookup (day, metricId) = some entry ∧ entry.value = .nan

/-- The tracker exists and today's event of it is there. -/
def TakesBackToday (clock : Clock) (db : Database) (trackerId : ℕ) : Prop :=
  (∃ tracker, db.getTracker trackerId = some tracker) ∧
    (db.trackerEvents.lookup (clock.today, trackerId)).isSome

/-- The request neither takes today's tracker event back on the dashboard nor saves a NaN over
a NaN. -/
def EditRequest.Accountable (py : TextParsers) (clock : Clock) (db : Database) :
    EditRequest → Prop
  | .toggleTracker trackerId => ¬ TakesBackToday clock db trackerId
  | .saveMetric date metricId value => ¬ SavesNanOverNan py db date metricId value
  | _ => True

/-! ## Written and stored values -/

theorem same_stored_right (a b : AuditValue) : a.Same b.stored ↔ a.Same b := by
  cases b with
  | bool b => exact Iff.rfl
  | decimal b =>
    cases a with
    | bool a => exact Iff.rfl
    | decimal a =>
      cases b with
      | finite n c e => exact Iff.rfl
      | infinity n => exact Iff.rfl
      | nan => exact Iff.rfl
      | snan => cases a <;> simp [AuditValue.Same, AuditValue.stored, Decimal.SameNumber,
          Decimal.stored, Decimal.isNan]

theorem changed_map_stored (before written : Option AuditValue) :
    Changed before (written.map AuditValue.stored) ↔ Changed before written := by
  cases written with
  | none => exact Iff.rfl
  | some b =>
    cases before with
    | none => exact Iff.rfl
    | some a => exact not_congr (same_stored_right a b)

/-- **A faithful change with the due rows is audited once.** -/
theorem auditedOnce_of_change {ρ α : Type} {change : RowChange ρ α} {before : Option ρ}
    {value : ρ → α} {stored : α → α} (hf : change.Faithful before value stored)
    {wrap : α → AuditValue} (hwrap : ∀ a, (wrap a).stored = wrap (stored a)) {place : EditPlace}
    {today : Date} {db db' : Database} (hbefore : place.value db = (before.map value).map wrap)
    (hafter : place.value db' = (change.row.map value).map wrap)
    (hlog : db'.editLog = db.editLog ++ dueAuditRows place.target (change.old.map wrap)
      (change.new.map wrap) place.day today) :
    place.AuditedOnce today db db' := by
  have hwritten : (change.new.map wrap).map AuditValue.stored = place.value db' := by
    rw [hafter, ← hf.new, Option.map_map, Option.map_map]
    congr 1
    exact funext hwrap
  refine ⟨change.new.map wrap, hwritten, ?_⟩
  rw [hlog, dueAuditRows, hf.old, ← hbefore, ← hwritten]
  simp only [changed_map_stored]

/-! ## The journal's edits of booleans -/

theorem markHabit_auditedOnce {clock : Clock} {date : String} {streakId : ℕ} {mark : String}
    {db db' : Database} (h : markHabit clock date streakId mark db = .ok db') :
    ∃ day, fromisoformat date = some day ∧
      (habitPlace day streakId).AuditedOnce clock.today db db' := by
  obtain ⟨day, passed, hday, -, -, rfl⟩ := markHabit_eq_ok.mp h
  refine ⟨day, hday, auditedOnce_of_change (habitChange_faithful _ passed clock.now)
    (fun _ => rfl) rfl ?_ rfl⟩
  show Option.map _ (Option.map _ ((db.habitLog.put _ _).lookup _)) = _
  rw [Table.lookup_put_self]

theorem markTracker_auditedOnce {clock : Clock} {date : String} {trackerId : ℕ}
    {db db' : Database} (h : markTracker clock date trackerId db = .ok db') :
    ∃ day, fromisoformat date = some day ∧
      (trackerPlace day trackerId).AuditedOnce clock.today db db' := by
  obtain ⟨day, hday, -, rfl⟩ := markTracker_eq_ok.mp h
  refine ⟨day, hday, auditedOnce_of_change (trackerChange_faithful _) (fun _ => rfl) rfl ?_ rfl⟩
  show Option.map _ (Option.map _ ((db.trackerEvents.put _ _).lookup _)) = _
  rw [Table.lookup_put_self]

theorem toggleBadDay_auditedOnce {clock : Clock} {date : String} {db db' : Database}
    (h : toggleBadDay clock date db = .ok db') :
    ∃ day, fromisoformat date = some day ∧ (badDayPlace day).AuditedOnce clock.today db db' := by
  obtain ⟨day, hday, rfl⟩ := toggleBadDay_eq_ok.mp h
  obtain ⟨rows, hrows⟩ := recomputeStreaks_frame clock (graceEnabled db) db.activeStreakIds
    (badDayEdited clock day db)
  rw [hrows]
  refine ⟨day, hday, auditedOnce_of_change (badDayChange_faithful _ clock.now) (fun _ => rfl)
    rfl ?_ rfl⟩
  show Option.map _ (Option.map _ ((db.dailyState.put _ _).lookup _)) = _
  rw [Table.lookup_put_self]

/-! ## Saving a metric -/

/-- Two decimals can be compared and `==` tells whether the stored value changes, unless the
comparison raises or both are quiet NaNs. -/
theorem eqTellsChange_decimal_or (a b : Decimal) :
    Decimal.pyEq a b = none ∨ (a = .nan ∧ b = .nan) ∨
      EqTellsChange (some (.decimal a)) (some (.decimal b)) := by
  by_cases hs : a.isSignalling ∨ b.isSignalling
  · exact Or.inl (if_pos hs)
  · by_cases hn : a.isNan ∨ b.isNan
    · have heq : Decimal.pyEq a b = some false := by rw [Decimal.pyEq, if_neg hs, if_pos hn]
      by_cases hboth : a.isNan = b.isNan
      · -- both are NaNs, and neither of them signals
        refine Or.inr (Or.inl ?_)
        cases a <;> cases b <;> simp_all [Decimal.isNan, Decimal.isSignalling]
      · refine Or.inr (Or.inr ?_)
        show Decimal.pyEq a b = some (decide (¬ ¬ Decimal.SameNumber a b))
        have hne : ¬ Decimal.SameNumber a b := fun h => hboth h.1
        rw [heq]
        simp [hne]
    · rw [not_or, Bool.not_eq_true, Bool.not_eq_true] at hn
      exact Or.inr (Or.inr (eqTellsChange_decimal hn.1 hn.2))

theorem saveMetric_auditedOnce {py : TextParsers} {clock : Clock} {date : String} {metricId : ℕ}
    {value : String} {db db' : Database} (h : saveMetric py clock date metricId value db = .ok db')
    (hnan : ¬ SavesNanOverNan py db date metricId value) :
    ∃ day, fromisoformat date = some day ∧
      (metricPlace day metricId).AuditedOnce clock.today db db' := by
  obtain ⟨day, metric, value', change, hday, hmetric, hvalue, hchange, haudit⟩ :=
    saveMetric_eq_ok.mp h
  have hf := metricChange_faithful hchange
  have htells : EqTellsChange (change.old.map .decimal) (change.new.map .decimal) := by
    cases hold : change.old with
    | none => exact eqTellsChange_of_none_left _
    | some old =>
      cases hnew : change.new with
      | none => exact eqTellsChange_of_none_right _
      | some new =>
        rcases eqTellsChange_decimal_or old new with hraise | ⟨rfl, rfl⟩ | htells
        · rw [hold, hnew, maybeAudit, auditRows] at haudit
          simp [optionEq, AuditValue.pyEq, AuditValue.toDecimal, hraise, Except.map] at haudit
        · obtain ⟨entry, hentry, hstored⟩ := Option.map_eq_some_iff.mp (hf.old.symm.trans hold)
          rw [metricChange_values hchange hnew] at hvalue
          exact absurd ⟨day, metric, entry, hday, hmetric, hvalue, hentry, hstored⟩ hnan
        · exact htells
  rw [maybeAudit_eq_due htells, Except.ok.injEq] at haudit
  subst haudit
  refine ⟨day, hday, auditedOnce_of_change hf (fun _ => rfl) rfl ?_ rfl⟩
  show Option.map _ (Option.map _ ((db.metricLog.put _ _).lookup _)) = _
  rw [Table.lookup_put_self]

/-- A scale admits no NaN. -/
theorem metricType_of_parse_nan {py : TextParsers} {metric : Metric} {value : String}
    (h : parseMetricValue py metric value = .ok (some .nan)) : metric.metricType = .numeric := by
  rw [parseMetricValue] at h
  split_ifs at h
  · exact absurd h (by simp)
  split at h
  · exact absurd h (by simp)
  · rename_i parsed _
    cases htype : metric.metricType with
    | numeric => rfl
    | scale =>
      exfalso
      rw [htype] at h
      cases hcheck : checkScale metric parsed with
      | error e =>
        rw [hcheck] at h
        exact absurd h (by simp [Except.map])
      | ok u =>
        rw [hcheck, Except.map, Except.ok.injEq, Option.some.injEq] at h
        subst h
        rw [checkScale] at hcheck
        split at hcheck
        · exact absurd hcheck (by simp [Decimal.pyLe, Decimal.isNan])
        · exact absurd hcheck (by simp)

/-- What saving a NaN over a NaN leaves. -/
def nanSaved (clock : Clock) (day : Date) (metricId : ℕ) (db : Database) : Database :=
  { db with
    metricLog := db.metricLog.put (day, metricId)
      (some { value := .nan, editedAt := some clock.now })
    editLog := db.editLog ++ [auditRow (metricTarget day metricId) (some (.decimal .nan))
      (some (.decimal .nan))] }

/-- A NaN saved over a NaN changes nothing and leaves an audit row. -/
theorem not_audited_of_savesNanOverNan {py : TextParsers} {clock : Clock} {date : String}
    {metricId : ℕ} {value : String} {db : Database}
    (h : SavesNanOverNan py db date metricId value) :
    ¬ (EditRequest.saveMetric date metricId value).Audited py clock db := by
  obtain ⟨day, metric, entry, hday, hmetric, hvalue, hentry, hnan⟩ := h
  have hchange : metricChange metric.metricType (db.metricLog.lookup (day, metricId)) (some .nan)
      clock.now =
      .ok ⟨some { value := .nan, editedAt := some clock.now }, some .nan, some .nan⟩ := by
    rw [metricType_of_parse_nan hvalue, hentry, metricChange, hnan]
    rfl
  have hok : saveMetric py clock date metricId value db = .ok (nanSaved clock day metricId db) :=
    saveMetric_eq_ok.mpr ⟨day, metric, some .nan, _, hday, hmetric, hvalue, hchange, rfl⟩
  have hbefore : (metricPlace day metricId).value db = some (.decimal .nan) := by
    show Option.map _ (Option.map _ (db.metricLog.lookup (day, metricId))) = _
    rw [hentry, Option.map_some, hnan]
    rfl
  have hafter : (metricPlace day metricId).value (nanSaved clock day metricId db) =
      some (.decimal .nan) := by
    show Option.map _ (Option.map _ ((db.metricLog.put _ _).lookup _)) = _
    rw [Table.lookup_put_self]
    rfl
  intro haudited
  obtain ⟨⟨place, hplace, written, -, hlog⟩, -⟩ := haudited _ hok
  rw [EditRequest.place?, hday, Option.map_some, Option.mem_some_iff] at hplace
  subst hplace
  have hsame : (AuditValue.decimal .nan).Same (.decimal .nan) := Decimal.sameNumber_self .nan
  rw [hbefore, hafter, if_neg fun h => h.1 hsame, List.append_nil] at hlog
  exact absurd hlog (by simp [nanSaved])

theorem saveMetric_audited_iff (py : TextParsers) (clock : Clock) (db : Database) (date : String)
    (metricId : ℕ) (value : String) :
    (EditRequest.saveMetric date metricId value).Audited py clock db ↔
      ¬ SavesNanOverNan py db date metricId value := by
  constructor
  · intro haudited hnan
    exact not_audited_of_savesNanOverNan hnan haudited
  · intro hnan db' h
    obtain ⟨day, hday, haudited⟩ := saveMetric_auditedOnce h hnan
    exact ⟨⟨_, Option.map_eq_some_iff.mpr ⟨day, hday, rfl⟩, haudited⟩, fun _ h => nomatch h⟩

/-! ## The dashboard's toggle -/

/-- Marking a tracker today where no event stands leaves the same tables on both routes. -/
theorem togglesAgree_of_no_event {clock : Clock} {trackerId : ℕ} {db : Database}
    (hnone : db.trackerEvents.lookup (clock.today, trackerId) = none) :
    TogglesAgree clock trackerId db
      (recomputeTrackerState (trackerToggled clock trackerId db) trackerId clock) := by
  intro date hdate db'' hmark
  obtain ⟨day, hday, -, rfl⟩ := markTracker_eq_ok.mp hmark
  obtain rfl : day = clock.today := Option.some.inj (hday.symm.trans hdate)
  have hevents : (trackerEdited clock clock.today trackerId db).trackerEvents =
      (trackerToggled clock trackerId db).trackerEvents := by
    rw [trackerToggled, toggledEvent_eq]
    rfl
  refine ⟨hevents, ?_, ?_⟩
  · have hdone : ∀ d, DoneOn (trackerEdited clock clock.today trackerId db) trackerId d ↔
        DoneOn (trackerToggled clock trackerId db) trackerId d := fun d => by
      rw [DoneOn, DoneOn, hevents]
    show AList.insert _ _ _ = AList.insert _ _ _
    rw [recomputedTrackerState_congr hdone]
    rfl
  · show db.editLog ++ dueAuditRows _ _ _ _ _ = db.editLog
    rw [hnone, dueAuditRows, if_neg fun h => h.2 ⟨rfl, rfl⟩, List.append_nil]

theorem toggleTracker_audited_iff (py : TextParsers) (clock : Clock) (db : Database)
    (trackerId : ℕ) :
    (EditRequest.toggleTracker trackerId).Audited py clock db ↔
      ¬ TakesBackToday clock db trackerId := by
  constructor
  · rintro haudited ⟨htracker, hsome⟩
    obtain ⟨event, hevent⟩ := Option.isSome_iff_exists.mp hsome
    obtain ⟨⟨place, hplace, written, -, hlog⟩, -⟩ :=
      haudited _ (toggleTracker_eq_ok.mpr ⟨htracker, rfl⟩)
    obtain rfl := Option.some.inj hplace
    have hbefore : (trackerPlace clock.today trackerId).value db =
        some (.bool event.activityDone) := by
      show Option.map _ (Option.map _ (db.trackerEvents.lookup (clock.today, trackerId))) = _
      rw [hevent]
      rfl
    have hafter : (trackerPlace clock.today trackerId).value (recomputeTrackerState
        (trackerToggled clock trackerId db) trackerId clock) = none := by
      show Option.map _ (Option.map _ ((db.trackerEvents.put _ _).lookup _)) = _
      rw [Table.lookup_put_self, hevent]
      rfl
    -- the event is gone, and nothing was written to the audit log
    rw [hbefore, hafter, if_pos ⟨trivial, by simp⟩] at hlog
    exact absurd hlog (by simp [recomputeTrackerState, trackerToggled])
  · intro hkeep db' h
    obtain ⟨htracker, rfl⟩ := toggleTracker_eq_ok.mp h
    have hnone : db.trackerEvents.lookup (clock.today, trackerId) = none :=
      Option.not_isSome_iff_eq_none.mp fun hsome => hkeep ⟨htracker, hsome⟩
    have hbefore : (trackerPlace clock.today trackerId).value db = none := by
      show Option.map _ (Option.map _ (db.trackerEvents.lookup (clock.today, trackerId))) = _
      rw [hnone]
      rfl
    have hafter : (trackerPlace clock.today trackerId).value (recomputeTrackerState
        (trackerToggled clock trackerId db) trackerId clock) = some (.bool true) := by
      show Option.map _ (Option.map _ ((db.trackerEvents.put _ _).lookup _)) = _
      rw [Table.lookup_put_self, hnone]
      rfl
    refine ⟨⟨_, rfl, some (.bool true), hafter.symm, ?_⟩, ?_⟩
    · rw [if_neg fun h => h.2 ⟨hbefore, rfl⟩]
      exact (List.append_nil _).symm
    · intro k hk
      cases hk
      exact togglesAgree_of_no_event hnone

/-! ## Requests and runs -/

/-- **One request.** -/
theorem audited_iff_accountable (py : TextParsers) (clock : Clock) (db : Database)
    (req : EditRequest) : req.Audited py clock db ↔ req.Accountable py clock db := by
  cases req with
  | markHabit date streakId mark =>
    refine ⟨fun _ => trivial, fun _ db' h => ?_⟩
    obtain ⟨day, hday, haudited⟩ := markHabit_auditedOnce h
    exact ⟨⟨_, Option.map_eq_some_iff.mpr ⟨day, hday, rfl⟩, haudited⟩, fun _ h => nomatch h⟩
  | markTracker date trackerId =>
    refine ⟨fun _ => trivial, fun _ db' h => ?_⟩
    obtain ⟨day, hday, haudited⟩ := markTracker_auditedOnce h
    exact ⟨⟨_, Option.map_eq_some_iff.mpr ⟨day, hday, rfl⟩, haudited⟩, fun _ h => nomatch h⟩
  | saveMetric date metricId value => exact saveMetric_audited_iff py clock db date metricId value
  | toggleBadDay date =>
    refine ⟨fun _ => trivial, fun _ db' h => ?_⟩
    obtain ⟨day, hday, haudited⟩ := toggleBadDay_auditedOnce h
    exact ⟨⟨_, Option.map_eq_some_iff.mpr ⟨day, hday, rfl⟩, haudited⟩, fun _ h => nomatch h⟩
  | toggleTracker trackerId => exact toggleTracker_audited_iff py clock db trackerId

/-- A request of a run, with the clock that it reads. -/
def stepEdit (py : TextParsers) (db : Database) (req : Clock × EditRequest) : Database :=
  afterRequest db (handleEdit py req.1 db req.2)

/-- **Every edit of a run is audited exactly once** when no request of the run takes today's
tracker event back on the dashboard or saves a NaN over a NaN, and only then. -/
theorem audited_run_iff (py : TextParsers) (db : Database) (reqs : List (Clock × EditRequest)) :
    (∀ x ∈ Runs.trace (stepEdit py) db reqs, x.2.2.Audited py x.2.1 x.1) ↔
      ∀ x ∈ Runs.trace (stepEdit py) db reqs, x.2.2.Accountable py x.2.1 x.1 :=
  forall₂_congr fun x _ => audited_iff_accountable py x.2.1 x.1 x.2.2

/-- A tracker that was done on 2026-01-05. -/
def doneTracker : Database :=
  { trackers := [{ id := 1, name := "plants", thresholdDays := 3,
                   visibleOnDays := [0, 1, 2, 3, 4, 5, 6] }]
    trackerEvents :=
      (∅ : Table (Date × ℕ) TrackerEvent).insert (739621, 1) { activityDone := true } }

/-- Taking the doing back from the dashboard on the same day leaves no trace of it. -/
theorem dashboard_toggle_unaudited :
    ¬ ∀ x ∈ Runs.trace (stepEdit asciiParsers) doneTracker [(⟨739621, 0⟩, .toggleTracker 1)],
      x.2.2.Audited asciiParsers x.2.1 x.1 := by
  intro h
  obtain ⟨⟨place, hplace, written, -, hlog⟩, -⟩ := (List.forall_mem_cons.mp h).1 _ rfl
  obtain rfl := Option.some.inj hplace
  -- no row was appended, and the deleted event was due one
  have hlength : 0 = 1 := congrArg List.length hlog
  exact Nat.zero_ne_one hlength

end EpsCloud

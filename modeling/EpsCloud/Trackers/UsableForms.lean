import EpsCloud.Library.Runs
import EpsCloud.Routes.Ordering

/-!
# Which tracker forms store a usable tracker

`add_tracker` and `edit_tracker` read the threshold with `int` behind
`str.isdigit`, and every weekday with a bare `int`.  A digit that `int` refuses, or
a number that the column refuses, is an exception and not a 400, and a weekday may
be any number and may be given twice.

* `usableForm_iff`: what the two handlers make of the two fields.
* `tracker_forms_iff`: a form is answered with a 400 or stores a usable tracker
  exactly when it is refused for its threshold or its fields are usable; and along
  every run of such requests each tracker can stand on the day list of some day of
  every week.
-/

namespace EpsCloud

open KeySort Runs

/-! ## A usable tracker -/

/-- A cadence of at least one day that fits the column, and weekdays in ascending order, without
repetition, at least one of them. -/
structure UsableSchedule (thresholdDays : ℤ) (visibleOnDays : List ℤ) : Prop where
  threshold : 1 ≤ thresholdDays ∧ FitsInteger thresholdDays
  nonempty : visibleOnDays ≠ []
  ascending : visibleOnDays.Pairwise (· < ·)
  weekdays : ∀ d ∈ visibleOnDays, 0 ≤ d ∧ d ≤ 6

/-- The tracker has a usable schedule. -/
def Tracker.Usable (tracker : Tracker) : Prop :=
  UsableSchedule tracker.thresholdDays tracker.visibleOnDays

/-- In every week there is a day whose list has the tracker's row, if the tracker has something to
say on that day. -/
def Tracker.CanAppear (db : Database) (tracker : Tracker) : Prop :=
  ∃ state, db.trackerState.lookup tracker.id = some state ∧
    ∀ start : Date, ∃ day, start ≤ day ∧ day < start + 7 ∧
      ∀ (now : Moment) (status : TrackerStatus),
        trackerStatus tracker state (DoneOn db tracker.id day) = some status →
          .tracker tracker state status ∈ dayList db day now

/-! ## Usable fields of a form -/

/-- The texts are read as weekdays, none of them twice. -/
def ReadAsWeekdays (py : TextParsers) (texts : List String) : Prop :=
  ∃ days : List ℤ, List.Forall₂ (fun text d => py.int text = some d) texts days ∧ days.Nodup ∧
    ∀ d ∈ days, 0 ≤ d ∧ d ≤ 6

/-- The threshold is refused with a 400 before the weekdays are read: it is not made of digits, or
it is read as a number below one. -/
def RefusesThreshold (py : TextParsers) (thresholdDays : String) : Prop :=
  py.isdigit thresholdDays = false ∨ ∃ n, py.int thresholdDays = some n ∧ n < 1

/-- The threshold is refused, or it is read as a number that the column takes and the weekdays are
read as weekdays. -/
def UsableForm (py : TextParsers) (thresholdDays : String) (visibleOnDays : List String) : Prop :=
  RefusesThreshold py thresholdDays ∨
    (∃ n, py.int thresholdDays = some n ∧ n < 2 ^ 31) ∧ ReadAsWeekdays py visibleOnDays

/-! ## What the fields are read as -/

variable {py : TextParsers}

theorem parseThreshold_eq_ok {text : String} {n : ℤ} :
    parseThreshold py text = .ok n ↔ py.isdigit text = true ∧ py.int text = some n ∧ 1 ≤ n := by
  rw [parseThreshold]
  by_cases hdigit : py.isdigit text
  · rw [if_pos hdigit]
    cases hint : py.int text with
    | none => simp
    | some m =>
      by_cases hlt : m < 1
      · simp only [if_pos hlt, hdigit, Option.some.injEq, true_and, reduceCtorEq, false_iff]
        rintro ⟨rfl, hle⟩
        exact hle.not_gt hlt
      · simp only [if_neg hlt, hdigit, Except.ok.injEq, Option.some.injEq, true_and]
        exact ⟨fun h => ⟨h, h ▸ not_lt.mp hlt⟩, fun h => h.1⟩
  · simp [hdigit]

theorem parseThreshold_eq_abort {text : String} {status : ℕ} :
    parseThreshold py text = .error (.abort status) ↔
      status = 400 ∧ RefusesThreshold py text := by
  rw [parseThreshold, RefusesThreshold]
  by_cases hdigit : py.isdigit text
  · rw [if_pos hdigit]
    cases hint : py.int text with
    | none => simp [hdigit]
    | some m =>
      by_cases hlt : m < 1
      · simp [hdigit, hlt, eq_comm]
      · simp [hdigit, hlt]
  · simp [hdigit, eq_comm]

theorem parseInts_eq_ok {texts : List String} {ns : List ℤ} :
    parseInts py texts = .ok ns ↔ List.Forall₂ (fun text n => py.int text = some n) texts ns := by
  induction texts generalizing ns with
  | nil =>
    rw [parseInts, List.forall₂_nil_left_iff, Except.ok.injEq]
    exact eq_comm
  | cons text texts ih =>
    rw [parseInts]
    cases hint : py.int text with
    | none => cases ns <;> simp [hint]
    | some n =>
      cases hrest : parseInts py texts with
      | error e => cases ns <;> simp [hint, Except.map, ← ih, hrest]
      | ok rest => cases ns <;> simp [hint, Except.map, ← ih, hrest]

theorem parseInts_ne_abort (texts : List String) (status : ℕ) :
    parseInts py texts ≠ .error (.abort status) := by
  induction texts with
  | nil => simp [parseInts]
  | cons text texts ih =>
    rw [parseInts]
    cases py.int text with
    | none => simp
    | some n =>
      cases hrest : parseInts py texts with
      | error e =>
        rw [hrest] at ih
        exact ih
      | ok rest => simp [Except.map]

/-- The weekdays that are stored are usable exactly when the given ones are weekdays, none of them
twice. -/
theorem usableSchedule_visibleDays {n : ℤ} {days : List ℤ} :
    UsableSchedule n (visibleDays days) ↔
      (1 ≤ n ∧ FitsInteger n) ∧ days.Nodup ∧ ∀ d ∈ days, 0 ≤ d ∧ d ≤ 6 := by
  by_cases hnil : days = []
  · subst hnil
    refine ⟨fun h => ⟨h.threshold, List.nodup_nil, by simp⟩, fun h => ⟨h.1, ?_, ?_, ?_⟩⟩
    · decide
    · decide
    · decide
  · have hsort : visibleDays days = sortByKey id days := if_neg hnil
    rw [hsort]
    constructor
    · intro h
      refine ⟨h.threshold, ?_, fun d hd => h.weekdays d (mem_sortByKey.mpr hd)⟩
      exact (sortByKey_perm id days).nodup_iff.mp (h.ascending.imp ne_of_lt)
    · rintro ⟨hthreshold, hnodup, hdays⟩
      refine ⟨hthreshold, ?_, ?_, fun d hd => hdays d (mem_sortByKey.mp hd)⟩
      · intro h
        have hlen := congrArg List.length h
        rw [length_sortByKey, List.length_nil, List.length_eq_zero_iff] at hlen
        exact hnil hlen
      · exact ((pairwise_sortByKey id days).and (nodup_sortByKey hnodup)).imp
          fun h => lt_of_le_of_ne h.1 h.2

/-- The columns take a usable schedule. -/
theorem UsableSchedule.fits {tracker : Tracker} (h : tracker.Usable) : tracker.Fits := by
  refine ⟨h.threshold.2, fun d hd => ?_⟩
  have hweekday := h.weekdays d hd
  exact ⟨by linarith, by linarith⟩

/-- **What the handlers make of the two fields.** -/
theorem usableForm_iff {thresholdDays : String} {visibleOnDays : List String} :
    UsableForm py thresholdDays visibleOnDays ↔
      parseThreshold py thresholdDays = .error (.abort 400) ∨
      ∃ n days, parseThreshold py thresholdDays = .ok n ∧
        parseInts py visibleOnDays = .ok days ∧ UsableSchedule n (visibleDays days) := by
  rw [UsableForm, parseThreshold_eq_abort, and_iff_right rfl]
  by_cases hrefused : RefusesThreshold py thresholdDays
  · simp only [hrefused, true_or]
  · simp only [hrefused, false_or, parseThreshold_eq_ok, parseInts_eq_ok,
      usableSchedule_visibleDays]
    rw [RefusesThreshold, not_or, Bool.not_eq_false] at hrefused
    constructor
    · rintro ⟨⟨n, hint, hlt⟩, days, hdays, hnodup, hweekdays⟩
      have hle : 1 ≤ n := not_lt.mp fun h => hrefused.2 ⟨n, hint, h⟩
      exact ⟨n, days, ⟨hrefused.1, hint, hle⟩, hdays, ⟨hle, by linarith, hlt⟩, hnodup, hweekdays⟩
    · rintro ⟨n, days, ⟨-, hint, -⟩, hdays, ⟨-, -, hlt⟩, hnodup, hweekdays⟩
      exact ⟨⟨n, hint, hlt⟩, days, hdays, hnodup, hweekdays⟩

/-- The schedule that a usable form gives. -/
theorem UsableForm.schedule {thresholdDays : String} {visibleOnDays : List String} {n : ℤ}
    {days : List ℤ} (h : UsableForm py thresholdDays visibleOnDays)
    (hthreshold : parseThreshold py thresholdDays = .ok n)
    (hdays : parseInts py visibleOnDays = .ok days) : UsableSchedule n (visibleDays days) := by
  obtain hrefused | ⟨n', days', hthreshold', hdays', husable⟩ := usableForm_iff.mp h
  · rw [hthreshold] at hrefused
    cases hrefused
  · obtain rfl := Except.ok.inj (hthreshold.symm.trans hthreshold')
    obtain rfl := Except.ok.inj (hdays.symm.trans hdays')
    exact husable

/-! ## What the handlers answer -/

/-- `add_tracker` refuses the form, or commits one new tracker, a usable one. -/
def AddsUsable (py : TextParsers) (clock : Clock) (name thresholdDays : String)
    (visibleOnDays : List String) (db : Database) : Prop :=
  RefusedCleanly db (addTracker py clock name thresholdDays visibleOnDays db) ∨
    ∃ db' tracker, addTracker py clock name thresholdDays visibleOnDays db = .ok db' ∧
      db'.trackers = db.trackers ++ [tracker] ∧ tracker.Usable

/-- `edit_tracker` refuses the form, or commits a usable schedule of its tracker. -/
def EditsUsable (py : TextParsers) (trackerId : ℕ) (thresholdDays : String)
    (visibleOnDays : List String) (db : Database) : Prop :=
  RefusedCleanly db (editTracker py trackerId thresholdDays visibleOnDays db) ∨
    ∃ db', editTracker py trackerId thresholdDays visibleOnDays db = .ok db' ∧
      (∃ tracker ∈ db'.trackers, tracker.id = trackerId) ∧
      ∀ tracker ∈ db'.trackers, tracker.id = trackerId → tracker.Usable

theorem addTracker_eq_abort {clock : Clock} {name thresholdDays : String}
    {visibleOnDays : List String} {db : Database} {status : ℕ} :
    addTracker py clock name thresholdDays visibleOnDays db = .error (.abort status) ↔
      status = 400 ∧ (py.strip name = "" ∨ RefusesThreshold py thresholdDays) := by
  rw [addTracker]
  simp only
  split_ifs with hname
  · simp [throw, throwThe, MonadExceptOf.throw, bind, Except.bind, hname, eq_comm]
  · simp only [bind_eq_error, parseThreshold_eq_abort, hname, false_or]
    refine ⟨?_, Or.inl⟩
    rintro (h | ⟨n, hn, habort | ⟨days, hdays, h⟩⟩)
    · exact h
    · exact absurd habort (parseInts_ne_abort _ _)
    · split_ifs at h
      · cases h
      · cases h

theorem editTracker_eq_abort {trackerId : ℕ} {thresholdDays : String}
    {visibleOnDays : List String} {db : Database} {status : ℕ} :
    editTracker py trackerId thresholdDays visibleOnDays db = .error (.abort status) ↔
      (status = 404 ∧ db.getTracker trackerId = none) ∨
      (status = 400 ∧ (∃ tracker, db.getTracker trackerId = some tracker) ∧
        RefusesThreshold py thresholdDays) := by
  rw [editTracker]
  cases htracker : db.getTracker trackerId with
  | none => simp [foundOr404, bind, Except.bind, eq_comm]
  | some tracker =>
    simp only [bind_eq_error, foundOr404, Except.ok.injEq, parseThreshold_eq_abort]
    constructor
    · rintro (h | ⟨_, -, h | ⟨n, hn, habort | ⟨days, hdays, h⟩⟩⟩)
      · cases h
      · exact Or.inr ⟨h.1, ⟨tracker, rfl⟩, h.2⟩
      · exact absurd habort (parseInts_ne_abort _ _)
      · split_ifs at h
        · cases h
        · cases h
    · rintro (⟨-, h⟩ | ⟨hstatus, -, h⟩)
      · cases h
      · exact Or.inr ⟨tracker, rfl, Or.inl ⟨hstatus, h⟩⟩

/-- **When `add_tracker` answers well.** -/
theorem addsUsable_iff {clock : Clock} {name thresholdDays : String} {visibleOnDays : List String}
    {db : Database} :
    AddsUsable py clock name thresholdDays visibleOnDays db ↔
      py.strip name = "" ∨ UsableForm py thresholdDays visibleOnDays := by
  constructor
  · rintro (⟨⟨status, -, -, h⟩, -⟩ | ⟨db', tracker, h, htrackers, husable⟩)
    · obtain ⟨-, hname | hthreshold⟩ := addTracker_eq_abort.mp h
      · exact Or.inl hname
      · exact Or.inr (Or.inl hthreshold)
    · obtain ⟨-, n, days, hthreshold, hdays, -, rfl⟩ := addTracker_ok_iff.mp h
      have hlast : [newTracker py name n days db] = [tracker] := List.append_cancel_left htrackers
      obtain rfl : newTracker py name n days db = tracker := List.singleton_inj.mp hlast
      exact Or.inr (usableForm_iff.mpr (Or.inr ⟨n, days, hthreshold, hdays, husable⟩))
  · intro h
    by_cases hname : py.strip name = ""
    · exact Or.inl (refusedCleanly_of_abort 400 (by decide)
        (addTracker_eq_abort.mpr ⟨rfl, Or.inl hname⟩))
    · obtain hthreshold | ⟨n, days, hthreshold, hdays, husable⟩ :=
        usableForm_iff.mp (h.resolve_left hname)
      · exact Or.inl (refusedCleanly_of_abort 400 (by decide) (addTracker_eq_abort.mpr
          ⟨rfl, Or.inr (parseThreshold_eq_abort.mp hthreshold).2⟩))
      · refine Or.inr ⟨_, newTracker py name n days db, addTracker_ok_iff.mpr
          ⟨hname, n, days, hthreshold, hdays, UsableSchedule.fits husable, rfl⟩, rfl, husable⟩

/-- **When `edit_tracker` answers well.** -/
theorem editsUsable_iff {trackerId : ℕ} {thresholdDays : String} {visibleOnDays : List String}
    {db : Database} :
    EditsUsable py trackerId thresholdDays visibleOnDays db ↔
      db.getTracker trackerId = none ∨ UsableForm py thresholdDays visibleOnDays := by
  constructor
  · rintro (⟨⟨status, -, -, h⟩, -⟩ | ⟨db', h, ⟨tracker, htracker, hid⟩, husable⟩)
    · obtain ⟨-, hnone⟩ | ⟨-, -, hthreshold⟩ := editTracker_eq_abort.mp h
      · exact Or.inl hnone
      · exact Or.inr (Or.inl hthreshold)
    · obtain ⟨-, n, days, -, hthreshold, hdays, -, rfl⟩ := editTracker_ok_iff.mp h
      obtain ⟨t, -, rfl⟩ := List.mem_map.mp htracker
      have husable := husable _ htracker hid
      split_ifs at husable hid with ht
      · exact Or.inr (usableForm_iff.mpr (Or.inr ⟨n, days, hthreshold, hdays, husable⟩))
      · exact absurd hid ht
  · intro h
    cases hfound : db.getTracker trackerId with
    | none =>
      exact Or.inl (refusedCleanly_of_abort 404 (by decide)
        (editTracker_eq_abort.mpr (Or.inl ⟨rfl, hfound⟩)))
    | some tracker =>
      obtain hthreshold | ⟨n, days, hthreshold, hdays, husable⟩ :=
        usableForm_iff.mp (h.resolve_left (by simp [hfound]))
      · exact Or.inl (refusedCleanly_of_abort 400 (by decide) (editTracker_eq_abort.mpr
          (Or.inr ⟨rfl, ⟨tracker, hfound⟩, (parseThreshold_eq_abort.mp hthreshold).2⟩)))
      · refine Or.inr ⟨_, editTracker_ok_iff.mpr ⟨tracker, n, days, hfound, hthreshold, hdays,
          UsableSchedule.fits husable, rfl⟩, ?_, ?_⟩
        · obtain ⟨hmem, hid⟩ := mem_of_getTracker hfound
          exact ⟨tracker.reschedule n days, List.mem_map.mpr ⟨tracker, hmem, if_pos hid⟩, hid⟩
        · intro t ht hid
          obtain ⟨t', -, rfl⟩ := List.mem_map.mp ht
          split_ifs at hid ⊢ with ht'
          · exact husable
          · exact absurd hid ht'

/-! ## Runs -/

/-- A request that writes the tables of trackers, or any other one. -/
inductive TrackerAct where
  | add (clock : Clock) (name thresholdDays : String) (visibleOnDays : List String)
  | edit (trackerId : ℕ) (thresholdDays : String) (visibleOnDays : List String)
  | delete (trackerId : ℕ)
  | toggle (clock : Clock) (trackerId : ℕ)
  | mark (clock : Clock) (date : String) (trackerId : ℕ)
  | move (item direction : String) (clock : Clock)
  | reset
  /-- a request that leaves the trackers and their state rows as they are -/
  | other (written : Database)

/-- The handler of a request. -/
def TrackerAct.handle (py : TextParsers) (act : TrackerAct) (db : Database) :
    Except Failure Database :=
  match act with
  | .add clock name thresholdDays visibleOnDays =>
    addTracker py clock name thresholdDays visibleOnDays db
  | .edit trackerId thresholdDays visibleOnDays =>
    editTracker py trackerId thresholdDays visibleOnDays db
  | .delete trackerId => deleteTracker trackerId db
  | .toggle clock trackerId => toggleTracker clock trackerId db
  | .mark clock date trackerId => markTracker clock date trackerId db
  | .move item direction clock => moveItem item direction clock.today clock.now db
  | .reset => .ok (resetOrder db)
  | .other written =>
    .ok { written with trackers := db.trackers, trackerState := db.trackerState }

/-- A request in a run. -/
def stepTrackerAct (py : TextParsers) (db : Database) (act : TrackerAct) : Database :=
  afterRequest db (act.handle py db)

/-- If the request submits a tracker form, the form is a usable one, or it is refused for its name
or its tracker. -/
def TrackerAct.UsableIn (py : TextParsers) (db : Database) : TrackerAct → Prop
  | .add _ name thresholdDays visibleOnDays =>
    py.strip name = "" ∨ UsableForm py thresholdDays visibleOnDays
  | .edit trackerId thresholdDays visibleOnDays =>
    db.getTracker trackerId = none ∨ UsableForm py thresholdDays visibleOnDays
  | _ => True

/-- Every tracker is usable and has its state row. -/
def TrackersUsable (db : Database) : Prop :=
  ∀ tracker ∈ db.trackers, tracker.Usable ∧ (db.trackerState.lookup tracker.id).isSome

/-- Rows that keep the id and the schedule of rows that are there. -/
theorem TrackersUsable.of_map {db db' : Database} (h : TrackersUsable db) {f : Tracker → Tracker}
    (hf : ∀ t, (f t).id = t.id ∧ (f t).thresholdDays = t.thresholdDays ∧
      (f t).visibleOnDays = t.visibleOnDays)
    (htrackers : db'.trackers = db.trackers.map f)
    (hstate : ∀ id, (db.trackerState.lookup id).isSome → (db'.trackerState.lookup id).isSome) :
    TrackersUsable db' := by
  intro tracker htracker
  rw [htrackers, List.mem_map] at htracker
  obtain ⟨t, ht, rfl⟩ := htracker
  obtain ⟨hid, hthreshold, hdays⟩ := hf t
  obtain ⟨husable, hsome⟩ := h t ht
  refine ⟨?_, ?_⟩
  · rw [Tracker.Usable, hthreshold, hdays]
    exact husable
  · rw [hid]
    exact hstate t.id hsome

theorem isSome_lookup_insert {t : Table ℕ TrackerState} {id : ℕ} (k : ℕ) (row : TrackerState)
    (h : (t.lookup id).isSome) : ((t.insert k row).lookup id).isSome := by
  by_cases hid : id = k
  · subst hid
    rw [AList.lookup_insert]
    rfl
  · rw [AList.lookup_insert_ne hid]
    exact h

theorem trackersUsable_recompute (db : Database) (h : TrackersUsable db) (trackerId : ℕ)
    (clock : Clock) : TrackersUsable (recomputeTrackerState db trackerId clock) :=
  h.of_map (f := id) (fun _ => ⟨rfl, rfl, rfl⟩) (List.map_id _).symm
    fun _ => isSome_lookup_insert _ _

theorem trackersUsable_rekey {db : Database} (h : TrackersUsable db)
    (f : Item → Option ℤ → Option ℤ) : TrackersUsable (db.rekey f) :=
  h.of_map (f := Tracker.rekey f) (fun _ => ⟨rfl, rfl, rfl⟩) rfl fun _ hsome => hsome

theorem moveItem_eq_ok {key direction : String} {today : Date} {now : Moment} {db db' : Database}
    (h : moveItem key direction today now db = .ok db') :
    ∃ item newKey, db' = db.setSortOrder item newKey := by
  rw [moveItem] at h
  split at h
  · cases h
  · dsimp only at h
    split_ifs at h
    split at h
    · rename_i newKey item _ _
      split_ifs at h
      exact ⟨item, some newKey, (Except.ok.inj h).symm⟩
    · cases h

/-- **The step.**  A successful request with a usable form keeps every tracker usable. -/
theorem TrackerAct.keeps {db db' : Database} (h : TrackersUsable db) {act : TrackerAct}
    (husable : act.UsableIn py db) (hok : act.handle py db = .ok db') : TrackersUsable db' := by
  cases act with
  | add clock name thresholdDays visibleOnDays =>
    obtain ⟨hname, n, days, hthreshold, hdays, -, rfl⟩ := addTracker_ok_iff.mp hok
    have hschedule := (husable.resolve_left hname).schedule hthreshold hdays
    intro tracker htracker
    rcases List.mem_append.mp htracker with hmem | hnew
    · exact ⟨(h tracker hmem).1, isSome_lookup_insert _ _ (h tracker hmem).2⟩
    · obtain rfl := List.mem_singleton.mp hnew
      refine ⟨hschedule, ?_⟩
      show ((AList.insert db.trackerSeq _ db.trackerState).lookup db.trackerSeq).isSome
      rw [AList.lookup_insert]
      rfl
  | edit trackerId thresholdDays visibleOnDays =>
    obtain ⟨t, n, days, hfound, hthreshold, hdays, -, rfl⟩ := editTracker_ok_iff.mp hok
    have hschedule := (husable.resolve_left (by simp [hfound])).schedule hthreshold hdays
    intro tracker htracker
    obtain ⟨t', ht', rfl⟩ := List.mem_map.mp htracker
    by_cases hid : t'.id = trackerId
    · rw [if_pos hid]
      exact ⟨hschedule, (h t' ht').2⟩
    · rw [if_neg hid]
      exact h t' ht'
  | delete trackerId =>
    obtain ⟨_, -, hdb⟩ := bind_eq_ok.mp hok
    obtain rfl := Except.ok.inj hdb
    intro tracker htracker
    obtain ⟨hmem, hid⟩ := List.mem_filter.mp htracker
    refine ⟨(h tracker hmem).1, ?_⟩
    show ((db.trackerState.put trackerId none).lookup tracker.id).isSome
    rw [Table.lookup_put_ne _ _ (of_decide_eq_true hid)]
    exact (h tracker hmem).2
  | toggle clock trackerId =>
    obtain ⟨-, rfl⟩ := toggleTracker_eq_ok.mp hok
    exact trackersUsable_recompute (trackerToggled clock trackerId db) h _ _
  | mark clock date trackerId =>
    obtain ⟨day, -, -, rfl⟩ := markTracker_eq_ok.mp hok
    exact trackersUsable_recompute (trackerEdited clock day trackerId db) h _ _
  | move item direction clock =>
    obtain ⟨item, key, rfl⟩ := moveItem_eq_ok hok
    rw [setSortOrder_eq_rekey]
    exact trackersUsable_rekey h _
  | reset =>
    obtain rfl := Except.ok.inj hok
    rw [resetOrder_eq_rekey]
    exact trackersUsable_rekey h _
  | other written =>
    obtain rfl := Except.ok.inj hok
    exact h

/-- A day of the week that starts at a day. -/
theorem exists_day_of_weekday (start : Date) {w : ℤ} (hw : 0 ≤ w ∧ w ≤ 6) :
    ∃ day, start ≤ day ∧ day < start + 7 ∧ weekday day = w := by
  refine ⟨start + (w - (start + 6)) % 7, ?_, ?_, ?_⟩
  · linarith [Int.emod_nonneg (w - (start + 6)) (by norm_num : (7 : ℤ) ≠ 0)]
  · linarith [Int.emod_lt_of_pos (w - (start + 6)) (by norm_num : (0 : ℤ) < 7)]
  · rw [weekday, Int.emod_def (w - (start + 6))]
    lia

/-- **A usable tracker can appear** in every week. -/
theorem TrackersUsable.canAppear {db : Database} (h : TrackersUsable db) {tracker : Tracker}
    (htracker : tracker ∈ db.trackers) (hactive : tracker.archivedAt = none) :
    tracker.CanAppear db := by
  obtain ⟨husable, hsome⟩ := h tracker htracker
  obtain ⟨state, hstate⟩ := Option.isSome_iff_exists.mp hsome
  obtain ⟨w, hw⟩ := List.exists_mem_of_ne_nil _ husable.nonempty
  refine ⟨state, hstate, fun start => ?_⟩
  obtain ⟨day, hle, hlt, hday⟩ := exists_day_of_weekday start (husable.weekdays w hw)
  refine ⟨day, hle, hlt, fun now status hstatus => ?_⟩
  have hrow : dayTracker db day tracker = some (.tracker tracker state status) := by
    rw [dayTracker, hstate]
    dsimp only
    rw [if_pos (hday ▸ hw), hstatus]
    rfl
  have hmem : tracker ∈ activeTrackers db :=
    List.mem_filter.mpr ⟨htracker, Option.isNone_iff_eq_none.mpr hactive⟩
  rw [dayList, mem_sortByKey, List.mem_append]
  exact Or.inr (List.mem_filterMap.mpr ⟨tracker, hmem, hrow⟩)

/-- **Which forms store a usable tracker.**  A form is refused, or stores a usable tracker, exactly
when it is refused for its name, its tracker or its threshold, or its two fields are usable.  Along
a run in which every form is such a one, every active tracker of every state can appear in every
week. -/
theorem tracker_forms_iff (py : TextParsers) :
    (∀ clock name thresholdDays visibleOnDays db,
      AddsUsable py clock name thresholdDays visibleOnDays db ↔
        py.strip name = "" ∨ UsableForm py thresholdDays visibleOnDays) ∧
    (∀ trackerId thresholdDays visibleOnDays db,
      EditsUsable py trackerId thresholdDays visibleOnDays db ↔
        db.getTracker trackerId = none ∨ UsableForm py thresholdDays visibleOnDays) ∧
    ∀ (db : Database) (acts : List TrackerAct), TrackersUsable db →
      (∀ x ∈ trace (stepTrackerAct py) db acts, x.2.UsableIn py x.1) →
      ∀ tracker ∈ (acts.foldl (stepTrackerAct py) db).trackers, tracker.archivedAt = none →
        tracker.CanAppear (acts.foldl (stepTrackerAct py) db) := by
  refine ⟨fun _ _ _ _ _ => addsUsable_iff, fun _ _ _ _ => editsUsable_iff, ?_⟩
  intro db acts h hacts tracker htracker hactive
  have hkeep : ∀ db act, TrackersUsable db → TrackerAct.UsableIn py db act →
      TrackersUsable (stepTrackerAct py db act) := by
    intro db act hdb husable
    rw [stepTrackerAct]
    cases hresult : act.handle py db with
    | error e => exact hdb
    | ok db' => exact TrackerAct.keeps hdb husable hresult
  exact (foldl_invariant (C := fun db act => act.UsableIn py db) hkeep h hacts).canAppear htracker
    hactive

/-- A tracker is added for Mondays and Wednesdays, and then moved to Fridays. -/
def weekdayActs : List TrackerAct :=
  [.add ⟨739622, 0⟩ "guitar" "3" ["0", "2"], .edit 1 "2" ["4"]]

theorem tracker_forms_iff_weekdayActs :
    ∀ tracker ∈ (weekdayActs.foldl (stepTrackerAct asciiParsers) {}).trackers,
      tracker.archivedAt = none →
        tracker.CanAppear (weekdayActs.foldl (stepTrackerAct asciiParsers) {}) := by
  refine (tracker_forms_iff asciiParsers).2.2 {} weekdayActs (fun _ h => absurd h (by simp)) ?_
  have hform : ∀ threshold n days ds, asciiParsers.int threshold = some n → n < 2 ^ 31 →
      List.Forall₂ (fun text d => asciiParsers.int text = some d) days ds → ds.Nodup →
      (∀ d ∈ ds, 0 ≤ d ∧ d ≤ 6) → UsableForm asciiParsers threshold days :=
    fun _ n _ ds hn hlt hds hnodup hdays => Or.inr ⟨⟨n, hn, hlt⟩, ds, hds, hnodup, hdays⟩
  intro x hx
  simp only [weekdayActs, trace_cons, trace_nil, List.mem_cons, List.not_mem_nil, or_false] at hx
  rcases hx with rfl | rfl
  · refine Or.inr (hform "3" 3 ["0", "2"] [0, 2] (by decide) (by decide) ?_ (by decide) (by decide))
    exact .cons (by decide) (.cons (by decide) .nil)
  · refine Or.inr (hform "2" 2 ["4"] [4] (by decide) (by decide) ?_ (by decide) (by decide))
    exact .cons (by decide) .nil

/-- A form whose only weekday is `9` is accepted. -/
theorem not_addsUsable_nine :
    ¬ AddsUsable asciiParsers ⟨739622, 0⟩ "guitar" "3" ["9"] {} := by
  rw [addsUsable_iff]
  rintro (hname | (hdigit | ⟨n, hint, hlt⟩) | ⟨-, days, hdays, -, hweekdays⟩)
  · exact absurd hname (by decide)
  · exact absurd hdigit (by decide)
  · obtain rfl : n = 3 := Option.some.inj (hint.symm.trans (by decide))
    exact absurd hlt (by decide)
  · obtain ⟨d, rest, hd, -, rfl⟩ := List.forall₂_cons_left_iff.mp hdays
    obtain rfl : d = 9 := Option.some.inj (hd.symm.trans (by decide))
    exact absurd (hweekdays 9 List.mem_cons_self).2 (by decide)

end EpsCloud

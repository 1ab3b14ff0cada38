import EpsCloud.Library.KeySort
import EpsCloud.Routes.Journal

/-!
# The dashboard's tracker routes

`app.routes.dashboard`, the tracker endpoints: doing a tracker today or taking it
back, changing its cadence, adding one and deleting one.  The form field
`visible_on_days` may be given any number of times, so it is a list of texts.

* `toggleTracker_eq_ok`, `editTracker_ok_iff`, `addTracker_ok_iff`: what a successful
  request has checked and what it leaves.
-/

namespace EpsCloud

open KeySort

/-- The edit of `toggle_tracker`: add today's event, or delete the one that is there. -/
def toggledEvent (event : Option TrackerEvent) : Option TrackerEvent :=
  match event with
  | none => some { activityDone := true }
  | some _ => none

/-- `toggle_tracker`: mark a tracker done for today, or take it back. -/
def toggleTracker (clock : Clock) (trackerId : ℕ) (db : Database) : Except Failure Database := do
  let _ ← foundOr404 (db.getTracker trackerId)
  let row := toggledEvent (db.trackerEvents.lookup (clock.today, trackerId))
  let db := { db with trackerEvents := db.trackerEvents.put (clock.today, trackerId) row }
  return recomputeTrackerState db trackerId clock

/-- The checked threshold: digits, and at least one day. -/
def parseThreshold (py : TextParsers) (text : String) : Except Failure ℤ :=
  if py.isdigit text then
    match py.int text with
    | none => .error .raised
    | some n => if n < 1 then .error (.abort 400) else .ok n
  else .error (.abort 400)

/-- `[int(d) for d in days]`: an integer for every text, or the exception of the first one
that is none. -/
def parseInts (py : TextParsers) : List String → Except Failure (List ℤ)
  | [] => .ok []
  | text :: texts =>
    match py.int text with
    | none => .error .raised
    | some n => (parseInts py texts).map (n :: ·)

/-- The values that an `INTEGER` column takes. -/
def FitsInteger (n : ℤ) : Prop := -2 ^ 31 ≤ n ∧ n < 2 ^ 31

instance (n : ℤ) : Decidable (FitsInteger n) := inferInstanceAs (Decidable (_ ∧ _))

/-- The values that a `SMALLINT` column takes. -/
def FitsSmallInt (n : ℤ) : Prop := -2 ^ 15 ≤ n ∧ n < 2 ^ 15

instance (n : ℤ) : Decidable (FitsSmallInt n) := inferInstanceAs (Decidable (_ ∧ _))

/-- The columns of a tracker take its values; the database refuses the row otherwise. -/
def Tracker.Fits (tracker : Tracker) : Prop :=
  FitsInteger tracker.thresholdDays ∧ ∀ d ∈ tracker.visibleOnDays, FitsSmallInt d

instance (tracker : Tracker) : Decidable tracker.Fits :=
  inferInstanceAs (Decidable (_ ∧ ∀ d ∈ tracker.visibleOnDays, _))

/-- The weekdays that a tracker is shown on: the given ones in order, or all of them. -/
def visibleDays (days : List ℤ) : List ℤ :=
  if days = [] then [0, 1, 2, 3, 4, 5, 6] else sortByKey id days

/-- Rewrite one tracker. -/
def Database.setTracker (db : Database) (trackerId : ℕ) (f : Tracker → Tracker) : Database :=
  let trackers := db.trackers.map fun t => if t.id = trackerId then f t else t
  { db with trackers := trackers }

/-- `edit_tracker`: adjust a tracker's cadence and weekdays. -/
def editTracker (py : TextParsers) (trackerId : ℕ) (thresholdDays : String)
    (visibleOnDays : List String) (db : Database) : Except Failure Database := do
  let tracker ← foundOr404 (db.getTracker trackerId)
  let threshold ← parseThreshold py thresholdDays
  let days ← parseInts py visibleOnDays
  let change := fun t : Tracker =>
    { t with thresholdDays := threshold, visibleOnDays := visibleDays days }
  if (change tracker).Fits then return db.setTracker trackerId change
  else throw .raised

/-- `add_tracker`: a new tracker, with the state row it needs to reach the agenda. -/
def addTracker (py : TextParsers) (clock : Clock) (name thresholdDays : String)
    (visibleOnDays : List String) (db : Database) : Except Failure Database := do
  let name := py.strip name
  if name = "" then throw (.abort 400)
  let threshold ← parseThreshold py thresholdDays
  let days ← parseInts py visibleOnDays
  let tracker : Tracker :=
    { id := db.trackerSeq
      name := name
      thresholdDays := threshold
      visibleOnDays := visibleDays days }
  if tracker.Fits then
    let db := { db with trackers := db.trackers ++ [tracker], trackerSeq := db.trackerSeq + 1 }
    return recomputeTrackerState db tracker.id clock
  else throw .raised

/-- `delete_tracker`: delete a tracker with its whole history, children first.  The foreign keys and
the order of the flushed `DELETE`s are left out. -/
def deleteTracker (trackerId : ℕ) (db : Database) : Except Failure Database := do
  let _ ← foundOr404 (db.getTracker trackerId)
  let events := (db.trackerEvents.rows.filter fun e => e.1.2 = trackerId).foldl
    (fun t e => t.put e.1 none) db.trackerEvents
  return { db with
    trackerEvents := events
    trackerState := db.trackerState.put trackerId none
    trackers := db.trackers.filter fun t => t.id ≠ trackerId }

/-! ## What a successful request leaves -/

/-- `toggle_tracker` and `mark_tracker` edit the event in the same way. -/
theorem toggledEvent_eq (event : Option TrackerEvent) :
    toggledEvent event = (trackerChange event).row := by
  cases event <;> rfl

/-- The database after `toggle_tracker` has edited the event. -/
def trackerToggled (clock : Clock) (trackerId : ℕ) (db : Database) : Database :=
  let row := toggledEvent (db.trackerEvents.lookup (clock.today, trackerId))
  { db with trackerEvents := db.trackerEvents.put (clock.today, trackerId) row }

theorem toggleTracker_eq_ok {clock : Clock} {trackerId : ℕ} {db db' : Database} :
    toggleTracker clock trackerId db = .ok db' ↔
      (∃ tracker, db.getTracker trackerId = some tracker) ∧
        db' = recomputeTrackerState (trackerToggled clock trackerId db) trackerId clock := by
  rw [toggleTracker]
  simp only [bind_eq_ok, foundOr404_eq_ok, pure, Except.pure, Except.ok.injEq]
  constructor
  · rintro ⟨tracker, htracker, rfl⟩
    exact ⟨⟨tracker, htracker⟩, rfl⟩
  · rintro ⟨⟨tracker, htracker⟩, rfl⟩
    exact ⟨tracker, htracker, rfl⟩

theorem mem_of_getTracker {db : Database} {trackerId : ℕ} {tracker : Tracker}
    (h : db.getTracker trackerId = some tracker) :
    tracker ∈ db.trackers ∧ tracker.id = trackerId := by
  rw [Database.getTracker] at h
  have hid := List.find?_some h
  exact ⟨List.mem_of_find?_eq_some h, of_decide_eq_true hid⟩

/-- The schedule that the edit form stores. -/
def Tracker.reschedule (threshold : ℤ) (days : List ℤ) (tracker : Tracker) : Tracker :=
  { tracker with thresholdDays := threshold, visibleOnDays := visibleDays days }

/-- The tracker that the form stores. -/
def newTracker (py : TextParsers) (name : String) (threshold : ℤ) (days : List ℤ)
    (db : Database) : Tracker :=
  { id := db.trackerSeq
    name := py.strip name
    thresholdDays := threshold
    visibleOnDays := visibleDays days }

theorem editTracker_ok_iff {py : TextParsers} {trackerId : ℕ} {thresholdDays : String}
    {visibleOnDays : List String} {db db' : Database} :
    editTracker py trackerId thresholdDays visibleOnDays db = .ok db' ↔
      ∃ tracker threshold days, db.getTracker trackerId = some tracker ∧
        parseThreshold py thresholdDays = .ok threshold ∧
        parseInts py visibleOnDays = .ok days ∧ (tracker.reschedule threshold days).Fits ∧
        db' = db.setTracker trackerId (Tracker.reschedule threshold days) := by
  rw [editTracker]
  simp only [bind_eq_ok, foundOr404_eq_ok]
  constructor
  · rintro ⟨tracker, htracker, threshold, hthreshold, days, hdays, h⟩
    split_ifs at h with hfits
    exact ⟨tracker, threshold, days, htracker, hthreshold, hdays, hfits, (Except.ok.inj h).symm⟩
  · rintro ⟨tracker, threshold, days, htracker, hthreshold, hdays, hfits, rfl⟩
    exact ⟨tracker, htracker, threshold, hthreshold, days, hdays, if_pos hfits⟩

theorem editTracker_eq_ok {py : TextParsers} {trackerId : ℕ} {thresholdDays : String}
    {visibleOnDays : List String} {db db' : Database} :
    editTracker py trackerId thresholdDays visibleOnDays db = .ok db' →
      ∃ f, db' = db.setTracker trackerId f ∧ ∀ t, (f t).id = t.id := by
  intro h
  obtain ⟨-, threshold, days, -, -, -, -, rfl⟩ := editTracker_ok_iff.mp h
  exact ⟨_, rfl, fun t => rfl⟩

theorem addTracker_ok_iff {py : TextParsers} {clock : Clock} {name thresholdDays : String}
    {visibleOnDays : List String} {db db' : Database} :
    addTracker py clock name thresholdDays visibleOnDays db = .ok db' ↔
      py.strip name ≠ "" ∧ ∃ threshold days, parseThreshold py thresholdDays = .ok threshold ∧
        parseInts py visibleOnDays = .ok days ∧ (newTracker py name threshold days db).Fits ∧
        db' = recomputeTrackerState
          { db with
            trackers := db.trackers ++ [newTracker py name threshold days db]
            trackerSeq := db.trackerSeq + 1 }
          db.trackerSeq clock := by
  rw [addTracker]
  simp only
  split_ifs with hname
  · refine ⟨fun h => ?_, fun h => absurd hname h.1⟩
    exact absurd h (by simp [throw, throwThe, MonadExceptOf.throw, bind, Except.bind])
  · simp only [bind_eq_ok]
    constructor
    · rintro ⟨threshold, hthreshold, days, hdays, h⟩
      split_ifs at h with hfits
      exact ⟨hname, threshold, days, hthreshold, hdays, hfits, (Except.ok.inj h).symm⟩
    · rintro ⟨-, threshold, days, hthreshold, hdays, hfits, rfl⟩
      exact ⟨threshold, hthreshold, days, hdays, if_pos hfits⟩

theorem addTracker_eq_ok {py : TextParsers} {clock : Clock} {name thresholdDays : String}
    {visibleOnDays : List String} {db db' : Database} :
    addTracker py clock name thresholdDays visibleOnDays db = .ok db' →
      ∃ tracker : Tracker, tracker.id = db.trackerSeq ∧
        db' = recomputeTrackerState
          { db with trackers := db.trackers ++ [tracker], trackerSeq := db.trackerSeq + 1 }
          tracker.id clock := by
  intro h
  obtain ⟨-, threshold, days, -, -, -, rfl⟩ := addTracker_ok_iff.mp h
  exact ⟨newTracker py name threshold days db, rfl, rfl⟩

end EpsCloud

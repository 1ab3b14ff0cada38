import EpsCloud.Schema.Tables

/-!
# Rebuilding a tracker's state row

`app.recompute.recompute_tracker_state`: the latest day an activity was done, and
the days from it to today.  A tracker that has never been done reports zero days
and no last-done date.

* `lastDone_eq_some_iff`: the query's `max` is the latest done day.
-/

namespace EpsCloud

/-- The dates of a tracker's events with `activity_done`, as the query selects them. -/
def doneDays (db : Database) (trackerId : ℕ) : List Date :=
  db.trackerEvents.rows.filterMap fun e =>
    if e.1.2 = trackerId ∧ e.2.activityDone then some e.1.1 else none

/-- `select(func.max(TrackerEvent.date))` over those events. -/
def lastDone (db : Database) (trackerId : ℕ) : Option Date := (doneDays db trackerId).max?

/-- `recompute_tracker_state`: the state row that it returns. -/
def recomputedTrackerState (db : Database) (trackerId : ℕ) (clock : Clock) : TrackerState :=
  { lastDoneDate := lastDone db trackerId
    daysSinceLastDone :=
      match lastDone db trackerId with
      | none => 0
      | some d => clock.today - d
    lastRecomputedAt := clock.now }

/-- `recompute_tracker_state`: find the most recent day this activity was done and count
forward from it. -/
def recomputeTrackerState (db : Database) (trackerId : ℕ) (clock : Clock) : Database :=
  let state := recomputedTrackerState db trackerId clock
  { db with trackerState := db.trackerState.insert trackerId state }

/-- The tracker was done on the day. -/
def DoneOn (db : Database) (trackerId : ℕ) (d : Date) : Prop :=
  (db.trackerEvents.lookup (d, trackerId)).map TrackerEvent.activityDone = some true

instance (db : Database) (trackerId : ℕ) (d : Date) : Decidable (DoneOn db trackerId d) :=
  inferInstanceAs (Decidable (_ = _))

theorem mem_doneDays {db : Database} {trackerId : ℕ} {d : Date} :
    d ∈ doneDays db trackerId ↔ DoneOn db trackerId d := by
  rw [doneDays, List.mem_filterMap, DoneOn]
  constructor
  · rintro ⟨⟨⟨d', t'⟩, row⟩, hmem, heq⟩
    by_cases h : t' = trackerId ∧ row.activityDone = true
    · rw [if_pos h, Option.some.injEq] at heq
      rw [← heq, ← h.1, Table.mem_rows.mp hmem, Option.map_some, h.2]
    · rw [if_neg h] at heq
      exact absurd heq (by simp)
  · intro h
    obtain ⟨row, hrow, hdone⟩ := Option.map_eq_some_iff.mp h
    exact ⟨((d, trackerId), row), Table.mem_rows.mpr hrow, if_pos ⟨rfl, hdone⟩⟩

/-- **The query returns the latest done day.** -/
theorem lastDone_eq_some_iff {db : Database} {trackerId : ℕ} {d : Date} :
    lastDone db trackerId = some d ↔
      DoneOn db trackerId d ∧ ∀ d', DoneOn db trackerId d' → d' ≤ d := by
  rw [lastDone, List.max?_eq_some_iff, mem_doneDays]
  refine and_congr_right fun _ => ?_
  constructor
  · intro h d' hd'
    exact h d' (mem_doneDays.mpr hd')
  · intro h d' hd'
    exact h d' (mem_doneDays.mp hd')

theorem lastDone_eq_none_iff {db : Database} {trackerId : ℕ} :
    lastDone db trackerId = none ↔ ∀ d, ¬ DoneOn db trackerId d := by
  rw [lastDone, List.max?_eq_none_iff, List.eq_nil_iff_forall_not_mem]
  simp only [mem_doneDays]

/-- The latest done day depends on the done days only. -/
theorem lastDone_congr {db db' : Database} {trackerId : ℕ}
    (h : ∀ d, DoneOn db trackerId d ↔ DoneOn db' trackerId d) :
    lastDone db trackerId = lastDone db' trackerId := by
  refine Option.ext fun d => ?_
  rw [lastDone_eq_some_iff, lastDone_eq_some_iff]
  simp only [h]

/-- A recomputed row depends on the done days only. -/
theorem recomputedTrackerState_congr {db db' : Database} {trackerId : ℕ}
    (h : ∀ d, DoneOn db trackerId d ↔ DoneOn db' trackerId d) (clock : Clock) :
    recomputedTrackerState db trackerId clock = recomputedTrackerState db' trackerId clock := by
  rw [recomputedTrackerState, recomputedTrackerState, lastDone_congr h]

/-- A tracker that was done on some day has a latest one. -/
theorem exists_lastDone {db : Database} {trackerId : ℕ} {d : Date} (h : DoneOn db trackerId d) :
    ∃ l, lastDone db trackerId = some l ∧ d ≤ l := by
  cases hl : lastDone db trackerId with
  | none => exact absurd h (lastDone_eq_none_iff.mp hl d)
  | some l => exact ⟨l, rfl, (lastDone_eq_some_iff.mp hl).2 d h⟩

end EpsCloud

import EpsCloud.Library.DerivedRows
import EpsCloud.Library.Runs
import EpsCloud.Routes.Journal

/-!
# A streak's state row is the replay of what is recorded

The state rows are derived rows over the log and the bad days.  `mark_habit`
changes the log of one streak and recomputes that streak; `toggle_bad_day`
changes a day that every streak's replay reads and recomputes every active one.
So each request refreshes every row whose replay it changes, and `DerivedRows`
carries that over whole runs.

* `recomputeStreaks_spec`: the loop of `toggle_bad_day` writes the replay of every
  listed streak and nothing else.
* `handleStreak_replayed`: one request keeps every active streak's row equal to
  its replay.
* `streak_state_is_replay`: so does any sequence of requests, and two sequences
  that end with the same record leave the same figures.
-/

namespace EpsCloud

open DerivedRows

/-- A request that edits the record of streaks, with the moment it is handled at. -/
inductive StreakRequest where
  | markHabit (now : Moment) (date : String) (streakId : ℕ) (mark : String)
  | toggleBadDay (now : Moment) (date : String)

/-- The database after a request that is handled on `today`. -/
def handleStreak (today : Date) (db : Database) : StreakRequest → Database
  | .markHabit now date streakId mark =>
    afterRequest db (markHabit ⟨today, now⟩ date streakId mark db)
  | .toggleBadDay now date => afterRequest db (toggleBadDay ⟨today, now⟩ date db)

/-- Every state row of an active streak holds the figures of a full replay. -/
def Replayed (today : Date) (db : Database) : Prop :=
  ∀ streakId, Streak.Active db streakId → ∀ state, db.streakState.lookup streakId = some state →
    state.figures = replayedFigures db streakId today (graceEnabled db)

/-! ## The rows as derived rows -/

/-- The figures that a streak's state row shows. -/
def shownFigures (db : Database) (streakId : ℕ) : Option (ℕ × Option Date) :=
  (db.streakState.lookup streakId).map StreakState.figures

theorem replayed_iff_consistent {today : Date} {db : Database} :
    Replayed today db ↔ Consistent Streak.Active shownFigures
      (fun db streakId => some (replayedFigures db streakId today (graceEnabled db))) db := by
  constructor
  · intro h streakId hactive hsome
    rw [shownFigures, Option.isSome_map] at hsome
    obtain ⟨state, hstate⟩ := Option.isSome_iff_exists.mp hsome
    rw [shownFigures, hstate, Option.map_some, h streakId hactive state hstate]
  · intro h streakId hactive state hstate
    have hrow : shownFigures db streakId = some state.figures := by
      rw [shownFigures, hstate, Option.map_some]
    have := h streakId hactive (by rw [hrow]; rfl)
    rw [hrow] at this
    exact Option.some.inj this

/-! ## What a recompute writes -/

theorem shownFigures_recompute (db : Database) (streakId k : ℕ) (clock : Clock) (grace : Bool) :
    shownFigures (recomputeStreakState db streakId clock grace) k =
      if k = streakId then some (replayedFigures db streakId clock.today grace)
      else shownFigures db k := by
  rw [shownFigures, recomputeStreakState]
  by_cases h : k = streakId
  · subst h
    rw [AList.lookup_insert, Option.map_some, figures_recomputedStreakState, if_pos rfl]
  · rw [AList.lookup_insert_ne h, if_neg h, shownFigures]

/-- A recompute leaves what is recorded, so every replay stays as it is. -/
theorem replayedFigures_recompute (db : Database) (streakId k : ℕ) (clock : Clock) (grace : Bool)
    (today : Date) (grace' : Bool) :
    replayedFigures (recomputeStreakState db streakId clock grace) k today grace' =
      replayedFigures db k today grace' := rfl

/-- The loop of `toggle_bad_day`: every listed streak's row becomes its replay, and every other
row stays. -/
theorem recomputeStreaks_spec (clock : Clock) (grace : Bool) (ids : List ℕ) (db : Database)
    (k : ℕ) :
    shownFigures (recomputeStreaks clock grace ids db) k =
      if k ∈ ids then some (replayedFigures db k clock.today grace) else shownFigures db k :=
  map_lookup_recomputeStreaks ids db fun rows =>
    figures_recomputedStreakState { db with streakState := rows } k clock grace

/-! ## What an edit leaves alone -/

/-- Editing one entry leaves the other entries. -/
theorem entryOn_habitEdited_of_ne {d day : Date} {k streakId : ℕ} (h : (d, k) ≠ (day, streakId))
    (clock : Clock) (passed : Bool) (db : Database) :
    entryOn (habitEdited clock day streakId passed db) k d = entryOn db k d := by
  rw [entryOn, entryOn, habitEdited, Table.lookup_put_ne _ _ h]

/-- Editing one streak's entry leaves the replay of every other streak. -/
theorem replayedFigures_habitEdited {k streakId : ℕ} (h : k ≠ streakId) (clock : Clock)
    (day : Date) (passed : Bool) (db : Database) (today : Date) (grace : Bool) :
    replayedFigures (habitEdited clock day streakId passed db) k today grace =
      replayedFigures db k today grace := by
  have hlog : ∀ d, entryOn (habitEdited clock day streakId passed db) k d = entryOn db k d := by
    intro d
    exact entryOn_habitEdited_of_ne (fun heq => h (Prod.mk.inj heq).2) clock passed db
  exact replayedFigures_congr hlog (fun d => Iff.rfl) today grace

/-- **One request keeps every active streak's row equal to its replay.** -/
theorem handleStreak_replayed {today : Date} {db : Database} (h : Replayed today db)
    (req : StreakRequest) : Replayed today (handleStreak today db req) := by
  rw [replayed_iff_consistent] at h ⊢
  cases req with
  | markHabit now date streakId mark =>
    rw [handleStreak]
    cases hres : markHabit ⟨today, now⟩ date streakId mark db with
    | error e => exact h
    | ok db' =>
      obtain ⟨day, passed, -, -, -, rfl⟩ := markHabit_eq_ok.mp hres
      refine h.refresh fun k hk => ?_
      rw [afterRequest, shownFigures_recompute, replayedFigures_recompute]
      by_cases hid : k = streakId
      · -- the edited streak is the one that is recomputed
        subst hid
        exact Or.inl (if_pos rfl)
      · rw [if_neg hid, replayedFigures_habitEdited hid]
        exact Or.inr ⟨hk, rfl, rfl⟩
  | toggleBadDay now date =>
    rw [handleStreak]
    cases hres : toggleBadDay ⟨today, now⟩ date db with
    | error e => exact h
    | ok db' =>
      obtain ⟨day, -, rfl⟩ := toggleBadDay_eq_ok.mp hres
      refine h.refresh fun k hk => Or.inl ?_
      obtain ⟨rows, hrows⟩ := recomputeStreaks_frame ⟨today, now⟩ (graceEnabled db)
        db.activeStreakIds (badDayEdited ⟨today, now⟩ day db)
      have hk' : k ∈ db.activeStreakIds := by
        rw [afterRequest, hrows] at hk
        exact hk
      rw [afterRequest, recomputeStreaks_spec, if_pos hk', hrows]
      rfl

/-- A request leaves the streaks and the settings alone. -/
theorem handleStreak_frame (today : Date) (db : Database) (req : StreakRequest) :
    (handleStreak today db req).streaks = db.streaks ∧
      (handleStreak today db req).settings = db.settings := by
  cases req with
  | markHabit now date streakId mark =>
    rw [handleStreak]
    cases hres : markHabit ⟨today, now⟩ date streakId mark db with
    | error e => exact ⟨rfl, rfl⟩
    | ok db' =>
      obtain ⟨day, passed, -, -, -, rfl⟩ := markHabit_eq_ok.mp hres
      exact ⟨rfl, rfl⟩
  | toggleBadDay now date =>
    rw [handleStreak]
    cases hres : toggleBadDay ⟨today, now⟩ date db with
    | error e => exact ⟨rfl, rfl⟩
    | ok db' =>
      obtain ⟨day, -, rfl⟩ := toggleBadDay_eq_ok.mp hres
      obtain ⟨rows, hrows⟩ := recomputeStreaks_frame ⟨today, now⟩ (graceEnabled db)
        db.activeStreakIds (badDayEdited ⟨today, now⟩ day db)
      rw [afterRequest, hrows]
      exact ⟨rfl, rfl⟩

theorem run_frame (today : Date) (db : Database) (reqs : List StreakRequest) :
    (reqs.foldl (handleStreak today) db).streaks = db.streaks ∧
      (reqs.foldl (handleStreak today) db).settings = db.settings :=
  Runs.foldl_invariant (I := fun db' => db'.streaks = db.streaks ∧ db'.settings = db.settings)
    (C := fun _ _ => True)
    (fun db' req h _ => ⟨(handleStreak_frame today db' req).1.trans h.1,
      (handleStreak_frame today db' req).2.trans h.2⟩)
    ⟨rfl, rfl⟩ fun _ _ => trivial

theorem run_replayed {today : Date} {db : Database} (h : Replayed today db)
    (reqs : List StreakRequest) : Replayed today (reqs.foldl (handleStreak today) db) :=
  Runs.foldl_invariant (I := Replayed today) (C := fun _ _ => True)
    (fun _ req hdb _ => handleStreak_replayed hdb req) h fun _ _ => trivial

/-! ## Whole runs -/

/-- **Streak state depends only on what is recorded.**  Start from any database in which every
active streak's row is its replay on `today`.  After each request of any sequence the same
holds.  And if two sequences end with the same entries for an active streak and the same bad
days, and the streak has a row after both, the rows show the same count and last grace date. -/
theorem streak_state_is_replay (today : Date) (db : Database) (h : Replayed today db) :
    (∀ (reqs : List StreakRequest) (n : ℕ),
      Replayed today ((reqs.take n).foldl (handleStreak today) db)) ∧
    ∀ (reqs reqs' : List StreakRequest) (streakId : ℕ) (state state' : StreakState),
      Streak.Active db streakId →
      (reqs.foldl (handleStreak today) db).streakState.lookup streakId = some state →
      (reqs'.foldl (handleStreak today) db).streakState.lookup streakId = some state' →
      (∀ d, entryOn (reqs.foldl (handleStreak today) db) streakId d =
        entryOn (reqs'.foldl (handleStreak today) db) streakId d) →
      (∀ d, IsBadDay (reqs.foldl (handleStreak today) db) d ↔
        IsBadDay (reqs'.foldl (handleStreak today) db) d) →
      state.currentStreak = state'.currentStreak ∧
        state.lastGraceUsedDate = state'.lastGraceUsedDate := by
  refine ⟨fun reqs n => run_replayed h _, ?_⟩
  intro reqs reqs' streakId state state' hactive hstate hstate' hlog hbad
  have hstreaks := (run_frame today db reqs).1
  have hstreaks' := (run_frame today db reqs').1
  have hgrace : graceEnabled (reqs.foldl (handleStreak today) db) =
      graceEnabled (reqs'.foldl (handleStreak today) db) := by
    rw [graceEnabled, graceEnabled, (run_frame today db reqs).2, (run_frame today db reqs').2]
  have hrow := (replayed_iff_consistent.mp (run_replayed h reqs)).row_eq
    (replayed_iff_consistent.mp (run_replayed h reqs')) (k := streakId)
    (by rw [Streak.Active, Database.activeStreakIds, hstreaks]; exact hactive)
    (by rw [Streak.Active, Database.activeStreakIds, hstreaks']; exact hactive)
    (by rw [shownFigures, hstate]; rfl) (by rw [shownFigures, hstate']; rfl)
    (by rw [hgrace, replayedFigures_congr hlog hbad])
  rw [shownFigures, shownFigures, hstate, hstate', Option.map_some, Option.map_some,
    Option.some.injEq, StreakState.figures, StreakState.figures, Prod.mk.injEq] at hrow
  exact hrow

/-- One active streak and nothing recorded. -/
def oneStreak : Database := { streaks := [{ id := 1 }] }

/-- Marking three days, one of them wrongly at first, from an empty log: after the fourth
request. -/
theorem streak_state_is_replay_oneStreak :
    Replayed 739623 (([.markHabit 0 "2026-01-05" 1 "pass", .markHabit 1 "2026-01-06" 1 "fail",
      .toggleBadDay 2 "2026-01-04", .markHabit 3 "2026-01-06" 1 "pass",
      .markHabit 4 "2026-01-07" 1 "pass"].take 4).foldl (handleStreak 739623) oneStreak) :=
  (streak_state_is_replay 739623 oneStreak fun _ _ _ h => absurd h (by simp [oneStreak])).1 _ 4

end EpsCloud

import EpsCloud.Routes.Calendar
import EpsCloud.Streaks.ReplayRule

/-!
# The markers of the month grid and the streak count

A cell of the grid is marked from the rows that exist on its day, whichever streak
they belong to.  The replay of a streak also gives a meaning to the days without a
row, and only the replays of active streaks are shown.  So the legend of the grid,
"every habit kept" and "one or more missed", says what the streaks count only on
some days.

* `missed_iff`, `exists_pass_iff`: what the replays make of a past day, in terms of
  its entries and of the days without one.
* `calendar_markers_iff`: the days on which the markers agree with the replays.
-/

namespace EpsCloud

open Tally

variable (db : Database) (today d : Date)

/-- The replay of a streak starts on the day or before. -/
def Started (streakId : ℕ) : Prop := ∃ first, FirstLogged db streakId first ∧ first ≤ d

/-- Some active streak's replay treats the day as a miss. -/
def Missed : Prop :=
  ∃ streakId, Streak.Active db streakId ∧ Started db d streakId ∧
    dayMark db streakId today d = .miss

/-- No active streak's replay treats the day as a miss, and some treats it as a pass. -/
def Kept : Prop :=
  ¬ Missed db today d ∧ ∃ streakId, Streak.Active db streakId ∧ Started db d streakId ∧
    dayMark db streakId today d = .pass

/-- The fail marker is shown exactly for a missed day, and the pass marker for kept days only. -/
def MarkersAgree (marks : List CalDot) : Prop :=
  (.fail ∈ marks ↔ Missed db today d) ∧ (.pass ∈ marks → Kept db today d)

/-- An active streak has this entry on the day. -/
def ActiveEntry (passed : Bool) : Prop :=
  ∃ streakId, Streak.Active db streakId ∧ entryOn db streakId d = some passed

/-- A streak that is not active any more has this entry on the day. -/
def ArchivedEntry (passed : Bool) : Prop :=
  ∃ streakId, ¬ Streak.Active db streakId ∧ entryOn db streakId d = some passed

/-- An active streak that has started has no entry on the day, and the day is not a bad one. -/
def ActiveGap : Prop :=
  ∃ streakId, Streak.Active db streakId ∧ Started db d streakId ∧
    entryOn db streakId d = none ∧ d ∉ badDays db

variable {db today d}

/-- A streak with an entry on the day has started. -/
theorem started_of_entry {streakId : ℕ} {passed : Bool}
    (h : entryOn db streakId d = some passed) : Started db d streakId := by
  have hsome : (entryOn db streakId d).isSome := by rw [h]; rfl
  rcases exists_firstLogged_or db streakId with ⟨first, hfirst⟩ | hnone
  · exact ⟨first, hfirst, hfirst.2 d hsome⟩
  · rw [entryOn, ← lookup_loggedDays, hnone] at hsome
    exact absurd hsome (by simp)

/-- A past day is a miss when it is logged as a fail, or not logged and no bad day. -/
theorem dayMark_eq_miss_iff (hpast : d < today) {streakId : ℕ} :
    dayMark db streakId today d = .miss ↔
      entryOn db streakId d = some false ∨ (entryOn db streakId d = none ∧ d ∉ badDays db) := by
  rw [dayMark]
  cases h : entryOn db streakId d with
  | none =>
    rw [if_neg (by simp)]
    by_cases hbad : d ∈ badDays db
    · rw [if_pos ⟨rfl, Or.inr hbad⟩]
      simp [hbad]
    · rw [if_neg fun h => h.2.elim hpast.ne hbad]
      simp [hbad]
  | some passed => cases passed <;> simp

theorem dayMark_eq_pass_iff {streakId : ℕ} :
    dayMark db streakId today d = .pass ↔ entryOn db streakId d = some true := by
  rw [dayMark]
  split_ifs with hpass hneutral
  · exact iff_of_true rfl hpass
  · exact iff_of_false (by decide) hpass
  · exact iff_of_false (by decide) hpass

/-- **When a past day is missed**: an active streak has a fail on it, or a gap. -/
theorem missed_iff (hpast : d < today) :
    Missed db today d ↔ ActiveEntry db d false ∨ ActiveGap db d := by
  constructor
  · rintro ⟨streakId, hactive, hstarted, hmiss⟩
    rcases (dayMark_eq_miss_iff hpast).mp hmiss with hfail | ⟨hnone, hbad⟩
    · exact Or.inl ⟨streakId, hactive, hfail⟩
    · exact Or.inr ⟨streakId, hactive, hstarted, hnone, hbad⟩
  · rintro (⟨streakId, hactive, hfail⟩ | ⟨streakId, hactive, hstarted, hnone, hbad⟩)
    · exact ⟨streakId, hactive, started_of_entry hfail,
        (dayMark_eq_miss_iff hpast).mpr (Or.inl hfail)⟩
    · exact ⟨streakId, hactive, hstarted, (dayMark_eq_miss_iff hpast).mpr (Or.inr ⟨hnone, hbad⟩)⟩

/-- An active streak passed a day when it has a pass on it. -/
theorem exists_pass_iff :
    (∃ streakId, Streak.Active db streakId ∧ Started db d streakId ∧
      dayMark db streakId today d = .pass) ↔ ActiveEntry db d true := by
  constructor
  · rintro ⟨streakId, hactive, -, hpass⟩
    exact ⟨streakId, hactive, dayMark_eq_pass_iff.mp hpass⟩
  · rintro ⟨streakId, hactive, hpass⟩
    exact ⟨streakId, hactive, started_of_entry hpass, dayMark_eq_pass_iff.mpr hpass⟩

/-- An entry belongs to an active streak or to an archived one. -/
theorem someEntry_iff (passed : Bool) :
    SomeEntry db d passed ↔ ActiveEntry db d passed ∨ ArchivedEntry db d passed := by
  constructor
  · rintro ⟨streakId, h⟩
    by_cases hactive : Streak.Active db streakId
    · exact Or.inl ⟨streakId, hactive, h⟩
    · exact Or.inr ⟨streakId, hactive, h⟩
  · rintro (⟨streakId, -, h⟩ | ⟨streakId, -, h⟩)
    · exact ⟨streakId, h⟩
    · exact ⟨streakId, h⟩

/-- **When the markers agree with the streak count.**  On a past day of a displayed month they do
exactly when an active streak has a fail on the day, or else a fail of an archived streak and a gap
of an active one come together or not at all; and when, with no fail on the day, a pass of an
archived streak comes with one of an active streak. -/
theorem calendar_markers_iff (py : TextParsers) (db : Database) (year month : ℕ)
    (page : CalendarPage) (today d : Date) (hpage : calendarMonth py db year month = .ok page)
    (hd : d ∈ page.weeks.flatten) (hpast : d < today) :
    MarkersAgree db today d (calMarks (page.days.lookup d)) ↔
      (ActiveEntry db d false ∨ (ArchivedEntry db d false ↔ ActiveGap db d)) ∧
        (¬ ActiveEntry db d false → ¬ ArchivedEntry db d false → ArchivedEntry db d true →
          ActiveEntry db d true) := by
  obtain ⟨hfail, hpass⟩ := calMarks_page hpage hd
  rw [MarkersAgree, Kept, hfail, hpass, missed_iff hpast, exists_pass_iff, someEntry_iff,
    someEntry_iff]
  by_cases hactive : ActiveEntry db d false
  · -- a fail of an active streak is a miss, and the cell shows it
    simp [hactive]
  · simp only [hactive, false_or, not_false_eq_true, true_imp_iff]
    refine and_congr_right fun hgap => ⟨fun h harchived hpass => ?_, ?_⟩
    · exact (h ⟨harchived, Or.inr hpass⟩).2
    · rintro h ⟨harchived, hpass⟩
      exact ⟨fun hg => harchived (hgap.mpr hg), hpass.elim id (h harchived)⟩

/-- Two streaks kept on 2026-01-05, and only one of them on the next day. -/
def oneForgotten : Database where
  streaks := [{ id := 1 }, { id := 2 }]
  habitLog := ((∅ : Table (Date × ℕ) HabitLog).insert (739621, 1) { passed := true }).insert
    (739621, 2) { passed := true } |>.insert (739622, 1) { passed := true }

/-- The page of January 2026. -/
def januaryPage : CalendarPage where
  weeks := monthdatescalendar 2026 1
  days := summarise asciiParsers oneForgotten (gridFirst (monthdatescalendar 2026 1))
    (gridLast (monthdatescalendar 2026 1))
  previous := stepMonth 2026 1 (-1)
  next := stepMonth 2026 1 1

/-- On 2026-01-05 the markers agree: no streak is archived, and none is forgotten that day. -/
theorem calendar_markers_iff_oneForgotten :
    MarkersAgree oneForgotten 739623 739621 (calMarks (januaryPage.days.lookup 739621)) := by
  refine (calendar_markers_iff asciiParsers oneForgotten 2026 1 januaryPage 739623 739621 rfl
    (by decide) (by decide)).mpr ?_
  have hrows : ∀ e ∈ oneForgotten.habitLog.rows, e.1.2 ∈ oneForgotten.activeStreakIds := by decide
  have hactive {k : ℕ} {d : Date} {passed : Bool} (h : entryOn oneForgotten k d = some passed) :
      Streak.Active oneForgotten k := by
    obtain ⟨row, hrow, -⟩ := Option.map_eq_some_iff.mp h
    exact hrows _ (Table.mem_rows.mpr hrow)
  have harchived (passed : Bool) : ¬ ArchivedEntry oneForgotten 739621 passed :=
    fun ⟨_, hnot, hentry⟩ => hnot (hactive hentry)
  have hlogged : ∀ k ∈ oneForgotten.activeStreakIds, entryOn oneForgotten k 739621 ≠ none := by
    decide
  have hgap : ¬ ActiveGap oneForgotten 739621 := fun ⟨k, hk, _, hnone, _⟩ => hlogged k hk hnone
  exact ⟨.inr (iff_of_false (harchived false) hgap), fun _ _ h => absurd h (harchived true)⟩

/-- The day after, the grid shows 2026-01-06 as a day on which every habit was kept, and the replay
of the second streak has missed it. -/
theorem calendar_markers_fail_oneForgotten :
    calendarMonth asciiParsers oneForgotten 2026 1 = .ok januaryPage ∧
      739622 ∈ januaryPage.weeks.flatten ∧
      calMarks (januaryPage.days.lookup 739622) = [.pass] ∧
      ¬ MarkersAgree oneForgotten 739623 739622 (calMarks (januaryPage.days.lookup 739622)) := by
  have hmarks : calMarks (januaryPage.days.lookup 739622) = [.pass] := by decide
  refine ⟨rfl, by decide, hmarks, fun h => ?_⟩
  have hkeys : (loggedDays oneForgotten 2).map Prod.fst = [739621] := by decide
  have hfirst : FirstLogged oneForgotten 2 739621 := by
    refine ⟨by decide, fun d hd => ?_⟩
    rw [← mem_keys_loggedDays, hkeys] at hd
    exact (List.mem_singleton.mp hd).ge
  have hactive : 2 ∈ oneForgotten.activeStreakIds := by decide
  have hmissed : Missed oneForgotten 739623 739622 :=
    ⟨2, hactive, ⟨739621, hfirst, by decide⟩, by decide⟩
  rw [MarkersAgree, hmarks] at h
  exact absurd (h.1.mpr hmissed) (by decide)

end EpsCloud

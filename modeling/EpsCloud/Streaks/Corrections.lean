import EpsCloud.Streaks.ReplayRule

/-!
# Corrections in the user's favour

A correction replaces what is recorded for some days by something that counts at least
as well: a pass for a fail or a gap, nothing for a fail on a bad day, a bad day for a
gap.  Such a correction can move the first logged day and can make the replay spend
its grace earlier.  It still never lowers the count or the personal record, since the
cooldown does not exceed the count from which grace is given.

* `recomputed_atMost`: two histories whose days compare, replayed from a common day.
* `correction_never_lowers`: so for every pair of histories, and for each kind of edit.
-/

namespace EpsCloud

open Tally

/-- Neither the count nor the personal record is larger. -/
def StreakState.AtMost (s t : StreakState) : Prop :=
  s.currentStreak ≤ t.currentStreak ∧ s.personalRecord ≤ t.personalRecord

theorem entryOn_eq_none_of_lt_firstDay {db : Database} {streakId : ℕ} {today d : Date}
    (hd : d < firstDay (loggedDays db streakId) today) : entryOn db streakId d = none := by
  rcases exists_firstLogged_or db streakId with ⟨first, hfirst⟩ | hnone
  · rw [firstDay_eq_of_firstLogged hfirst] at hd
    exact Option.not_isSome_iff_eq_none.mp fun hsome => absurd (hfirst.2 d hsome) (not_le.mpr hd)
  · rw [entryOn, ← lookup_loggedDays, hnone]
    rfl

/-- **Two histories of a streak whose days compare.** -/
theorem recomputed_atMost {db db' : Database} {streakId : ℕ} {clock clock' : Clock}
    {grace grace' : Bool} (htoday : clock'.today = clock.today)
    (hgrace : grace = true → grace' = true)
    (hrecord : previousRecord (db'.streakState.lookup streakId) =
      previousRecord (db.streakState.lookup streakId))
    (hmarks : ∀ d ≤ clock.today,
      dayMark db streakId clock.today d ≤ dayMark db' streakId clock.today d) :
    (recomputedStreakState db streakId clock grace).AtMost
      (recomputedStreakState db' streakId clock' grace') := by
  -- both replays as running counts from the earlier of the two first days
  obtain ⟨start, hbefore, hbefore'⟩ : ∃ start : Date,
      (∀ d < start, entryOn db streakId d = none) ∧ ∀ d < start, entryOn db' streakId d = none :=
    ⟨min (firstDay (loggedDays db streakId) clock.today)
        (firstDay (loggedDays db' streakId) clock.today),
      fun d hd => entryOn_eq_none_of_lt_firstDay (lt_of_lt_of_le hd (min_le_left _ _)),
      fun d hd => entryOn_eq_none_of_lt_firstDay (lt_of_lt_of_le hd (min_le_right _ _))⟩
  have hstart : Ahead start ⟨0, previousRecord (db.streakState.lookup streakId), none⟩
      ⟨0, previousRecord (db.streakState.lookup streakId), none⟩ :=
    ⟨le_rfl, le_rfl, fun g hg => absurd hg (by simp), fun g hg => absurd hg (by simp)⟩
  have hmin : (graceRule grace').minCount = (graceRule grace).minCount := rfl
  have hcool : (graceRule grace').cooldown = (graceRule grace).cooldown := rfl
  have hahead := run_mono hmin hcool le_rfl hgrace (clock.today + 1 - start).toNat
    (fun n hn => hmarks (start + n) (by lia)) hstart
  rw [← replay_eq_run db streakId start clock.today grace _ hbefore,
    ← replay_eq_run db' streakId start clock.today grace' _ hbefore'] at hahead
  rw [StreakState.AtMost, recomputedStreakState, recomputedStreakState, htoday, hrecord]
  exact ⟨hahead.count, hahead.best⟩

/-! ## Single edits -/

section Edits

variable {db : Database} {streakId : ℕ}

theorem dayMark_of_pass {d : Date} (h : entryOn db streakId d = some true) (today : Date) :
    dayMark db streakId today d = .pass := by
  rw [dayMark, if_pos h]

/-- No mark is better than a pass, and none worse than a miss. -/
theorem mark_le_pass (m : Mark) : m ≤ .pass := by
  cases m <;> decide

theorem miss_le_mark (m : Mark) : .miss ≤ m := by
  cases m <;> decide

/-- Logging a pass makes no day count worse. -/
theorem dayMark_le_of_logged_pass (day : Date) (row : HabitLog) (hrow : row.passed = true)
    (today d : Date) :
    dayMark db streakId today d ≤
      dayMark { db with habitLog := db.habitLog.put (day, streakId) (some row) } streakId today
        d := by
  by_cases hd : d = day
  · subst hd
    refine (mark_le_pass _).trans (le_of_eq (dayMark_of_pass ?_ today).symm)
    rw [entryOn, Table.lookup_put_self, Option.map_some, hrow]
  · have hkey : (d, streakId) ≠ (day, streakId) := fun heq => hd (Prod.mk.inj heq).1
    rw [dayMark, dayMark, entryOn, entryOn, Table.lookup_put_ne _ _ hkey]
    exact le_rfl

/-- Clearing a fail on a bad day makes no day count worse. -/
theorem dayMark_le_of_cleared_fail {day : Date} (hfail : entryOn db streakId day = some false)
    (today d : Date) :
    dayMark db streakId today d ≤
      dayMark { db with habitLog := db.habitLog.put (day, streakId) none } streakId today d := by
  by_cases hd : d = day
  · subst hd
    have hmiss : dayMark db streakId today d = .miss := by
      rw [dayMark, hfail, if_neg (by simp), if_neg (by simp)]
    rw [hmiss]
    exact miss_le_mark _
  · have hkey : (d, streakId) ≠ (day, streakId) := fun heq => hd (Prod.mk.inj heq).1
    rw [dayMark, dayMark, entryOn, entryOn, Table.lookup_put_ne _ _ hkey]
    exact le_rfl

/-- Marking a bad day makes no day count worse. -/
theorem dayMark_le_of_bad_day (day : Date) (row : DailyState) (hrow : row.badDay = true)
    (today d : Date) :
    dayMark db streakId today d ≤
      dayMark { db with dailyState := db.dailyState.put day (some row) } streakId today d := by
  have hbad : d ∈ badDays db →
      d ∈ badDays { db with dailyState := db.dailyState.put day (some row) } := by
    rw [mem_badDays, mem_badDays]
    intro h
    rw [Table.lookup_put]
    split_ifs
    · rw [Option.map_some, hrow]
    · exact h
  have hentry : entryOn { db with dailyState := db.dailyState.put day (some row) } streakId d =
      entryOn db streakId d := rfl
  rw [dayMark, dayMark, hentry]
  split_ifs with hpass hneutral hneutral' hneutral'
  · exact le_rfl
  · exact le_rfl
  · exact absurd ⟨hneutral.1, hneutral.2.imp_right hbad⟩ hneutral'
  · decide
  · exact le_rfl

end Edits

/-- **Correcting a day in the user's favour can never shorten a streak.**  Of two recorded
histories of a streak in which every day up to today counts at most as well in the first as in the
second, with the same previous record and with grace on in the second if it is in the first, the
first gives at most the count and the personal record of the second.  So logging a pass, clearing
a fail on a bad day, marking a bad day and enabling grace never lower either figure. -/
theorem correction_never_lowers :
    (∀ (db db' : Database) (streakId : ℕ) (clock clock' : Clock) (grace grace' : Bool),
      clock'.today = clock.today → (grace = true → grace' = true) →
      previousRecord (db'.streakState.lookup streakId) =
        previousRecord (db.streakState.lookup streakId) →
      (∀ d ≤ clock.today,
        dayMark db streakId clock.today d ≤ dayMark db' streakId clock.today d) →
      (recomputedStreakState db streakId clock grace).AtMost
        (recomputedStreakState db' streakId clock' grace')) ∧
    ∀ (db : Database) (streakId : ℕ) (clock : Clock) (grace : Bool) (day : Date),
      (∀ row : HabitLog, row.passed = true →
        (recomputedStreakState db streakId clock grace).AtMost (recomputedStreakState
          { db with habitLog := db.habitLog.put (day, streakId) (some row) } streakId clock
          grace)) ∧
      (entryOn db streakId day = some false → day ∈ badDays db →
        (recomputedStreakState db streakId clock grace).AtMost (recomputedStreakState
          { db with habitLog := db.habitLog.put (day, streakId) none } streakId clock grace)) ∧
      (∀ row : DailyState, row.badDay = true →
        (recomputedStreakState db streakId clock grace).AtMost (recomputedStreakState
          { db with dailyState := db.dailyState.put day (some row) } streakId clock grace)) ∧
      (recomputedStreakState db streakId clock false).AtMost
        (recomputedStreakState db streakId clock true) := by
  refine ⟨fun _ _ _ _ _ _ _ htoday hgrace hrecord hmarks =>
    recomputed_atMost htoday hgrace hrecord hmarks, ?_⟩
  intro db streakId clock grace day
  refine ⟨fun row hrow => ?_, fun hfail _ => ?_, fun row hrow => ?_, ?_⟩
  · exact recomputed_atMost rfl id rfl fun d _ => dayMark_le_of_logged_pass day row hrow _ d
  · exact recomputed_atMost rfl id rfl fun d _ => dayMark_le_of_cleared_fail hfail _ d
  · exact recomputed_atMost rfl id rfl fun d _ => dayMark_le_of_bad_day day row hrow _ d
  · exact recomputed_atMost rfl (fun h => by cases h) rfl fun d _ => le_rfl

/-- One pass, on 2026-01-06. -/
def onePass : Database :=
  { habitLog := (∅ : Table (Date × ℕ) HabitLog).put (739622, 1) (some { passed := true }) }

/-- A pass on 2026-01-07 after the one on the day before, against a gap there. -/
theorem correction_never_lowers_onePass :
    (recomputedStreakState onePass 1 ⟨739624, 0⟩ false).AtMost (recomputedStreakState
      { onePass with habitLog := onePass.habitLog.put (739623, 1) (some { passed := true }) } 1
      ⟨739624, 1⟩ true) :=
  correction_never_lowers.1 _ _ _ _ _ _ _ rfl (fun _ => rfl) rfl fun d _ =>
    dayMark_le_of_logged_pass 739623 { passed := true } rfl 739624 d

end EpsCloud

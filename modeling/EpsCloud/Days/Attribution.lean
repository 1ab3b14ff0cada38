import EpsCloud.Routes.DayView

/-!
# The day a moment belongs to

`local_day_start_utc` resolves a wall-clock midnight to a moment and
`local_date_of` reads a moment off the wall clock.  They are the two halves of a
Galois connection, so the moments of a day are exactly those from its start up to
the start of the next day, whatever the clock skips or repeats in between.

* `localDateOf_eq_iff`: the moments of a day.
* `local_day_attribution`: so a completed task is done on exactly one day, and no
  later day lists it.
-/

namespace EpsCloud

open PiecewiseOffset

/-- The row stands for the task and marks it done on the day. -/
def DayItem.ShowsDone (item : DayItem) (task : Task) : Prop :=
  ∃ ctx, item = .task ctx true ∧ ctx.task = task

/-- The row stands for the task. -/
def DayItem.Shows (item : DayItem) (task : Task) : Prop :=
  ∃ ctx doneHere, item = .task ctx doneHere ∧ ctx.task = task

/-- **The moments of a day.** -/
theorem localDateOf_eq_iff {zone : Zone} (hdate : zone.DateNeverDecreases)
    (hskip : zone.SkipsNoMidnight) (d : Date) (m : Moment) :
    localDateOf zone m = d ↔ localDayStartUtc zone d ≤ m ∧ m < localDayStartUtc zone (d + 1) :=
  eq_iff_mem_Ico_of_galoisConnection (localDayStart_galoisConnection zone hdate hskip) d m

/-- A day lists a completed task as done exactly when it was completed between the start of the
day and the start of the next one. -/
theorem showsDone_iff {zone : Zone} {db : Database} {day : Date} {now : Moment} {task : Task}
    {c : Moment} (htask : task ∈ unarchivedTasks db) (hc : task.completedAt = some c) :
    (∃ item ∈ dayItems zone db day now, item.ShowsDone task) ↔
      ¬ task.HiddenOn day ∧ localDayStartUtc zone day ≤ c ∧
        c < localDayStartUtc zone (day + 1) := by
  constructor
  · rintro ⟨item, hitem, ctx, rfl, hctx⟩
    obtain ⟨task', -, hrow⟩ := mem_dayItems_task.mp hitem
    obtain ⟨hstart, hhid, -, heq⟩ := dayItem_eq_some.mp hrow
    obtain ⟨rfl, hdone⟩ := DayItem.task.inj heq
    rw [taskCtx_task] at hctx
    subst hctx
    obtain ⟨c', hc', hlt⟩ := of_decide_eq_true hdone.symm
    obtain rfl : c' = c := Option.some.inj (hc'.symm.trans hc)
    exact ⟨hhid, hstart c' hc', hlt⟩
  · rintro ⟨hhid, hstart, hend⟩
    have hdone : ∃ c ∈ task.completedAt, c < localDayStartUtc zone (day + 1) := ⟨c, hc, hend⟩
    refine ⟨.task (taskCtx task day now) true, mem_dayItems_task.mpr ⟨task, htask, ?_⟩, _, rfl,
      taskCtx_task task day now⟩
    refine dayItem_eq_some.mpr ⟨fun c' hc' => ?_, hhid, Or.inl hdone, ?_⟩
    · obtain rfl : c' = c := Option.some.inj (hc'.symm.trans hc)
      exact hstart
    · rw [decide_eq_true hdone]

/-- A day that starts after the completion does not list the task. -/
theorem not_shows_of_lt_start {zone : Zone} {db : Database} {day : Date} {now : Moment}
    {task : Task} {c : Moment} (hc : task.completedAt = some c)
    (hlt : c < localDayStartUtc zone day) :
    ∀ item ∈ dayItems zone db day now, ¬ item.Shows task := by
  rintro item hitem ⟨ctx, doneHere, rfl, hctx⟩
  obtain ⟨task', -, hrow⟩ := mem_dayItems_task.mp hitem
  obtain ⟨hstart, -, -, heq⟩ := dayItem_eq_some.mp hrow
  obtain ⟨rfl, -⟩ := DayItem.task.inj heq
  rw [taskCtx_task] at hctx
  subst hctx
  exact absurd (hstart c hc) (not_le.mpr hlt)

/-- **Local-day attribution is consistent.**  In a zone whose local date never goes back and
that skips no local midnight strictly inside, a moment falls on a day exactly when it lies
between the start of the day and the start of the next.  So a completed task that is not
archived, and not hidden on the day it was completed, is done on exactly that day, and no
later day lists it. -/
theorem local_day_attribution (zone : Zone) (hdate : zone.DateNeverDecreases)
    (hskip : zone.SkipsNoMidnight) :
    (∀ (d : Date) (m : Moment), localDateOf zone m = d ↔
      localDayStartUtc zone d ≤ m ∧ m < localDayStartUtc zone (d + 1)) ∧
    ∀ (db : Database) (now : Moment) (task : Task) (c : Moment), task ∈ db.tasks →
      task.archivedAt = none → task.completedAt = some c →
      (¬ task.HiddenOn (localDateOf zone c) → ∀ day,
        (∃ item ∈ dayItems zone db day now, item.ShowsDone task) ↔ day = localDateOf zone c) ∧
      ∀ day, localDateOf zone c < day →
        ∀ item ∈ dayItems zone db day now, ¬ item.Shows task := by
  refine ⟨localDateOf_eq_iff hdate hskip, fun db now task c htask harchived hc => ⟨?_, ?_⟩⟩
  · intro hhid day
    have hmem : task ∈ unarchivedTasks db := mem_unarchivedTasks.mpr ⟨htask, harchived⟩
    rw [showsDone_iff hmem hc, ← localDateOf_eq_iff hdate hskip]
    constructor
    · rintro ⟨-, h⟩
      exact h.symm
    · rintro rfl
      exact ⟨hhid, rfl⟩
  · intro day hday
    have hlt : c < localDayStartUtc zone day := by
      have hgc := localDayStart_galoisConnection zone hdate hskip day c
      exact not_le.mp fun hle => absurd (hgc.mp hle) (not_le.mpr hday)
    exact not_shows_of_lt_start hc hlt

/-- Samoa at the end of 2011: from UTC-10 to UTC+14, so that 2011-12-30 never happened. -/
def samoa : Zone :=
  ⟨-36000000000, [(734501 * dayLength + 36000000000, 50400000000)], List.pairwise_singleton _ _⟩

theorem utcoffset_samoa (m : Moment) :
    samoa.utcoffset m =
      if m < 734501 * dayLength + 36000000000 then -36000000000 else 50400000000 := rfl

theorem samoa_dateNeverDecreases : samoa.DateNeverDecreases := by
  intro m m' h
  refine Int.ediv_le_ediv dayLength_pos ?_
  rw [utcoffset_samoa, utcoffset_samoa]
  split_ifs <;> lia

theorem samoa_skipsNoMidnight : samoa.SkipsNoMidnight := by
  intro j hj day
  obtain rfl := List.mem_singleton.mp hj
  have hinitial : samoa.initial = -36000000000 := rfl
  simp only [dayLength, hinitial]
  lia

/-- A task completed at the moment of the change. -/
def samoaTask : Task :=
  { id := 1, name := "close the year", scheduledFor := some 734502, lastUserInteractionAt := 0,
    createdAt := 0, completedAt := some (734501 * dayLength + 36000000000) }

/-- The day after the skipped one starts at the change, and the task is done on it. -/
theorem local_day_attribution_samoa :
    localDayStartUtc samoa 734502 ≤ 734501 * dayLength + 36000000000 ∧
      ∃ item ∈ dayItems samoa { tasks := [samoaTask] } 734502 0, item.ShowsDone samoaTask := by
  have h := local_day_attribution samoa samoa_dateNeverDecreases samoa_skipsNoMidnight
  have hdate : localDateOf samoa (734501 * dayLength + 36000000000) = 734502 := by decide
  refine ⟨((h.1 _ _).mp hdate).1, ?_⟩
  refine ((h.2 { tasks := [samoaTask] } 0 samoaTask _ List.mem_cons_self rfl rfl).1 ?_ 734502).mpr
    hdate.symm
  decide

end EpsCloud

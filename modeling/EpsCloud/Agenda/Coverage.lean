import EpsCloud.Library.Selection
import EpsCloud.Routes.Agenda

/-!
# Which open tasks the agenda shows

`build_agenda` and `day_list` run over the open tasks separately.  Each of the
three blocks is a selection from the same list, so how often a task is shown is
the number of the three conditions that it meets.

* `agenda_covers_iff`: the agenda accounts for every task it has to account for
  exactly when each of them is vital, has a deadline that has passed, or has its
  day inside the coming week.  A task that was planned for a day gone by, and is
  not yet past a deadline, is in none of the blocks.
* `tasks_of_upcomingByDay`: a group of the preview holds the tasks of its day.
-/

namespace EpsCloud

open KeySort Grouping Selection

/-- A task that the agenda of `today` has to account for. -/
structure Task.InScope (task : Task) (today : Date) : Prop where
  notArchived : task.archivedAt = none
  notCompleted : task.completedAt = none
  notHidden : ¬ task.HiddenOn today
  near : task.vital = true ∨ (∃ d ∈ task.scheduledFor, d ≤ today + upcomingDays) ∨
    ∃ d ∈ task.deadline, d ≤ today + upcomingDays

/-- The tasks among the rows of a day list. -/
def tasksOf (rows : List Row) : List Task :=
  rows.filterMap fun
    | .task ctx => some ctx.task
    | _ => none

/-- The tasks of the overdue block, of the day list, and of the upcoming groups before they
are trimmed. -/
def shownTasks (zone : Zone) (db : Database) (today : Date) (now : Moment) : List Task :=
  let agenda := buildAgenda zone db today now
  agenda.overdue.map TaskCtx.task ++ tasksOf agenda.day ++
    ((upcomingByDay db.tasks today now).flatMap Prod.snd).map TaskCtx.task

/-- A group shows the first rows of its day, by key, and counts the rest as hidden. -/
def UpcomingGroup.TrimmedFrom (group : UpcomingGroup) (rows : List TaskCtx) : Prop :=
  ∃ inOrder : List TaskCtx, inOrder.Perm rows ∧
    inOrder.Pairwise (fun a b => effectiveKey (.task a) ≤ effectiveKey (.task b)) ∧
    group.rows = inOrder.take upcomingPerDay ∧ group.rows.length + group.hidden = rows.length

/-- No open task is lost or duplicated, and completed tasks stand in the finished block only. -/
structure AgendaCovers (zone : Zone) (db : Database) (today : Date) (now : Moment) : Prop where
  once : ∀ task ∈ db.tasks, task.InScope today →
    (shownTasks zone db today now).count task = 1
  trimmed : List.Forall₂ (fun group day => group.date = day.1 ∧ group.TrimmedFrom day.2)
    (buildAgenda zone db today now).upcoming (sortByKey Prod.fst (upcomingByDay db.tasks today now))
  completed : ∀ task ∈ db.tasks, task.completedAt.isSome →
    task ∉ shownTasks zone db today now ∧
    (task ∈ (buildAgenda zone db today now).finished.map TaskCtx.task ↔
      task.archivedAt = none ∧ ∃ c ∈ task.completedAt, localDayStartUtc zone today ≤ c)

/-! ## The three selections -/

theorem overdueTask_eq_some {today : Date} {now : Moment} {task : Task} {ctx : TaskCtx} :
    overdueTask today now task = some ctx ↔
      (¬ task.HiddenOn today ∧ overdueDays task today ≠ 0) ∧ taskCtx task today now = ctx := by
  rw [overdueTask]
  by_cases hhid : task.HiddenOn today
  · simp [hhid]
  · by_cases hover : overdueDays task today ≠ 0
    · simp [hhid, hover]
    · simp [hover]

theorem upcomingTask_eq_some {today : Date} {now : Moment} {task : Task}
    {row : Date × TaskCtx} :
    upcomingTask today now task = some row ↔
      (¬ task.HiddenOn today ∧ overdueDays task today = 0 ∧ task.vital = false ∧
        task.day = some row.1 ∧ today < row.1 ∧ row.1 ≤ today + upcomingDays) ∧
      taskCtx task today now = row.2 := by
  obtain ⟨day, ctx⟩ := row
  rw [upcomingTask]
  by_cases hhid : task.HiddenOn today
  · simp [hhid]
  · by_cases hover : overdueDays task today ≠ 0
    · simp [hover]
    · cases hday : task.day with
      | none => simp [hhid, hover]
      | some d =>
        simp only [hhid, if_false, hover, Option.some.injEq]
        constructor
        · intro h
          split_ifs at h with hwindow
          obtain ⟨rfl, rfl⟩ := Prod.mk.inj (Option.some.inj h)
          exact ⟨⟨not_false, not_not.mp hover, hwindow.1, rfl, hwindow.2⟩, rfl⟩
        · rintro ⟨⟨-, -, hvital, rfl, hwindow⟩, rfl⟩
          rw [if_pos ⟨hvital, hwindow⟩]

theorem carries_overdueTask (today : Date) (now : Moment) :
    Carries (overdueTask today now) TaskCtx.task := by
  intro task ctx h
  rw [← (overdueTask_eq_some.mp h).2, taskCtx_task]

theorem carries_dayTask (today : Date) (now : Moment) :
    Carries (dayTask today now) TaskCtx.task := by
  intro task ctx h
  rw [← (dayTask_eq_some.mp h).2, taskCtx_task]

theorem carries_upcomingTask (today : Date) (now : Moment) :
    Carries (upcomingTask today now) (fun row => row.2.task) := by
  intro task row h
  show row.2.task = task
  rw [← (upcomingTask_eq_some.mp h).2, taskCtx_task]

/-- The tasks of the overdue block are those that the first branch selects. -/
theorem overdue_tasks_perm (zone : Zone) (db : Database) (today : Date) (now : Moment) :
    ((buildAgenda zone db today now).overdue.map TaskCtx.task).Perm
      (((openTasks db.tasks).filterMap (overdueTask today now)).map TaskCtx.task) :=
  (sortByKey_perm _ _).map _

/-- The tasks of the day list are those that `day_list`'s loop selects. -/
theorem tasksOf_dayList_perm (db : Database) (today : Date) (now : Moment) :
    (tasksOf (dayList db today now)).Perm
      (((openTasks db.tasks).filterMap (dayTask today now)).map TaskCtx.task) := by
  refine ((sortByKey_perm effectiveKey _).filterMap _).trans (List.Perm.of_eq ?_)
  have hevents : tasksOf ((db.calendarCache.filter fun e => e.date = today).map .event) = [] := by
    rw [tasksOf, List.filterMap_map]
    exact List.filterMap_eq_nil_iff.mpr fun e _ => rfl
  have htrackers : tasksOf ((activeTrackers db).filterMap (dayTracker db today)) = [] := by
    rw [tasksOf, List.filterMap_filterMap]
    refine List.filterMap_eq_nil_iff.mpr fun tracker _ => ?_
    rw [dayTracker]
    split
    · rfl
    · split_ifs
      · cases trackerStatus tracker _ _ <;> rfl
      · rfl
  have htasks : tasksOf ((openTasks db.tasks).filterMap fun t => (dayTask today now t).map .task) =
      ((openTasks db.tasks).filterMap (dayTask today now)).map TaskCtx.task := by
    rw [tasksOf, List.filterMap_filterMap, List.map_filterMap]
    refine List.filterMap_congr fun t _ => ?_
    cases dayTask today now t <;> rfl
  rw [tasksOf] at hevents htrackers htasks
  rw [List.filterMap_append, List.filterMap_append, hevents, htrackers, htasks, List.append_nil,
    List.append_nil]

/-- The tasks of the upcoming groups are those that the second branch selects. -/
theorem upcoming_tasks_perm (db : Database) (today : Date) (now : Moment) :
    (((upcomingByDay db.tasks today now).flatMap Prod.snd).map TaskCtx.task).Perm
      (((openTasks db.tasks).filterMap (upcomingTask today now)).map fun row => row.2.task) := by
  have h := (flatMap_collect_perm ((openTasks db.tasks).filterMap (upcomingTask today now))).map
    TaskCtx.task
  rw [List.map_map] at h
  exact h

/-- The rows that are collected under a day are those of the open tasks that are previewed under
it, in the order of the query. -/
theorem tasks_of_valuesOf (tasks : List Task) (today day : Date) (now : Moment) :
    (valuesOf day ((openTasks tasks).filterMap (upcomingTask today now))).map TaskCtx.task =
      (openTasks tasks).filter fun t =>
        (upcomingTask today now t).any fun row => row.1 = day := by
  have hcarries : Carries (fun t => (upcomingTask today now t).filter fun row => row.1 = day)
      (fun row => row.2.task) := by
    intro task row hrow
    exact carries_upcomingTask today now task row ((Option.mem_filter_iff.mp hrow).1)
  rw [valuesOf, List.map_map, List.filter_filterMap]
  refine (map_filterMap_eq_filter hcarries (openTasks tasks)).trans ?_
  refine List.filter_congr fun task _ => ?_
  exact Option.isSome_filter

/-- **A group of the preview** holds the open tasks that are previewed under its day, in the order
of the query. -/
theorem tasks_of_upcomingByDay {tasks : List Task} {today day : Date} {now : Moment}
    {rows : List TaskCtx} (h : (day, rows) ∈ upcomingByDay tasks today now) :
    rows.map TaskCtx.task = (openTasks tasks).filter fun t =>
      (upcomingTask today now t).any fun row => row.1 = day := by
  rw [(mem_collect_iff.mp h).1, tasks_of_valuesOf]

/-! ## How often a task is shown -/

/-- **A task is shown once for each of the three conditions that it meets.** -/
theorem count_shownTasks (zone : Zone) {db : Database} (hids : (db.tasks.map Task.id).Nodup)
    (today : Date) (now : Moment) {task : Task} (htask : task ∈ openTasks db.tasks) :
    (shownTasks zone db today now).count task =
      (if (overdueTask today now task).isSome then 1 else 0) +
      (if (dayTask today now task).isSome then 1 else 0) +
      (if (upcomingTask today now task).isSome then 1 else 0) := by
  have hnodup : (openTasks db.tasks).Nodup := hids.of_map.filter _
  have hday : ((buildAgenda zone db today now).day) = dayList db today now := rfl
  rw [shownTasks, List.count_append, List.count_append, hday,
    (overdue_tasks_perm zone db today now).count_eq, (tasksOf_dayList_perm db today now).count_eq,
    (upcoming_tasks_perm db today now).count_eq,
    count_map_filterMap (carries_overdueTask today now) hnodup htask,
    count_map_filterMap (carries_dayTask today now) hnodup htask,
    count_map_filterMap (carries_upcomingTask today now) hnodup htask]

/-- Only open tasks are shown. -/
theorem mem_openTasks_of_mem_shownTasks {zone : Zone} {db : Database} {today : Date} {now : Moment}
    {task : Task} (h : task ∈ shownTasks zone db today now) : task ∈ openTasks db.tasks := by
  rw [shownTasks, List.mem_append, List.mem_append] at h
  rcases h with (h | h) | h
  · exact ((mem_map_filterMap (carries_overdueTask today now)).mp
      ((overdue_tasks_perm zone db today now).mem_iff.mp h)).1
  · exact ((mem_map_filterMap (carries_dayTask today now)).mp
      ((tasksOf_dayList_perm db today now).mem_iff.mp h)).1
  · exact ((mem_map_filterMap (carries_upcomingTask today now)).mp
      ((upcoming_tasks_perm db today now).mem_iff.mp h)).1

theorem overdueTask_isSome_iff {today : Date} {now : Moment} {task : Task} :
    (overdueTask today now task).isSome ↔
      ¬ task.HiddenOn today ∧ overdueDays task today ≠ 0 := by
  simp only [Option.isSome_iff_exists, overdueTask_eq_some, exists_and_left, exists_eq', and_true]

theorem dayTask_isSome_iff {today : Date} {now : Moment} {task : Task} :
    (dayTask today now task).isSome ↔
      ¬ task.HiddenOn today ∧ overdueDays task today = 0 ∧
        (task.day = some today ∨ task.vital = true) := by
  simp only [Option.isSome_iff_exists, dayTask_eq_some, exists_and_left, exists_eq', and_true]

theorem upcomingTask_isSome_iff {today : Date} {now : Moment} {task : Task} :
    (upcomingTask today now task).isSome ↔
      ¬ task.HiddenOn today ∧ overdueDays task today = 0 ∧ task.vital = false ∧
        ∃ d ∈ task.day, today < d ∧ d ≤ today + upcomingDays := by
  rw [Option.isSome_iff_exists]
  constructor
  · rintro ⟨row, hrow⟩
    obtain ⟨⟨hhid, hover, hvital, hday, hwindow⟩, -⟩ := upcomingTask_eq_some.mp hrow
    exact ⟨hhid, hover, hvital, row.1, hday, hwindow⟩
  · rintro ⟨hhid, hover, hvital, d, hday, hwindow⟩
    exact ⟨(d, taskCtx task today now),
      upcomingTask_eq_some.mpr ⟨⟨hhid, hover, hvital, hday, hwindow⟩, rfl⟩⟩

/-- **Shown once.**  Of the open tasks that are not hidden, those are shown exactly once that
are vital, or past a deadline, or have their day inside the coming week. -/
theorem count_shownTasks_eq_one_iff (zone : Zone) {db : Database}
    (hids : (db.tasks.map Task.id).Nodup) (today : Date) (now : Moment) {task : Task}
    (htask : task ∈ db.tasks) (hscope : task.InScope today) :
    (shownTasks zone db today now).count task = 1 ↔
      task.vital = true ∨ (∃ d ∈ task.deadline, d < today) ∨
        ∃ d ∈ task.day, today ≤ d ∧ d ≤ today + upcomingDays := by
  have hopen : task ∈ openTasks db.tasks :=
    mem_openTasks.mpr ⟨htask, hscope.notArchived, hscope.notCompleted⟩
  rw [count_shownTasks zone hids today now hopen]
  simp only [overdueTask_isSome_iff, dayTask_isSome_iff, upcomingTask_isSome_iff,
    hscope.notHidden, not_false_iff, true_and]
  by_cases hover : overdueDays task today = 0
  · have hpast : ¬ ∃ d ∈ task.deadline, d < today := fun h =>
      overdueDays_ne_zero_iff.mpr ⟨hscope.notCompleted, h⟩ hover
    cases hvital : task.vital with
    | true => simp [hover]
    | false =>
      cases hday : task.day with
      | none =>
        simp only [hover, hpast]
        simp
      | some d =>
        simp only [hover, hpast, Option.some.injEq, Option.mem_some_iff, exists_eq_left']
        by_cases hd : d = today
        · subst hd
          simp [upcomingDays]
        · have hlt : today ≤ d ↔ today < d :=
            ⟨fun h => lt_of_le_of_ne h fun e => hd e.symm, le_of_lt⟩
          simp [hd, hlt]
  · have hpast := (overdueDays_ne_zero_iff.mp hover).2
    simp only [hpast]
    simp [hover]

/-! ## The agenda as a whole -/

theorem trimmedFrom_upcomingGroup (today : Date) (group : Date × List TaskCtx) :
    (upcomingGroup today group).TrimmedFrom group.2 := by
  refine ⟨sortByKey (fun ctx => effectiveKey (.task ctx)) group.2, sortByKey_perm _ _, ?_, rfl, ?_⟩
  · exact pairwise_sortByKey _ _
  · show (List.take _ _).length + (_ - upcomingPerDay) = _
    rw [List.length_take, length_sortByKey]
    omega

theorem mem_finished_iff (zone : Zone) (db : Database) (today : Date) (now : Moment) (task : Task) :
    task ∈ (buildAgenda zone db today now).finished.map TaskCtx.task ↔
      task ∈ db.tasks ∧ task.archivedAt = none ∧
        ∃ c ∈ task.completedAt, localDayStartUtc zone today ≤ c := by
  have h : (buildAgenda zone db today now).finished.map TaskCtx.task =
      finishedTasks zone db.tasks today := by
    show ((finishedTasks zone db.tasks today).map (taskCtx · today now)).map TaskCtx.task = _
    rw [List.map_map]
    exact List.map_id _
  rw [h, finishedTasks, List.mem_filter, Bool.and_eq_true, Option.isNone_iff_eq_none]
  cases task.completedAt <;> simp

/-- **What the agenda covers.**  No open task that the agenda has to account for is lost or
duplicated exactly when each of them is vital, or is past a deadline, or has its day, the
planned one before the deadline, inside the coming week. -/
theorem agenda_covers_iff (zone : Zone) (db : Database) (today : Date) (now : Moment)
    (hids : (db.tasks.map Task.id).Nodup) :
    AgendaCovers zone db today now ↔
      ∀ task ∈ db.tasks, task.InScope today →
        task.vital = true ∨ (∃ d ∈ task.deadline, d < today) ∨
          ∃ d ∈ task.day, today ≤ d ∧ d ≤ today + upcomingDays := by
  constructor
  · intro h task htask hscope
    exact (count_shownTasks_eq_one_iff zone hids today now htask hscope).mp
      (h.once task htask hscope)
  · intro h
    refine ⟨fun task htask hscope => ?_, ?_, fun task htask hdone => ⟨fun hmem => ?_, ?_⟩⟩
    · exact (count_shownTasks_eq_one_iff zone hids today now htask hscope).mpr
        (h task htask hscope)
    · show List.Forall₂ _ ((sortByKey Prod.fst _).map (upcomingGroup today)) _
      rw [List.forall₂_map_left_iff]
      exact List.forall₂_same.mpr fun group _ => ⟨rfl, trimmedFrom_upcomingGroup today group⟩
    · rw [(mem_openTasks.mp (mem_openTasks_of_mem_shownTasks hmem)).2.2] at hdone
      exact absurd hdone (by simp)
    · rw [mem_finished_iff]
      exact ⟨fun h => h.2, fun h => ⟨htask, h⟩⟩

/-- A task due on 2026-01-05, a vital one, and one planned for 2026-01-09. -/
def coveredTasks : Database :=
  { tasks := [{ id := 1, name := "file taxes", deadline := some 739621, lastUserInteractionAt := 0,
                createdAt := 0 },
              { id := 2, name := "call", scheduledFor := some 739600, vital := true,
                lastUserInteractionAt := 0, createdAt := 0 },
              { id := 3, name := "visit", scheduledFor := some 739625, lastUserInteractionAt := 0,
                createdAt := 0 }] }

theorem agenda_covers_iff_coveredTasks : AgendaCovers utcZone coveredTasks 739622 0 :=
  (agenda_covers_iff utcZone coveredTasks 739622 0 (by decide)).mpr fun task htask _ => by
    simp only [coveredTasks, List.mem_cons, List.not_mem_nil, or_false] at htask
    rcases htask with rfl | rfl | rfl
    · exact Or.inr (Or.inl ⟨739621, rfl, by decide⟩)
    · exact Or.inl rfl
    · exact Or.inr (Or.inr ⟨739625, rfl, by decide, by decide⟩)

/-- A task that was planned for 2026-01-05. -/
def plannedTask : Task :=
  { id := 1, name := "water plants", scheduledFor := some 739621, lastUserInteractionAt := 0,
    createdAt := 0 }

/-- On the day after, the task that was not done when it was planned is nowhere on the agenda. -/
theorem agenda_loses_plannedTask : ¬ AgendaCovers utcZone { tasks := [plannedTask] } 739622 0 := by
  intro h
  have hscope : plannedTask.InScope 739622 :=
    ⟨rfl, rfl, by decide, Or.inr (Or.inl ⟨739621, rfl, by decide⟩)⟩
  have honce := h.once plannedTask List.mem_cons_self hscope
  exact absurd honce (by decide)

end EpsCloud

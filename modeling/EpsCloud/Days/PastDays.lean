import EpsCloud.Routes.DayView

/-!
# A past day, seen after its tasks were finished

`day_items` lists a task that was finished after the viewed day as an open one,
while `task_ctx` asks whether the task is finished at all.  The two disagree in
the number of days that the task was overdue on that day.

* `dayItem_reopened`, `dayItem_finished_later`: the rows of an open task and of the
  same task finished after the day.
* `past_day_unchanged_iff`: finishing a task after a day leaves the day's page
  exactly when the task is not on it, or was not overdue by then.
-/

namespace EpsCloud

open KeySort

/-- What a reader of the page sees of a row: what it is, whether it is done, and the days it is
overdue.  The place on the page is the place in the list. -/
inductive ShownItem where
  | task (id : ℕ) (doneHere : Bool) (overdueDays : ℤ)
  | event (eventId : String)
  deriving DecidableEq, Repr

/-- What is seen of a row. -/
def DayItem.shown : DayItem → ShownItem
  | .task ctx doneHere => .task ctx.task.id doneHere ctx.overdueDays
  | .event e => .event e.eventId

/-- The page of a day, as a reader sees it. -/
def shownDay (zone : Zone) (db : Database) (day : Date) (now : Moment) : List ShownItem :=
  (dayItems zone db day now).map DayItem.shown

/-- The task as if it were not completed. -/
def Task.reopened (task : Task) : Task := { task with completedAt := none }

/-- A completed task is not overdue. -/
theorem overdueDays_of_completed {task : Task} {c : Moment} (hc : task.completedAt = some c)
    (today : Date) : overdueDays task today = 0 := by
  by_contra h
  have hnone := (overdueDays_ne_zero_iff.mp h).1
  rw [hc] at hnone
  exact absurd hnone (by simp)

/-! ## The two rows -/

/-- The row of the open task. -/
theorem dayItem_reopened {zone : Zone} {day : Date} {now : Moment} {task : Task}
    {item : DayItem} :
    dayItem zone day now task.reopened = some item ↔
      task.ListedWhenOpen zone day ∧ item = .task (taskCtx task.reopened day now) false := by
  have hopen : ∀ d : Moment, ¬ ∃ c ∈ task.reopened.completedAt, c < d := by
    rintro d ⟨c, hc, -⟩
    exact absurd hc (by simp [Task.reopened])
  rw [dayItem_eq_some, decide_eq_false (hopen _)]
  constructor
  · rintro ⟨-, -, hlisted, hitem⟩
    exact ⟨hlisted.resolve_left (hopen _), hitem⟩
  · rintro ⟨hlisted, hitem⟩
    exact ⟨fun c hc => absurd hc (by simp [Task.reopened]), hlisted.1, Or.inr hlisted, hitem⟩

/-- The row of the task finished after the day. -/
theorem dayItem_finished_later {zone : Zone} {day : Date} {now : Moment} {task : Task} {c : Moment}
    (hc : task.completedAt = some c) (hend : localDayStartUtc zone (day + 1) ≤ c)
    {item : DayItem} :
    dayItem zone day now task = some item ↔
      localDayStartUtc zone day ≤ c ∧ task.ListedWhenOpen zone day ∧
        item = .task (taskCtx task day now) false := by
  have hnot : ¬ ∃ c' ∈ task.completedAt, c' < localDayStartUtc zone (day + 1) := by
    rintro ⟨c', hc', hlt⟩
    obtain rfl : c' = c := Option.some.inj (hc'.symm.trans hc)
    exact absurd hend (not_le.mpr hlt)
  rw [dayItem_eq_some, decide_eq_false hnot]
  constructor
  · rintro ⟨hstart, -, hlisted, hitem⟩
    exact ⟨hstart c hc, hlisted.resolve_left hnot, hitem⟩
  · rintro ⟨hstart, hlisted, hitem⟩
    refine ⟨fun c' hc' => ?_, hlisted.1, Or.inr hlisted, hitem⟩
    obtain rfl : c' = c := Option.some.inj (hc'.symm.trans hc)
    exact hstart

/-- The two rows stand at the same key. -/
theorem sortKey_reopened (task : Task) (day : Date) (now : Moment) (doneHere : Bool) :
    (DayItem.task (taskCtx task.reopened day now) doneHere).sortKey =
      (DayItem.task (taskCtx task day now) doneHere).sortKey := rfl

/-! ## The two pages -/

/-- The rows of a day, split at one of its tasks, before they are sorted. -/
theorem dayItems_split (zone : Zone) (db : Database) (before after : List Task) (task : Task)
    (harchived : task.archivedAt = none) (day : Date) (now : Moment) :
    dayItems zone { db with tasks := before ++ task :: after } day now =
      sortByKey DayItem.sortKey
        ((before.filter fun t => t.archivedAt.isNone).filterMap (dayItem zone day now) ++
          (dayItem zone day now task).toList ++
          ((after.filter fun t => t.archivedAt.isNone).filterMap (dayItem zone day now) ++
            (db.calendarCache.filter fun e => e.date = day).map .event)) := by
  rw [dayItems, unarchivedTasks, List.filter_append,
    List.filter_cons_of_pos (by rw [harchived]; rfl), List.filterMap_append]
  cases hrow : dayItem zone day now task with
  | none =>
    rw [List.filterMap_cons_none hrow, Option.toList_none, List.append_nil, List.append_assoc]
  | some item =>
    rw [List.filterMap_cons_some hrow, Option.toList_some, List.append_assoc, List.append_assoc]
    rfl

/-- Two pages that differ in the row of one task look the same exactly when the two rows do. -/
theorem shown_sorted_eq_iff {front back : List DayItem} {row row' : Option DayItem}
    (hkeys : row.map DayItem.shown = row'.map DayItem.shown →
      row.map DayItem.sortKey = row'.map DayItem.sortKey) :
    (sortByKey DayItem.sortKey (front ++ row.toList ++ back)).map DayItem.shown =
        (sortByKey DayItem.sortKey (front ++ row'.toList ++ back)).map DayItem.shown ↔
      row.map DayItem.shown = row'.map DayItem.shown := by
  constructor
  · intro h
    have hperm : ((front ++ row.toList ++ back).map DayItem.shown).Perm
        ((front ++ row'.toList ++ back).map DayItem.shown) :=
      ((sortByKey_perm _ _).map _).symm.trans
        ((List.Perm.of_eq h).trans ((sortByKey_perm _ _).map _))
    rw [List.map_append, List.map_append, List.map_append, List.map_append,
      List.perm_append_right_iff, List.perm_append_left_iff] at hperm
    -- a list of at most one row is the only arrangement of itself
    cases row with
    | none =>
      cases row' with
      | none => rfl
      | some item' => exact absurd (List.nil_perm.mp hperm) (by simp)
    | some item =>
      cases row' with
      | none => exact absurd (List.perm_nil.mp hperm) (by simp)
      | some item' => exact congrArg some (List.singleton_perm_singleton.mp hperm)
  · intro h
    refine map_sortByKey_congr ?_
    have hrow : row.toList.map (fun a => (a.sortKey, a.shown)) =
        row'.toList.map fun a => (a.sortKey, a.shown) := by
      have hkey := hkeys h
      cases row with
      | none =>
        cases row' with
        | none => rfl
        | some item' => exact absurd h (by simp)
      | some item =>
        cases row' with
        | none => exact absurd h (by simp)
        | some item' =>
          show [(item.sortKey, item.shown)] = [(item'.sortKey, item'.shown)]
          rw [Option.some.inj hkey, Option.some.inj h]
    rw [List.map_append, List.map_append, List.map_append, List.map_append, hrow]

/-- **The two rows look the same** exactly when the open task is not listed, or is listed in
both cases and not past its deadline. -/
theorem shown_row_eq_iff {zone : Zone} {day : Date} {task : Task} {c : Moment}
    (hc : task.completedAt = some c) (hend : localDayStartUtc zone (day + 1) ≤ c) (now : Moment) :
    (dayItem zone day now task).map DayItem.shown =
        (dayItem zone day now task.reopened).map DayItem.shown ↔
      (task.ListedWhenOpen zone day →
        localDayStartUtc zone day ≤ c ∧ ∀ d ∈ task.deadline, day ≤ d) := by
  by_cases hlisted : task.ListedWhenOpen zone day
  · have hopen : dayItem zone day now task.reopened =
        some (.task (taskCtx task.reopened day now) false) := dayItem_reopened.mpr ⟨hlisted, rfl⟩
    rw [hopen]
    by_cases hstart : localDayStartUtc zone day ≤ c
    · have hrow : dayItem zone day now task = some (.task (taskCtx task day now) false) :=
        (dayItem_finished_later hc hend).mpr ⟨hstart, hlisted, rfl⟩
      have hshown : (DayItem.task (taskCtx task day now) false).shown =
          (DayItem.task (taskCtx task.reopened day now) false).shown ↔
            overdueDays task.reopened day = 0 := by
        rw [DayItem.shown, DayItem.shown, taskCtx_overdueDays, taskCtx_overdueDays,
          overdueDays_of_completed hc, ShownItem.task.injEq]
        exact ⟨fun h => h.2.2.symm, fun h => ⟨rfl, rfl, h.symm⟩⟩
      have hzero : overdueDays task.reopened day = 0 ↔ ∀ d ∈ task.deadline, day ≤ d := by
        rw [← not_iff_not, ← ne_eq, overdueDays_ne_zero_iff]
        simp [Task.reopened]
      rw [hrow, Option.map_some, Option.map_some, Option.some.injEq, hshown, hzero]
      exact ⟨fun h _ => ⟨hstart, h⟩, fun h => (h hlisted).2⟩
    · have hrow : dayItem zone day now task = none := Option.eq_none_iff_forall_ne_some.mpr
        fun item hitem => hstart ((dayItem_finished_later hc hend).mp hitem).1
      rw [hrow]
      exact ⟨fun h => absurd h (by simp), fun h => absurd (h hlisted).1 hstart⟩
  · have hrow : dayItem zone day now task = none := Option.eq_none_iff_forall_ne_some.mpr
      fun item hitem => hlisted ((dayItem_finished_later hc hend).mp hitem).2.1
    have hopen : dayItem zone day now task.reopened = none :=
      Option.eq_none_iff_forall_ne_some.mpr fun item hitem =>
        hlisted (dayItem_reopened.mp hitem).1
    rw [hrow, hopen]
    exact ⟨fun _ h => absurd h hlisted, fun _ => rfl⟩

/-- Rows that look the same stand at the same key. -/
theorem sortKey_row_eq {zone : Zone} {day : Date} {task : Task} {c : Moment}
    (hc : task.completedAt = some c) (hend : localDayStartUtc zone (day + 1) ≤ c) (now : Moment)
    (h : (dayItem zone day now task).map DayItem.shown =
      (dayItem zone day now task.reopened).map DayItem.shown) :
    (dayItem zone day now task).map DayItem.sortKey =
      (dayItem zone day now task.reopened).map DayItem.sortKey := by
  cases hrow : dayItem zone day now task with
  | none =>
    rw [hrow, Option.map_none, eq_comm, Option.map_eq_none_iff] at h
    rw [h]
  | some item =>
    obtain ⟨-, hlisted, rfl⟩ := (dayItem_finished_later hc hend).mp hrow
    have hopen : dayItem zone day now task.reopened =
        some (.task (taskCtx task.reopened day now) false) := dayItem_reopened.mpr ⟨hlisted, rfl⟩
    rw [hopen, Option.map_some, Option.map_some, sortKey_reopened]

/-- **A past day after its tasks were finished.**  Let an unarchived task be completed at or after
the end of a day.  The day's page is the same as if the task were not completed exactly when the
task is not on the page while open, or the day had begun before the completion and the task was
not past its deadline on it. -/
theorem past_day_unchanged_iff (zone : Zone) (db : Database) (before after : List Task)
    (task : Task) (c : Moment) (day : Date) (now : Moment)
    (htasks : db.tasks = before ++ task :: after) (harchived : task.archivedAt = none)
    (hc : task.completedAt = some c) (hend : localDayStartUtc zone (day + 1) ≤ c) :
    shownDay zone db day now =
        shownDay zone { db with tasks := before ++ task.reopened :: after } day now ↔
      (task.ListedWhenOpen zone day →
        localDayStartUtc zone day ≤ c ∧ ∀ d ∈ task.deadline, day ≤ d) := by
  have hdb : db = { db with tasks := before ++ task :: after } := by rw [← htasks]
  have hpage : shownDay zone db day now =
      shownDay zone { db with tasks := before ++ task :: after } day now := by rw [← hdb]
  rw [hpage, shownDay, shownDay, dayItems_split zone db before after task harchived,
    dayItems_split zone db before after task.reopened harchived,
    shown_sorted_eq_iff (sortKey_row_eq hc hend now), shown_row_eq_iff hc hend]

/-- A task with a deadline on 2026-01-08, finished on 2026-01-10. -/
def finishedTask : Task :=
  { id := 1, name := "file taxes", deadline := some 739624, lastUserInteractionAt := 0,
    createdAt := 0, completedAt := some (739626 * dayLength) }

theorem past_day_unchanged_finishedTask :
    shownDay utcZone { tasks := [finishedTask] } 739623 0 =
      shownDay utcZone { tasks := [finishedTask.reopened] } 739623 0 :=
  (past_day_unchanged_iff utcZone { tasks := [finishedTask] } [] [] finishedTask
    (739626 * dayLength) 739623 0 rfl rfl rfl (by decide)).mpr fun _ => ⟨by decide, by decide⟩

/-- The day after the deadline shows the task as not overdue, now that it is finished. -/
theorem past_day_forgets_overdue :
    localDayStartUtc utcZone (739625 + 1) ≤ 739626 * dayLength ∧
      shownDay utcZone { tasks := [finishedTask] } 739625 0 ≠
        shownDay utcZone { tasks := [finishedTask.reopened] } 739625 0 := by
  decide

end EpsCloud

import EpsCloud.Routes.Agenda

/-!
# The journal's page of a day

`app.routes.journal`, the read side: the habits, trackers and metrics of a day,
and for a day that is not today its tasks and calendar entries.

* `mem_dayItems_task`: which tasks a day lists, and whether they are done there.
-/

namespace EpsCloud

open KeySort

/-- A row of `habit_rows`. -/
structure HabitRow where
  streak : Streak
  state : Option StreakState
  entry : Option HabitLog
  deriving DecidableEq, Repr

/-- `habit_rows`: one row per active streak, with its state and that day's entry. -/
def habitRows (db : Database) (day : Date) : List HabitRow :=
  (activeStreaks db).map fun s =>
    { streak := s
      state := db.streakState.lookup s.id
      entry := db.habitLog.lookup (day, s.id) }

/-- A row of `tracker_rows`. -/
structure TrackerRow where
  tracker : Tracker
  state : Option TrackerState
  event : Option TrackerEvent
  deriving DecidableEq, Repr

/-- `tracker_rows`: active trackers that are visible on this day's weekday. -/
def trackerRows (db : Database) (day : Date) : List TrackerRow :=
  ((sortByKey Tracker.id (activeTrackers db)).filter fun t =>
      weekday day ∈ t.visibleOnDays).map fun t =>
    { tracker := t
      state := db.trackerState.lookup t.id
      event := db.trackerEvents.lookup (day, t.id) }

/-- A row of `metric_rows`. -/
structure MetricRow where
  metric : Metric
  entry : Option MetricLog
  deriving DecidableEq, Repr

/-- `metric_rows`: active metrics with that day's logged value, if any. -/
def metricRows (db : Database) (day : Date) : List MetricRow :=
  (sortByKey Metric.id (db.metrics.filter fun m => m.archivedAt.isNone)).map fun m =>
    { metric := m
      entry := db.metricLog.lookup (day, m.id) }

/-! ## Tasks and calendar entries -/

/-- A row of `day_items`. -/
inductive DayItem where
  | task (ctx : TaskCtx) (doneHere : Bool)
  | event (event : CalendarEvent)
  deriving DecidableEq, Repr

/-- `row.get("done_here", False)`. -/
def DayItem.doneHere : DayItem → Bool
  | .task _ doneHere => doneHere
  | .event _ => false

/-- `effective_key` of the row. -/
def DayItem.effectiveKey : DayItem → ℤ
  | .task ctx _ => EpsCloud.effectiveKey (.task ctx)
  | .event e => EpsCloud.effectiveKey (.event e)

/-- Finished items sink; the rest keep the agenda's ordering grammar. -/
def DayItem.sortKey (item : DayItem) : Bool ×ₗ ℤ := toLex (item.doneHere, item.effectiveKey)

/-- The turn of `day_items`' loop over tasks. -/
def dayItem (zone : Zone) (day : Date) (now : Moment) (task : Task) : Option DayItem :=
  let dayStart := localDayStartUtc zone day
  let dayEnd := localDayStartUtc zone (day + 1)
  -- anything finished before the day began is already off the list
  if ∃ c ∈ task.completedAt, c < dayStart then none
  else
    let doneHere := decide (∃ c ∈ task.completedAt, c < dayEnd)
    if task.HiddenOn day then none
    else
      let withinDeadline := task.deadline.isSome ∧ localDateOf zone task.createdAt ≤ day
      if doneHere ∨ task.scheduledFor = some day ∨ withinDeadline then
        some (.task (taskCtx task day now) doneHere)
      else none

/-- The tasks that are not archived. -/
def unarchivedTasks (db : Database) : List Task := db.tasks.filter fun t => t.archivedAt.isNone

/-- `day_items`: tasks and calendar events belonging to one day, finished or not. -/
def dayItems (zone : Zone) (db : Database) (day : Date) (now : Moment) : List DayItem :=
  sortByKey DayItem.sortKey
    ((unarchivedTasks db).filterMap (dayItem zone day now) ++
      (db.calendarCache.filter fun e => e.date = day).map .event)

/-! ## Which tasks a day lists -/

/-- An open task would be listed on the day: it is not hidden, and it is scheduled for the day
or has a deadline and was there by then. -/
def Task.ListedWhenOpen (task : Task) (zone : Zone) (day : Date) : Prop :=
  ¬ task.HiddenOn day ∧ (task.scheduledFor = some day ∨
    (task.deadline.isSome ∧ localDateOf zone task.createdAt ≤ day))

/-- **When a turn of the loop adds a row.** -/
theorem dayItem_eq_some {zone : Zone} {day : Date} {now : Moment} {task : Task} {item : DayItem} :
    dayItem zone day now task = some item ↔
      (∀ c ∈ task.completedAt, localDayStartUtc zone day ≤ c) ∧ ¬ task.HiddenOn day ∧
      ((∃ c ∈ task.completedAt, c < localDayStartUtc zone (day + 1)) ∨
        task.ListedWhenOpen zone day) ∧
      item = .task (taskCtx task day now)
        (decide (∃ c ∈ task.completedAt, c < localDayStartUtc zone (day + 1))) := by
  rw [dayItem]
  by_cases hearly : ∃ c ∈ task.completedAt, c < localDayStartUtc zone day
  · rw [if_pos hearly]
    obtain ⟨c, hc, hlt⟩ := hearly
    refine ⟨fun h => absurd h (by simp), fun h => absurd (h.1 c hc) (not_le.mpr hlt)⟩
  · have hstart : ∀ c ∈ task.completedAt, localDayStartUtc zone day ≤ c := fun c hc =>
      not_lt.mp fun hlt => hearly ⟨c, hc, hlt⟩
    rw [if_neg hearly]
    by_cases hhid : task.HiddenOn day
    · rw [if_pos hhid]
      exact ⟨fun h => absurd h (by simp), fun h => absurd hhid h.2.1⟩
    · rw [if_neg hhid]
      simp only [decide_eq_true_eq, Task.ListedWhenOpen, hhid, not_false_eq_true, true_and]
      constructor
      · intro h
        split_ifs at h with hlisted
        exact ⟨hstart, hlisted, (Option.some.inj h).symm⟩
      · rintro ⟨-, hlisted, rfl⟩
        rw [if_pos hlisted]

/-- The tasks that a day lists, each with whether it is done there. -/
theorem mem_dayItems_task {zone : Zone} {db : Database} {day : Date} {now : Moment}
    {ctx : TaskCtx} {doneHere : Bool} :
    .task ctx doneHere ∈ dayItems zone db day now ↔
      ∃ task ∈ unarchivedTasks db, dayItem zone day now task = some (.task ctx doneHere) := by
  rw [dayItems, KeySort.mem_sortByKey, List.mem_append, List.mem_filterMap]
  constructor
  · rintro (h | h)
    · exact h
    · obtain ⟨event, -, hevent⟩ := List.mem_map.mp h
      exact absurd hevent (by simp)
  · exact Or.inl

theorem mem_unarchivedTasks {db : Database} {task : Task} :
    task ∈ unarchivedTasks db ↔ task ∈ db.tasks ∧ task.archivedAt = none := by
  rw [unarchivedTasks, List.mem_filter, Option.isNone_iff_eq_none]

end EpsCloud

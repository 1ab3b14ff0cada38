import EpsCloud.Library.Grouping
import EpsCloud.Library.KeySort
import EpsCloud.Recompute.Streak
import EpsCloud.Recompute.Tracker
import EpsCloud.Routes.Journal
import EpsCloud.Time.Clock

/-!
# The agenda and the side column

`app.routes.dashboard`, the read side: which rows a day's agenda has, where each
stands on the shared ordering scale, and the figures of the side column.

`tasks`, `events` and `trackers` are read in the order the database returns
them; everything else is decided here.  `now` is the reading of `utc_now()`,
which only the staleness flag uses.
-/

namespace EpsCloud

open KeySort Grouping

/-- `STALE_AFTER_DAYS`. -/
def staleAfterDays : ℤ := 7

/-- `UPCOMING_DAYS`. -/
def upcomingDays : ℤ := 7

/-- `UPCOMING_PER_DAY`. -/
def upcomingPerDay : ℕ := 3

/-- `BAND_TIMED`. -/
def bandTimed : ℤ := 10000

/-- `BAND_VITAL`. -/
def bandVital : ℤ := 30000

/-- `BAND_UNTIMED`. -/
def bandUntimed : ℤ := 40000

/-- `BAND_TRACKER`. -/
def bandTracker : ℤ := 50000

/-- `KEY_GAP`. -/
def keyGap : ℤ := 100

/-! ## Rows -/

/-- What a task row needs. -/
structure TaskCtx where
  task : Task
  today : Date
  tomorrow : Date
  overdueDays : ℤ
  stale : Bool
  deriving DecidableEq, Repr

/-- The days a task is past its deadline on `today`; a completed task is not past it. -/
def overdueDays (task : Task) (today : Date) : ℤ :=
  match task.deadline with
  | some deadline =>
    if task.completedAt.isNone ∧ deadline < today then today - deadline else 0
  | none => 0

/-- The staleness flag. -/
def isStale (task : Task) (now : Moment) : Bool :=
  task.completedAt.isNone ∧ task.lastUserInteractionAt < now - daysToMicroseconds staleAfterDays

/-- `task_ctx`. -/
def taskCtx (task : Task) (today : Date) (now : Moment) : TaskCtx :=
  { task := task
    today := today
    tomorrow := today + 1
    overdueDays := overdueDays task today
    stale := isStale task now }

/-- What a tracker row says. -/
inductive TrackerStatus where
  | done
  | never
  | due (overdueBy : ℤ)
  | soon (dueIn : ℤ)
  deriving DecidableEq, Repr

/-- `tracker_status`: one agenda row for a tracker, or none if it has nothing to say today. -/
def trackerStatus (tracker : Tracker) (state : TrackerState) (doneToday : Bool) :
    Option TrackerStatus :=
  if doneToday then some .done
  else if state.lastDoneDate.isNone then some .never
  else if tracker.thresholdDays ≤ state.daysSinceLastDone then
    some (.due (state.daysSinceLastDone - tracker.thresholdDays))
  else if 2 ≤ state.daysSinceLastDone then
    some (.soon (tracker.thresholdDays - state.daysSinceLastDone))
  else none

/-- A row of the day list. -/
inductive Row where
  | event (event : CalendarEvent)
  | task (ctx : TaskCtx)
  | tracker (tracker : Tracker) (state : TrackerState) (status : TrackerStatus)
  deriving DecidableEq, Repr

/-! ## The ordering scale -/

/-- `hour * 60 + minute` of the wall-clock time that an aware timestamp is written with. -/
def AwareTime.minuteOfDay (t : AwareTime) : ℤ := (t.instant + t.offset) % dayLength / 60000000

/-- The rank of a tracker's status among the trackers. -/
def TrackerStatus.rank : TrackerStatus → ℤ
  | .due _ => 0
  | .soon _ => 1
  | .never => 2
  | .done => 3

/-- `default_key`: where a row sits when it has no manual key. -/
def defaultKey : Row → ℤ
  | .event event => bandTimed + event.startAt.minuteOfDay
  | .task ctx =>
    match ctx.task.scheduledTime with
    | some time => bandTimed + (time.hour : ℕ) * 60 + (time.minute : ℕ)
    | none => (if ctx.task.vital then bandVital else bandUntimed) + ctx.task.id
  | .tracker tracker _ status => bandTracker + status.rank * keyGap + tracker.id

/-- `effective_key`. -/
def effectiveKey : Row → ℤ
  | .event event => defaultKey (.event event)
  | .task ctx =>
    match ctx.task.sortOrder with
    | some key => key
    | none => defaultKey (.task ctx)
  | .tracker tracker state status =>
    match tracker.sortOrder with
    | some key => key
    | none => defaultKey (.tracker tracker state status)

/-! ## The agenda -/

/-- `t.remind_after and t.remind_after > day`. -/
def Task.HiddenOn (task : Task) (day : Date) : Prop := ∃ r ∈ task.remindAfter, day < r

instance (task : Task) (day : Date) : Decidable (task.HiddenOn day) :=
  inferInstanceAs (Decidable (∃ r ∈ task.remindAfter, _))

/-- `t.scheduled_for or t.deadline`. -/
def Task.day (task : Task) : Option Date := task.scheduledFor.or task.deadline

/-- The tasks that are neither archived nor completed. -/
def openTasks (tasks : List Task) : List Task :=
  tasks.filter fun t => t.archivedAt.isNone && t.completedAt.isNone

/-- The turn of `day_list`'s loop over tasks. -/
def dayTask (today : Date) (now : Moment) (task : Task) : Option TaskCtx :=
  if task.HiddenOn today then none
  else
    let ctx := taskCtx task today now
    if ctx.overdueDays = 0 ∧ (task.day = some today ∨ task.vital) then some ctx else none

/-- The turn of `day_list`'s loop over trackers. -/
def dayTracker (db : Database) (today : Date) (tracker : Tracker) : Option Row :=
  match db.trackerState.lookup tracker.id with
  | none => none
  | some state =>
    if weekday today ∈ tracker.visibleOnDays then
      (trackerStatus tracker state (DoneOn db tracker.id today)).map (.tracker tracker state ·)
    else none

/-- The trackers that are not archived. -/
def activeTrackers (db : Database) : List Tracker :=
  db.trackers.filter fun t => t.archivedAt.isNone

/-- `day_list`: today's sortable sequence, by key. -/
def dayList (db : Database) (today : Date) (now : Moment) : List Row :=
  sortByKey effectiveKey
    ((openTasks db.tasks).filterMap (fun t => (dayTask today now t).map .task) ++
      (db.calendarCache.filter fun e => e.date = today).map .event ++
      (activeTrackers db).filterMap (dayTracker db today))

/-- A group of `build_agenda`'s preview. -/
structure UpcomingGroup where
  date : Date
  label : String
  rows : List TaskCtx
  hidden : ℕ
  deriving DecidableEq, Repr

/-- What `build_agenda` returns. -/
structure Agenda where
  overdue : List TaskCtx
  day : List Row
  finished : List TaskCtx
  upcoming : List UpcomingGroup
  deriving DecidableEq, Repr

/-- `build_agenda`'s first branch: the row of an overdue task. -/
def overdueTask (today : Date) (now : Moment) (task : Task) : Option TaskCtx :=
  if task.HiddenOn today then none
  else if overdueDays task today ≠ 0 then some (taskCtx task today now)
  else none

/-- `build_agenda`'s second branch: the day a task is previewed under, and its row. -/
def upcomingTask (today : Date) (now : Moment) (task : Task) : Option (Date × TaskCtx) :=
  if task.HiddenOn today then none
  else if overdueDays task today ≠ 0 then none
  else
    match task.day with
    | some day =>
      if task.vital = false ∧ today < day ∧ day ≤ today + upcomingDays then
        some (day, taskCtx task today now)
      else none
    | none => none

/-- The names of `strftime("%A")`. -/
def weekdayName (day : Date) : String :=
  ["Monday", "Tuesday", "Wednesday", "Thursday", "Friday", "Saturday", "Sunday"].getD
    (weekday day).toNat ""

/-- The heading of a group. -/
def upcomingLabel (today day : Date) : String :=
  if day = today + 1 then "Tomorrow"
  else
    let (_, month, dayOfMonth) := ord2ymd day
    weekdayName day ++ " " ++ zeroPad 2 dayOfMonth ++ "." ++ zeroPad 2 month

/-- The rows of the `upcoming` dictionary, by day. -/
def upcomingByDay (tasks : List Task) (today : Date) (now : Moment) :
    List (Date × List TaskCtx) :=
  collect ((openTasks tasks).filterMap (upcomingTask today now))

/-- One group of the preview, trimmed to its first few rows. -/
def upcomingGroup (today : Date) (group : Date × List TaskCtx) : UpcomingGroup :=
  let rows := sortByKey (fun ctx => effectiveKey (.task ctx)) group.2
  { date := group.1
    label := upcomingLabel today group.1
    rows := rows.take upcomingPerDay
    hidden := rows.length - upcomingPerDay }

/-- The tasks of the finished block. -/
def finishedTasks (zone : Zone) (tasks : List Task) (today : Date) : List Task :=
  tasks.filter fun t =>
    t.archivedAt.isNone && t.completedAt.any fun c => localDayStartUtc zone today ≤ c

/-- `build_agenda`: overdue block, the day list, finished tasks, and the upcoming groups. -/
def buildAgenda (zone : Zone) (db : Database) (today : Date) (now : Moment) : Agenda :=
  { overdue := sortByKey (fun ctx => -ctx.overdueDays)
      ((openTasks db.tasks).filterMap (overdueTask today now))
    day := dayList db today now
    finished := (finishedTasks zone db.tasks today).map (taskCtx · today now)
    upcoming := (sortByKey Prod.fst (upcomingByDay db.tasks today now)).map (upcomingGroup today) }

/-! ## The side column -/

/-- A streak row of the side column. -/
structure StreakRow where
  streak : Streak
  state : Option StreakState
  logged : Bool
  deriving DecidableEq, Repr

/-- A tracker row of the side column. -/
structure TrackerCard where
  tracker : Tracker
  state : Option TrackerState
  overdueBy : Option ℤ
  deriving DecidableEq, Repr

/-- A metric row of the side column. -/
structure MetricCard where
  metric : Metric
  latest : Option MetricLog
  deriving DecidableEq, Repr

/-- What `snapshot` returns. -/
structure Snapshot where
  streaks : List StreakRow
  trackers : List TrackerCard
  metrics : List MetricCard
  deriving DecidableEq, Repr

/-- The streaks that are not archived, by id. -/
def activeStreaks (db : Database) : List Streak :=
  sortByKey Streak.id (db.streaks.filter fun s => s.archivedAt.isNone)

/-- `snapshot`'s row of a tracker. -/
def trackerCard (db : Database) (tracker : Tracker) : TrackerCard :=
  let state := db.trackerState.lookup tracker.id
  { tracker := tracker
    state := state
    overdueBy := state.bind fun state =>
      state.lastDoneDate.map fun _ => state.daysSinceLastDone - tracker.thresholdDays }

/-- The newest entry of a metric. -/
def latestMetricLog (db : Database) (metricId : ℕ) : Option MetricLog :=
  ((sortByKey (fun e : (Date × ℕ) × MetricLog => -e.1.1)
    (db.metricLog.rows.filter fun e => e.1.2 = metricId)).map Prod.snd).head?

/-- `snapshot`: streaks, tracker schedules, latest metrics. -/
def snapshot (db : Database) (today : Date) : Snapshot :=
  { streaks := (activeStreaks db).map fun s =>
      { streak := s
        state := db.streakState.lookup s.id
        logged := (db.habitLog.lookup (today, s.id)).isSome }
    trackers := (sortByKey Tracker.id (activeTrackers db)).map (trackerCard db)
    metrics := (sortByKey Metric.id (db.metrics.filter fun m => m.archivedAt.isNone)).map fun m =>
      { metric := m
        latest := latestMetricLog db m.id } }

/-! ## Small facts about rows -/

@[simp] theorem taskCtx_task (task : Task) (today : Date) (now : Moment) :
    (taskCtx task today now).task = task := rfl

@[simp] theorem taskCtx_overdueDays (task : Task) (today : Date) (now : Moment) :
    (taskCtx task today now).overdueDays = overdueDays task today := rfl

theorem dayTask_eq_some {today : Date} {now : Moment} {task : Task} {ctx : TaskCtx} :
    dayTask today now task = some ctx ↔
      (¬ task.HiddenOn today ∧ overdueDays task today = 0 ∧
        (task.day = some today ∨ task.vital = true)) ∧ taskCtx task today now = ctx := by
  rw [dayTask]
  by_cases hhid : task.HiddenOn today
  · simp [hhid]
  · by_cases hday : overdueDays task today = 0 ∧ (task.day = some today ∨ task.vital = true)
    · simp [hhid, hday]
    · simp [hhid, hday]

theorem mem_openTasks {tasks : List Task} {task : Task} :
    task ∈ openTasks tasks ↔
      task ∈ tasks ∧ task.archivedAt = none ∧ task.completedAt = none := by
  rw [openTasks, List.mem_filter, Bool.and_eq_true, Option.isNone_iff_eq_none,
    Option.isNone_iff_eq_none]

theorem mem_activeStreaks {db : Database} {streak : Streak} :
    streak ∈ activeStreaks db ↔ streak ∈ db.streaks ∧ streak.archivedAt = none := by
  rw [activeStreaks, KeySort.mem_sortByKey, List.mem_filter, Option.isNone_iff_eq_none]

theorem active_iff_mem_activeStreaks {db : Database} {streakId : ℕ} :
    Streak.Active db streakId ↔ ∃ streak ∈ activeStreaks db, streak.id = streakId := by
  rw [Streak.Active, Database.activeStreakIds, List.mem_map]
  simp only [mem_activeStreaks, List.mem_filter, Option.isNone_iff_eq_none]

/-- A task is overdue exactly when it is not completed and its deadline has passed. -/
theorem overdueDays_ne_zero_iff {task : Task} {today : Date} :
    overdueDays task today ≠ 0 ↔
      task.completedAt = none ∧ ∃ d ∈ task.deadline, d < today := by
  rw [overdueDays]
  cases task.deadline with
  | none => simp
  | some d =>
    simp only [Option.isNone_iff_eq_none, Option.mem_some_iff, exists_eq_left']
    split_ifs with h
    · exact ⟨fun _ => h, fun _ => sub_ne_zero.mpr h.2.ne'⟩
    · exact ⟨fun h0 => absurd rfl h0, fun h' => absurd h' h⟩

end EpsCloud

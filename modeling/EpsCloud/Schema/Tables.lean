import EpsCloud.Library.Table
import EpsCloud.Schema.Decimal
import EpsCloud.Schema.Json
import EpsCloud.Time.Calendar

/-!
# The tables

`app.models`: the `*_log` and `*_events` tables record what happened, the
`*_state` tables are derived from them, and the definition tables say what is
being kept track of.  Tables that the program reads by primary key are keyed
tables; tables that it reads as a whole, in the order the database returns the
rows, are lists of rows that carry their `id`.

Columns that no modelled function uses (names of streaks and metrics, descriptions,
server-side `created_at` stamps other than a task's) are left out.
-/

namespace EpsCloud

/-- `datetime.time`, as a `TIME` column keeps it: no time zone and no `fold`. -/
structure TimeOfDay where
  hour : Fin 24
  minute : Fin 60
  second : Fin 60
  microsecond : Fin 1000000
  deriving DecidableEq, Repr

namespace TimeOfDay

/-- The minute of the day. -/
def minutes (time : TimeOfDay) : ℤ := (time.hour : ℕ) * 60 + (time.minute : ℕ)

/-- The time since midnight, in microseconds. -/
def microseconds (time : TimeOfDay) : ℤ :=
  time.minutes * 60000000 + ((time.second : ℕ) * 1000000 + (time.microsecond : ℕ))

theorem minutes_nonneg (time : TimeOfDay) : 0 ≤ time.minutes := by
  rw [minutes]
  omega

theorem minutes_lt (time : TimeOfDay) : time.minutes < 1440 := by
  have hhour := time.hour.isLt
  have hminute := time.minute.isLt
  rw [minutes]
  omega

/-- Seconds stay below a minute. -/
theorem microseconds_ediv (time : TimeOfDay) : time.microseconds / 60000000 = time.minutes := by
  have hsecond := time.second.isLt
  have hmicrosecond := time.microsecond.isLt
  rw [microseconds]
  omega

theorem microseconds_nonneg (time : TimeOfDay) : 0 ≤ time.microseconds := by
  have hminutes := time.minutes_nonneg
  rw [microseconds]
  omega

end TimeOfDay

/-- `datetime.time(hour, minute)` -/
def timeAt (hour minute : ℕ) (h : hour < 24 ∧ minute < 60) : TimeOfDay where
  hour := ⟨hour, h.1⟩
  minute := ⟨minute, h.2⟩
  second := ⟨0, Nat.zero_lt_succ 59⟩
  microsecond := ⟨0, Nat.zero_lt_succ 999999⟩

/-- A row of `streaks`. -/
structure Streak where
  id : ℕ
  archivedAt : Option Moment := none
  deriving DecidableEq, Repr

/-- A row of `habit_log`; its key is the date and the streak. -/
structure HabitLog where
  passed : Bool
  editedAt : Option Moment := none
  deriving DecidableEq, Repr

/-- A row of `streak_state`; its key is the streak. -/
structure StreakState where
  currentStreak : ℕ
  personalRecord : ℕ
  lastGraceUsedDate : Option Date
  lastRecomputedAt : Moment
  deriving DecidableEq, Repr

/-- A row of `trackers`. -/
structure Tracker where
  id : ℕ
  name : String
  thresholdDays : ℤ
  visibleOnDays : List ℤ
  sortOrder : Option ℤ := none
  archivedAt : Option Moment := none
  deriving DecidableEq, Repr

/-- A row of `tracker_events`; its key is the date and the tracker. -/
structure TrackerEvent where
  activityDone : Bool
  editedAt : Option Moment := none
  deriving DecidableEq, Repr

/-- A row of `tracker_state`; its key is the tracker. -/
structure TrackerState where
  daysSinceLastDone : ℤ
  lastDoneDate : Option Date
  lastRecomputedAt : Moment
  deriving DecidableEq, Repr

/-- A row of `tasks`. -/
structure Task where
  id : ℕ
  name : String
  deadline : Option Date := none
  scheduledFor : Option Date := none
  scheduledTime : Option TimeOfDay := none
  sortOrder : Option ℤ := none
  vital : Bool := false
  lastUserInteractionAt : Moment
  remindAfter : Option Date := none
  createdAt : Moment
  completedAt : Option Moment := none
  archivedAt : Option Moment := none
  deriving DecidableEq, Repr

/-- The check constraint `task_has_temporal_context`. -/
def Task.HasTemporalContext (task : Task) : Prop :=
  task.deadline.isSome ∨ task.scheduledFor.isSome ∨ task.remindAfter.isSome

instance (task : Task) : Decidable task.HasTemporalContext :=
  inferInstanceAs (Decidable (_ ∨ _))

/-- The actions that the check constraint `task_event_action_valid` admits. -/
inductive TaskAction where
  | created | completed | uncompleted | edited | snoozed | archived | unarchived
  deriving DecidableEq, Repr

/-- The two dates of a task, as a reschedule event keeps them. -/
structure TaskDates where
  deadline : Option Date
  scheduledFor : Option Date
  deriving DecidableEq, Repr

/-- The JSON payloads of an `edited` event.  A date stands for its ISO text. -/
inductive TaskPayload where
  | vital (new : Bool)
  | reschedule (old : TaskDates) (kind : String) (date : Date)
  | kept
  deriving DecidableEq, Repr

/-- A row of `task_events`. -/
structure TaskEvent where
  id : ℕ
  taskId : ℕ
  action : TaskAction
  occurredAt : Moment
  payload : Option TaskPayload := none
  deriving DecidableEq, Repr

/-- The two metric types that the check constraint `metric_type_valid` admits. -/
inductive MetricType where
  | scale | numeric
  deriving DecidableEq, Repr

/-- A row of `metrics`. -/
structure Metric where
  id : ℕ
  metricType : MetricType
  scaleMin : Option ℤ := none
  scaleMax : Option ℤ := none
  archivedAt : Option Moment := none
  deriving DecidableEq, Repr

/-- A row of `metric_log`; its key is the date and the metric. -/
structure MetricLog where
  value : Decimal
  editedAt : Option Moment := none
  deriving DecidableEq, Repr

/-- A row of `daily_state`; its key is the date. -/
structure DailyState where
  badDay : Bool
  editedAt : Option Moment := none
  deriving DecidableEq, Repr

/-- An aware timestamp as the database driver returns it: an instant, and the UTC offset it
is written with. -/
structure AwareTime where
  instant : Moment
  offset : ℤ
  deriving DecidableEq, Repr

/-- A row of `calendar_cache`. -/
structure CalendarEvent where
  eventId : String
  startAt : AwareTime
  date : Date
  deriving DecidableEq, Repr

/-- A row of `daily_notes`; its key is the date. -/
structure DailyNote where
  noteText : String := ""
  deriving DecidableEq, Repr

/-- A row of `weather_cache`; its key is the date. -/
structure WeatherCache where
  rawPayload : Json
  fetchedAt : Moment

/-- The row of `settings`.  The default location is `52.5200`, `13.4050`. -/
structure UserSettings where
  timezone : String := "Europe/Berlin"
  graceEnabled : Bool := true
  weatherLocationLat : Decimal := .finite false 525200 (-4)
  weatherLocationLon : Decimal := .finite false 134050 (-4)
  deriving DecidableEq, Repr

/-- A row of `edit_log`, without its generated id and timestamp. -/
structure EditLog where
  tableName : String
  rowId : String
  field : String
  oldValue : Option String
  newValue : Option String
  deriving DecidableEq, Repr

/-- The database.  The three sequences are the next values of the generated ids. -/
structure Database where
  streaks : List Streak := []
  habitLog : Table (Date × ℕ) HabitLog := ∅
  streakState : Table ℕ StreakState := ∅
  trackers : List Tracker := []
  trackerEvents : Table (Date × ℕ) TrackerEvent := ∅
  trackerState : Table ℕ TrackerState := ∅
  tasks : List Task := []
  taskEvents : List TaskEvent := []
  metrics : List Metric := []
  metricLog : Table (Date × ℕ) MetricLog := ∅
  dailyState : Table Date DailyState := ∅
  calendarCache : List CalendarEvent := []
  dailyNotes : Table Date DailyNote := ∅
  weatherCache : Table Date WeatherCache := ∅
  settings : Option UserSettings := none
  editLog : List EditLog := []
  trackerSeq : ℕ := 1
  taskSeq : ℕ := 1
  taskEventSeq : ℕ := 1

namespace Database

/-- `session.get(Streak, id)`. -/
def getStreak (db : Database) (id : ℕ) : Option Streak := db.streaks.find? fun s => s.id = id

/-- `session.get(Tracker, id)`. -/
def getTracker (db : Database) (id : ℕ) : Option Tracker := db.trackers.find? fun t => t.id = id

/-- `session.get(Metric, id)`. -/
def getMetric (db : Database) (id : ℕ) : Option Metric := db.metrics.find? fun m => m.id = id

/-- `session.get(Task, id)`. -/
def getTask (db : Database) (id : ℕ) : Option Task := db.tasks.find? fun t => t.id = id

/-- The streaks that are not archived, as `select(Streak.id)` returns them. -/
def activeStreakIds (db : Database) : List ℕ :=
  (db.streaks.filter fun s => s.archivedAt.isNone).map Streak.id

end Database

/-- The streak is one of the active ones. -/
def Streak.Active (db : Database) (streakId : ℕ) : Prop := streakId ∈ db.activeStreakIds

/-! ## How a request fails -/

/-- A request that does not answer with success: an HTTP error raised by `abort`, or an
exception that no handler catches. -/
inductive Failure where
  | abort (status : ℕ)
  | raised
  deriving DecidableEq, Repr

/-- The date and the time that a request reads off the clock. -/
structure Clock where
  today : Date
  now : Moment

end EpsCloud

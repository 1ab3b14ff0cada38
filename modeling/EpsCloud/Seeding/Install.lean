import EpsCloud.Library.Sequenced
import EpsCloud.Schema.Tables

/-!
# What a seeding works on

`seed.py` finds the rows of the definition tables by their names, so an install is a
database together with the names, and the generated ids, of these rows.

* `seedDefinitions_again`: a second look finds the rows of the first one.
* `Extends`: a state of the tables in which every row of another one is still there.
-/

namespace EpsCloud

/-- A row of `streaks` with its texts. -/
structure NamedStreak extends Streak where
  name : String
  description : Option String
  deriving DecidableEq

/-- A row of `metrics` with its texts. -/
structure NamedMetric extends Metric where
  name : String
  unit : Option String
  deriving DecidableEq

/-- A database whose streaks and metrics have names. -/
structure Install where
  streaks : Sequenced NamedStreak fun s => s.id
  trackers : Sequenced Tracker Tracker.id
  metrics : Sequenced NamedMetric fun m => m.id
  db : Database
  streaks_eq : db.streaks = streaks.rows.map NamedStreak.toStreak
  trackers_eq : db.trackers = trackers.rows
  trackerSeq_eq : db.trackerSeq = trackers.next
  metrics_eq : db.metrics = metrics.rows.map NamedMetric.toMetric

/-- The tables that the seeding adds to. -/
structure SeededTables where
  streaks : List NamedStreak
  trackers : List Tracker
  metrics : List NamedMetric
  habitLog : Table (Date × ℕ) HabitLog
  trackerEvents : Table (Date × ℕ) TrackerEvent
  metricLog : Table (Date × ℕ) MetricLog
  dailyNotes : Table Date DailyNote
  dailyState : Table Date DailyState
  tasks : List Task
  taskEvents : List TaskEvent
  calendarCache : List CalendarEvent

/-- The definition, log, task, note and calendar tables. -/
def Install.tables (s : Install) : SeededTables where
  streaks := s.streaks.rows
  trackers := s.trackers.rows
  metrics := s.metrics.rows
  habitLog := s.db.habitLog
  trackerEvents := s.db.trackerEvents
  metricLog := s.db.metricLog
  dailyNotes := s.db.dailyNotes
  dailyState := s.db.dailyState
  tasks := s.db.tasks
  taskEvents := s.db.taskEvents
  calendarCache := s.db.calendarCache

/-! ## The definition rows -/

/-- `HABITS` -/
def seedHabits : List (String × Option String) :=
  [("No sugar", some "No sweets, no sugary drinks."),
    ("In bed before midnight", none),
    ("No phone first hour", some "Nothing on a screen until an hour after waking."),
    ("Morning stretch", none),
    ("Read 20 pages", none)]

/-- `TRACKERS`: name, days before it is due again, and how likely it is done on a day.  The
likelihoods are the floating-point numbers of the literals. -/
def seedTrackers : List (String × ℤ × ℚ) :=
  [("Do the dishes", 4, 8106479329266893 / 2 ^ 54),
    ("Practice guitar", 3, 3152519739159347 / 2 ^ 53),
    ("Water the plants", 7, 3602879701896397 / 2 ^ 54),
    ("Call parents", 7, 3242591731706757 / 2 ^ 54)]

/-- `METRICS`: name, kind, unit, low and high. -/
def seedMetrics : List (String × MetricType × Option String × Option ℤ × Option ℤ) :=
  [("Mood", .scale, none, some 1, some 5),
    ("Sleep", .numeric, some "hours", none, none),
    ("Steps", .numeric, none, none, none)]

/-- `Streak(name=name, description=description)` -/
def seededStreak (spec : String × Option String) (id : ℕ) : NamedStreak :=
  { id, name := spec.1, description := spec.2 }

/-- `Tracker(name=name, threshold_days=threshold)`, shown on every day of the week. -/
def seededTracker (spec : String × ℤ × ℚ) (id : ℕ) : Tracker :=
  { id, name := spec.1, thresholdDays := spec.2.1, visibleOnDays := [0, 1, 2, 3, 4, 5, 6] }

/-- `Metric(name=name, metric_type=kind, unit=unit, scale_min=low, scale_max=high)` -/
def seededMetric (spec : String × MetricType × Option String × Option ℤ × Option ℤ) (id : ℕ) :
    NamedMetric :=
  { id, metricType := spec.2.1, scaleMin := spec.2.2.2.1, scaleMax := spec.2.2.2.2,
    name := spec.1, unit := spec.2.2.1 }

/-- The streaks, trackers and metrics that are looked up or created. -/
structure Definitions where
  streaks : List NamedStreak
  trackers : List Tracker
  metrics : List NamedMetric

def findStreaks (t : Sequenced NamedStreak fun s => s.id) :
    List NamedStreak × Sequenced NamedStreak fun s => s.id :=
  t.findOrAddAll (fun spec row => row.name = spec.1) seededStreak (fun _ _ => rfl) seedHabits

def findTrackers (t : Sequenced Tracker Tracker.id) : List Tracker × Sequenced Tracker Tracker.id :=
  t.findOrAddAll (fun spec row => row.name = spec.1) seededTracker (fun _ _ => rfl) seedTrackers

def findMetrics (t : Sequenced NamedMetric fun m => m.id) :
    List NamedMetric × Sequenced NamedMetric fun m => m.id :=
  t.findOrAddAll (fun spec row => row.name = spec.1) seededMetric (fun _ _ => rfl) seedMetrics

/-- The database with other definition tables. -/
def Database.withDefinitions (db : Database) (streaks : Sequenced NamedStreak fun s => s.id)
    (trackers : Sequenced Tracker Tracker.id) (metrics : Sequenced NamedMetric fun m => m.id) :
    Database :=
  { db with
    streaks := streaks.rows.map NamedStreak.toStreak
    trackers := trackers.rows
    trackerSeq := trackers.next
    metrics := metrics.rows.map NamedMetric.toMetric }

/-- `seed_definitions`: create the things being tracked, skipping any that already exist. -/
def seedDefinitions (s : Install) : Definitions × Install :=
  let streaks := findStreaks s.streaks
  let trackers := findTrackers s.trackers
  let metrics := findMetrics s.metrics
  (⟨streaks.1, trackers.1, metrics.1⟩,
    { streaks := streaks.2
      trackers := trackers.2
      metrics := metrics.2
      db := s.db.withDefinitions streaks.2 trackers.2 metrics.2
      streaks_eq := rfl
      trackers_eq := rfl
      trackerSeq_eq := rfl
      metrics_eq := rfl })

theorem findStreaks_again {t t' : Sequenced NamedStreak fun s => s.id}
    (h : (findStreaks t).2.rows <+: t'.rows) : findStreaks t' = ((findStreaks t).1, t') :=
  Sequenced.findOrAddAll_again (by exact fun _ _ => decide_eq_true rfl) seedHabits t h

theorem findTrackers_again {t t' : Sequenced Tracker Tracker.id}
    (h : (findTrackers t).2.rows <+: t'.rows) : findTrackers t' = ((findTrackers t).1, t') :=
  Sequenced.findOrAddAll_again (by exact fun _ _ => decide_eq_true rfl) seedTrackers t h

theorem findMetrics_again {t t' : Sequenced NamedMetric fun m => m.id}
    (h : (findMetrics t).2.rows <+: t'.rows) : findMetrics t' = ((findMetrics t).1, t') :=
  Sequenced.findOrAddAll_again (by exact fun _ _ => decide_eq_true rfl) seedMetrics t h

theorem Install.db_withDefinitions (s : Install) :
    s.db.withDefinitions s.streaks s.trackers s.metrics = s.db := by
  rw [Database.withDefinitions, ← s.streaks_eq, ← s.trackers_eq, ← s.trackerSeq_eq, ← s.metrics_eq]

/-- **A second look** after rows were added finds the same rows and adds none. -/
theorem seedDefinitions_again {s t : Install}
    (hstreaks : (seedDefinitions s).2.streaks.rows <+: t.streaks.rows)
    (htrackers : (seedDefinitions s).2.trackers.rows <+: t.trackers.rows)
    (hmetrics : (seedDefinitions s).2.metrics.rows <+: t.metrics.rows) :
    seedDefinitions t = ((seedDefinitions s).1, t) := by
  simp only [seedDefinitions, findStreaks_again hstreaks, findTrackers_again htrackers,
    findMetrics_again hmetrics, t.db_withDefinitions]

/-! ## Rows that stay -/

/-- Every row of the tables is still there, unchanged. -/
structure Extends (a b : SeededTables) : Prop where
  streaks : a.streaks <+: b.streaks
  trackers : a.trackers <+: b.trackers
  metrics : a.metrics <+: b.metrics
  habitLog : a.habitLog.Within b.habitLog
  trackerEvents : a.trackerEvents.Within b.trackerEvents
  metricLog : a.metricLog.Within b.metricLog
  dailyNotes : a.dailyNotes.Within b.dailyNotes
  dailyState : a.dailyState.Within b.dailyState
  tasks : a.tasks <+: b.tasks
  taskEvents : a.taskEvents <+: b.taskEvents
  calendarCache : a.calendarCache <+: b.calendarCache

theorem Extends.refl (a : SeededTables) : Extends a a where
  streaks := List.prefix_rfl
  trackers := List.prefix_rfl
  metrics := List.prefix_rfl
  habitLog := Table.within_refl _
  trackerEvents := Table.within_refl _
  metricLog := Table.within_refl _
  dailyNotes := Table.within_refl _
  dailyState := Table.within_refl _
  tasks := List.prefix_rfl
  taskEvents := List.prefix_rfl
  calendarCache := List.prefix_rfl

theorem Extends.trans {a b c : SeededTables} (h : Extends a b) (h' : Extends b c) :
    Extends a c where
  streaks := h.streaks.trans h'.streaks
  trackers := h.trackers.trans h'.trackers
  metrics := h.metrics.trans h'.metrics
  habitLog := h.habitLog.trans h'.habitLog
  trackerEvents := h.trackerEvents.trans h'.trackerEvents
  metricLog := h.metricLog.trans h'.metricLog
  dailyNotes := h.dailyNotes.trans h'.dailyNotes
  dailyState := h.dailyState.trans h'.dailyState
  tasks := h.tasks.trans h'.tasks
  taskEvents := h.taskEvents.trans h'.taskEvents
  calendarCache := h.calendarCache.trans h'.calendarCache

/-- The definition rows are only added. -/
theorem extends_seedDefinitions (s : Install) :
    Extends s.tables (seedDefinitions s).2.tables :=
  { Extends.refl s.tables with
    streaks := Sequenced.rows_prefix_findOrAddAll seedHabits s.streaks
    trackers := Sequenced.rows_prefix_findOrAddAll seedTrackers s.trackers
    metrics := Sequenced.rows_prefix_findOrAddAll seedMetrics s.metrics }

end EpsCloud

import EpsCloud.Integrations.BrightSky
import EpsCloud.Routes.Ordering
import EpsCloud.Routes.Sessions
import EpsCloud.Routes.Settings
import EpsCloud.Tasks.History

/-!
# The whole site

Every request that writes, and the two jobs of the worker, over one state: the database with
the columns and the sequences that the single routes leave out.  The handlers that no other
module needs are here: the forms that define a streak or a metric, the deletion of a task, the
note of a day, and the rest of the settings.

A request commits once, so one that fails leaves the state as it was; the forecast is
committed day by day, and stays when a later step of the call fails.

* `handleSite`: what a request leaves, and how it is answered.
* `Site.after`: the state after a request.
-/

namespace EpsCloud

/-! ## The state -/

/-- The texts of a row of `streaks`. -/
structure StreakTexts where
  name : String
  description : Option String
  deriving DecidableEq, Repr

/-- The texts of a row of `metrics`. -/
structure MetricTexts where
  name : String
  unit : Option String
  deriving DecidableEq, Repr

/-- `datetime.time(6, 0)` -/
def sixOClock : TimeOfDay := timeAt 6 0 ⟨Nat.le_add_left 7 17, Nat.zero_lt_succ 59⟩

/-- The two fetch times of the settings row, with the defaults that it is created with. -/
structure FetchTimes where
  calendar : TimeOfDay := sixOClock
  weather : TimeOfDay := sixOClock
  deriving DecidableEq, Repr

/-- What the site keeps: the database, the texts of its definitions, the fetch times, the
`timestamp` of each row of `edit_log`, and the next ids of streaks and metrics. -/
structure Site where
  db : Database := {}
  streakTexts : Table ℕ StreakTexts := ∅
  metricTexts : Table ℕ MetricTexts := ∅
  fetchTimes : FetchTimes := {}
  auditTimes : List Moment := []
  streakSeq : ℕ := 1
  metricSeq : ℕ := 1

/-- What the site does not decide: how texts are read, what a `JSONB` column returns for a value,
and the names of the time zones. -/
structure SiteEnv where
  py : TextParsers
  column : Json → Option Json
  zones : List String

/-- Plain texts, a column that returns what it was given, and one zone. -/
def SiteEnv.plain : SiteEnv := ⟨asciiParsers, some, ["UTC"]⟩

/-! ## The forms that define something -/

/-- `text or None` -/
def textOrNone (text : String) : Option String := if text = "" then none else some text

/-- `add_streak` -/
def addStreak (py : TextParsers) (name description : String) (s : Site) : Except Failure Site := do
  let name := py.strip name
  if name = "" then throw (.abort 400)
  return { s with
    db := { s.db with streaks := s.db.streaks ++ [{ id := s.streakSeq }] }
    streakTexts := s.streakTexts.insert s.streakSeq ⟨name, textOrNone description⟩
    streakSeq := s.streakSeq + 1 }

/-- The two types that the form accepts. -/
def parseMetricType (text : String) : Except Failure MetricType :=
  if text = "scale" then .ok .scale
  else if text = "numeric" then .ok .numeric
  else .error (.abort 400)

/-- `add_metric`: a scale runs from 1 to 5, and only a number has a unit. -/
def addMetric (py : TextParsers) (name metricType unit : String) (s : Site) :
    Except Failure Site := do
  let name := py.strip name
  if name = "" then throw (.abort 400)
  let metricType ← parseMetricType metricType
  let unit := match metricType with
    | .scale => none
    | .numeric => textOrNone unit
  return { s with
    db := { s.db with metrics := s.db.metrics ++ [newMetric s.metricSeq metricType] }
    metricTexts := s.metricTexts.insert s.metricSeq ⟨name, unit⟩
    metricSeq := s.metricSeq + 1 }

/-! ## Tasks and notes -/

/-- `delete_task`: the events refer to the task, so they go first.  Foreign keys are not modelled,
nor the order in which the flush of the commit emits the `DELETE`s: the commit is taken to succeed,
here and in `delete_tracker`. -/
def deleteTask (taskId : ℕ) (db : Database) : Except Failure Database := do
  let _ ← foundOr404 (db.getTask taskId)
  return { db with
    taskEvents := db.taskEvents.filter fun e => e.taskId ≠ taskId
    tasks := db.tasks.filter fun t => t.id ≠ taskId }

/-- `save_note`: autosaved journal text, which is not audited. -/
def saveNote (date noteText : String) (db : Database) : Except Failure Database := do
  let day ← parseDate date
  return { db with
    dailyNotes := db.dailyNotes.upsert day { noteText := noteText } fun note =>
      { note with noteText := noteText } }

/-! ## Settings -/

/-- `settings.index`: the one page that writes, on the first visit. -/
def openSettings (db : Database) : Database := { db with settings := some (ensure db) }

/-- `save_timezone`: only a zone that there is can be stored. -/
def saveTimezone (zones : List String) (timezone : String) (db : Database) :
    Except Failure Database :=
  if timezone ∈ zones then
    .ok { db with settings := some { ensure db with timezone := timezone } }
  else .error (.abort 400)

/-- `parse_clock_time` -/
def parseClockTime (py : TextParsers) (raw : String) : Except Failure TimeOfDay :=
  match py.time raw with
  | some time => .ok time
  | none => .error (.abort 400)

/-- `save_fetch_times` -/
def saveFetchTimes (py : TextParsers) (calendar weather : String) (s : Site) :
    Except Failure Site := do
  let calendar ← parseClockTime py calendar
  let weather ← parseClockTime py weather
  return { s with db := openSettings s.db, fetchTimes := ⟨calendar, weather⟩ }

/-! ## Jobs -/

/-- `AUDIT_RETENTION_DAYS` -/
def auditRetentionDays : ℤ := 180

/-- The rows of `edit_log`, each with its timestamp. -/
def Site.datedLog (s : Site) : List (Moment × EditLog) := s.auditTimes.zip s.db.editLog

/-- `cleanup_audit_log`: drop audit rows past the retention window. -/
def cleanupAuditLog (now : Moment) (s : Site) : Site :=
  let cutoff := now - daysToMicroseconds auditRetentionDays
  let kept := s.datedLog.filter fun row => cutoff ≤ row.1
  { s with
    db := { s.db with editLog := kept.map Prod.snd }
    auditTimes := kept.map Prod.fst }

/-! ## Requests -/

/-- Everything that may write. -/
inductive SiteAct where
  | task (act : TaskAct)
  | deleteTask (taskId : ℕ)
  | journal (req : JournalRequest)
  | saveNote (date noteText : String)
  | toggleTracker (trackerId : ℕ)
  | editTracker (trackerId : ℕ) (thresholdDays : String) (visibleOnDays : List String)
  | deleteTracker (trackerId : ℕ)
  | moveItem (item direction : String)
  | resetOrder
  | addStreak (name description : String)
  | addTracker (name thresholdDays : String) (visibleOnDays : List String)
  | addMetric (name metricType unit : String)
  | openSettings
  | toggleGrace
  | saveWeather (lat lon : String)
  | saveTimezone (timezone : String)
  | saveFetchTimes (calendar weather : String)
  | openDashboard (call : WeatherCall)
  | refreshWeather (calls : ℕ → WeatherCall)
  | cleanupAuditLog

/-- A request or a job, with the clocks that it reads: the local date, `utc_now()`, and the
`now()` of its transaction. -/
structure SiteRequest where
  today : Date
  now : Moment
  dbNow : Moment
  act : SiteAct

namespace SiteRequest

/-- The clock of a handler that records something on a day. -/
def clock (req : SiteRequest) : Clock := ⟨req.today, req.now⟩

/-- The two clocks of a handler that records a task event. -/
def stamp (req : SiteRequest) : Stamp := ⟨req.now, req.dbNow⟩

end SiteRequest

namespace Site

/-- What a handler leaves that commits once. -/
def commit (s : Site) : Except Failure Site → Site × Except Failure Unit
  | .ok s' => (s', .ok ())
  | .error e => (s, .error e)

/-- The database that a handler makes, with the time of the transaction for each new row of
`edit_log`. -/
def store (s : Site) (dbNow : Moment) (db : Database) : Site :=
  { s with
    db := db
    auditTimes := s.auditTimes ++
      List.replicate (db.editLog.length - s.db.editLog.length) dbNow }

end Site

/-- What a request leaves, and its answer. -/
def handleSite (env : SiteEnv) (req : SiteRequest) (s : Site) : Site × Except Failure Unit :=
  let onDatabase := fun result : Except Failure Database =>
    s.commit (result.map (s.store req.dbNow))
  match req.act with
  | .task act => onDatabase (handleTask env.py ⟨req.stamp, act⟩ s.db)
  | .deleteTask taskId => onDatabase (deleteTask taskId s.db)
  | .journal journal => onDatabase (handleJournal env.py req.clock s.db journal)
  | .saveNote date noteText => onDatabase (saveNote date noteText s.db)
  | .toggleTracker trackerId => onDatabase (toggleTracker req.clock trackerId s.db)
  | .editTracker trackerId thresholdDays visibleOnDays =>
    onDatabase (editTracker env.py trackerId thresholdDays visibleOnDays s.db)
  | .deleteTracker trackerId => onDatabase (deleteTracker trackerId s.db)
  | .moveItem item direction => onDatabase (moveItem item direction req.today req.now s.db)
  | .resetOrder => onDatabase (.ok (resetOrder s.db))
  | .addStreak name description => s.commit (addStreak env.py name description s)
  | .addTracker name thresholdDays visibleOnDays =>
    onDatabase (addTracker env.py req.clock name thresholdDays visibleOnDays s.db)
  | .addMetric name metricType unit => s.commit (addMetric env.py name metricType unit s)
  | .openSettings => onDatabase (.ok (openSettings s.db))
  | .toggleGrace => onDatabase (.ok (toggleGrace s.db))
  | .saveWeather lat lon => onDatabase (saveWeather env.py lat lon s.db)
  | .saveTimezone timezone => onDatabase (saveTimezone env.zones timezone s.db)
  | .saveFetchTimes calendar weather => s.commit (saveFetchTimes env.py calendar weather s)
  | .openDashboard call =>
    let result := weatherSummary env.column call req.today s.db
    ({ s with db := result.1 }, result.2.map fun _ => ())
  | .refreshWeather calls =>
    let result := refreshWeather env.column calls req.today s.db
    ({ s with db := result.1 }, result.2.map fun _ => ())
  | .cleanupAuditLog => (cleanupAuditLog req.now s, .ok ())

/-- The state after a request. -/
def Site.after (env : SiteEnv) (s : Site) (req : SiteRequest) : Site := (handleSite env req s).1

end EpsCloud

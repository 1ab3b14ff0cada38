import EpsCloud.Library.UnitOfWork
import EpsCloud.Routes.Journal
import EpsCloud.Time.Clock

/-!
# The journal's write routes, statement by statement

The same four handlers as in `EpsCloud.Routes.Journal`, as what they do with their
sessions: which session each query and each change goes to, where the pending rows
are flushed, and what is read again to render the answer.  `app.db` keeps one
session for each request in a registry, without autoflush, and removes it when the
request is over.

`current_date()` is not free of queries.  Unless the process has a cached zone it
reads the settings row through the registry, and when that read fails it has the
registry discard its session and goes on with the zone of the environment.

* `dueWrites`: the rows that a request has to write.
* `dueWrites_handle`: they make the database that the handler leaves.
* `exec_program`: a request whose reads all succeed commits them and answers.
* `exec_program_handle`: it stores what the handler makes.
-/

namespace EpsCloud

open UnitOfWork

/-! ## The rows that a request writes -/

/-- A written row, or a removed one. -/
inductive Write where
  | habit (day : Date) (streakId : ℕ) (row : Option HabitLog)
  | trackerEvent (day : Date) (trackerId : ℕ) (row : Option TrackerEvent)
  | metric (day : Date) (metricId : ℕ) (row : Option MetricLog)
  | daily (day : Date) (row : Option DailyState)
  | audit (row : EditLog)
  | streakState (streakId : ℕ) (row : StreakState)
  | trackerState (trackerId : ℕ) (row : TrackerState)

/-- The database after a write. -/
def Write.apply (db : Database) : Write → Database
  | .habit day streakId row => { db with habitLog := db.habitLog.put (day, streakId) row }
  | .trackerEvent day trackerId row =>
    { db with trackerEvents := db.trackerEvents.put (day, trackerId) row }
  | .metric day metricId row => { db with metricLog := db.metricLog.put (day, metricId) row }
  | .daily day row => { db with dailyState := db.dailyState.put day row }
  | .audit row => { db with editLog := db.editLog ++ [row] }
  | .streakState streakId row => { db with streakState := db.streakState.insert streakId row }
  | .trackerState trackerId row => { db with trackerState := db.trackerState.insert trackerId row }

/-- The four requests. -/
inductive JournalRequest where
  | markHabit (date : String) (streakId : ℕ) (mark : String)
  | markTracker (date : String) (trackerId : ℕ)
  | saveMetric (date : String) (metricId : ℕ) (value : String)
  | toggleBadDay (date : String)

/-- What the handlers make of a request. -/
def handleJournal (py : TextParsers) (clock : Clock) (db : Database) :
    JournalRequest → Except Failure Database
  | .markHabit date streakId mark => markHabit clock date streakId mark db
  | .markTracker date trackerId => markTracker clock date trackerId db
  | .saveMetric date metricId value => saveMetric py clock date metricId value db
  | .toggleBadDay date => toggleBadDay clock date db

/-- The state rows of several streaks, each recomputed over the rows before it. -/
def stateWrites (clock : Clock) (grace : Bool) : List ℕ → Database → List Write
  | [], _ => []
  | id :: ids, db =>
    .streakState id (recomputedStreakState db id clock grace) ::
      stateWrites clock grace ids (recomputeStreakState db id clock grace)

/-- The event row and its audit, and the rows that are recomputed from them. -/
def editWrites (target : AuditTarget) (old new : Option AuditValue) (day : Date) (clock : Clock)
    (event : List Write) (recomputed : Database → List Write) (db : Database) :
    Except Failure (List Write) :=
  (auditRows target old new day clock.today).map fun rows =>
    let edited := event ++ rows.map .audit
    edited ++ recomputed (edited.foldl Write.apply db)

/-- The write of a metric's value, if there is one. -/
def metricWrites (day : Date) (metricId : ℕ) (entry row : Option MetricLog) : List Write :=
  if entry = none ∧ row = none then [] else [.metric day metricId row]

/-- The rows that a request has to write. -/
def dueWrites (py : TextParsers) (clock : Clock) (db : Database) :
    JournalRequest → Except Failure (List Write)
  | .markHabit date streakId mark => do
    let day ← parseDate date
    let passed ← parseMark mark
    let _ ← foundOr404 (db.getStreak streakId)
    let change := habitChange (db.habitLog.lookup (day, streakId)) passed clock.now
    editWrites (habitTarget day streakId) (change.old.map .bool) (change.new.map .bool) day clock
      [.habit day streakId change.row]
      (fun db' => [.streakState streakId
        (recomputedStreakState db' streakId clock (graceEnabled db))]) db
  | .markTracker date trackerId => do
    let day ← parseDate date
    let _ ← foundOr404 (db.getTracker trackerId)
    let change := trackerChange (db.trackerEvents.lookup (day, trackerId))
    editWrites (trackerTarget day trackerId) (change.old.map .bool) (change.new.map .bool) day
      clock [.trackerEvent day trackerId change.row]
      (fun db' => [.trackerState trackerId (recomputedTrackerState db' trackerId clock)]) db
  | .saveMetric date metricId value => do
    let day ← parseDate date
    let metric ← foundOr404 (db.getMetric metricId)
    let value ← parseMetricValue py metric value
    let entry := db.metricLog.lookup (day, metricId)
    let change ← metricChange metric.metricType entry value clock.now
    editWrites (metricTarget day metricId) (change.old.map .decimal) (change.new.map .decimal) day
      clock (metricWrites day metricId entry change.row) (fun _ => []) db
  | .toggleBadDay date => do
    let day ← parseDate date
    let change := badDayChange (db.dailyState.lookup day) clock.now
    editWrites (badDayTarget day) (change.old.map .bool) (change.new.map .bool) day clock
      [.daily day change.row]
      (fun db' => stateWrites clock (graceEnabled db) db.activeStreakIds db') db

/-! ## They make the database that the handler leaves -/

theorem foldl_audit (rows : List EditLog) (db : Database) :
    (rows.map Write.audit).foldl Write.apply db = { db with editLog := db.editLog ++ rows } := by
  induction rows generalizing db with
  | nil => rw [List.map_nil, List.foldl_nil, List.append_nil]
  | cons row rows ih =>
    rw [List.map_cons, List.foldl_cons, ih, Write.apply, List.append_assoc,
      List.singleton_append]

theorem foldl_stateWrites (clock : Clock) (grace : Bool) (ids : List ℕ) (db : Database) :
    (stateWrites clock grace ids db).foldl Write.apply db =
      recomputeStreaks clock grace ids db := by
  induction ids generalizing db with
  | nil => rfl
  | cons id ids ih =>
    rw [stateWrites, List.foldl_cons]
    exact ih (recomputeStreakState db id clock grace)

/-- The writes of an edit make what the handler makes of the event row, the audit and the
recompute. -/
theorem editWrites_apply {target : AuditTarget} {old new : Option AuditValue} {day : Date}
    {clock : Clock} {event : List Write} {db : Database} (recomputed : Database → List Write)
    (recompute : Database → Database)
    (hrecompute : ∀ db', (recomputed db').foldl Write.apply db' = recompute db') :
    (editWrites target old new day clock event recomputed db).map
        (fun ws => ws.foldl Write.apply db) =
      (maybeAudit (event.foldl Write.apply db) target old new day clock.today).map recompute := by
  rw [editWrites, maybeAudit]
  cases auditRows target old new day clock.today with
  | error e => rfl
  | ok rows =>
    show Except.ok (List.foldl Write.apply db _) = Except.ok _
    rw [List.foldl_append, hrecompute, List.foldl_append, foldl_audit]

theorem metricWrites_apply (day : Date) (metricId : ℕ) (row : Option MetricLog) (db : Database) :
    (metricWrites day metricId (db.metricLog.lookup (day, metricId)) row).foldl Write.apply db =
      { db with metricLog := db.metricLog.put (day, metricId) row } := by
  rw [metricWrites]
  split_ifs with h
  · rw [h.2, Table.put_none_of_lookup_eq_none h.1]
    rfl
  · rfl

/-- **The due writes make the database that the handler leaves.** -/
theorem dueWrites_handle (py : TextParsers) (clock : Clock) (db : Database)
    (req : JournalRequest) :
    (dueWrites py clock db req).map (fun ws => ws.foldl Write.apply db) =
      handleJournal py clock db req := by
  cases req with
  | markHabit date streakId mark =>
    rw [dueWrites, handleJournal, markHabit]
    cases parseDate date with
    | error e => rfl
    | ok day =>
      cases parseMark mark with
      | error e => rfl
      | ok passed =>
        simp only [bind, Except.bind]
        cases foundOr404 (db.getStreak streakId) with
        | error e => rfl
        | ok streak =>
          refine (editWrites_apply _ (fun db' =>
            recomputeStreakState db' streakId clock (graceEnabled db)) fun _ => rfl).trans ?_
          simp only [recordHabit, maybeAudit]
          cases auditRows (habitTarget day streakId) _ _ day clock.today <;> rfl
  | markTracker date trackerId =>
    rw [dueWrites, handleJournal, markTracker]
    cases parseDate date with
    | error e => rfl
    | ok day =>
      simp only [bind, Except.bind]
      cases foundOr404 (db.getTracker trackerId) with
      | error e => rfl
      | ok tracker =>
        refine (editWrites_apply _ (fun db' => recomputeTrackerState db' trackerId clock)
          fun _ => rfl).trans ?_
        simp only [maybeAudit]
        cases auditRows (trackerTarget day trackerId) _ _ day clock.today <;> rfl
  | saveMetric date metricId value =>
    rw [dueWrites, handleJournal, saveMetric]
    cases parseDate date with
    | error e => rfl
    | ok day =>
      simp only [bind, Except.bind]
      cases foundOr404 (db.getMetric metricId) with
      | error e => rfl
      | ok metric =>
        dsimp only
        cases parseMetricValue py metric value with
        | error e => rfl
        | ok value =>
          dsimp only
          cases metricChange metric.metricType (db.metricLog.lookup (day, metricId)) value
            clock.now with
          | error e => rfl
          | ok change =>
            refine (editWrites_apply _ id fun _ => rfl).trans ?_
            rw [metricWrites_apply]
            simp only [maybeAudit]
            cases auditRows (metricTarget day metricId) _ _ day clock.today <;> rfl
  | toggleBadDay date =>
    rw [dueWrites, handleJournal, toggleBadDay]
    cases parseDate date with
    | error e => rfl
    | ok day =>
      refine (editWrites_apply _ (recomputeStreaks clock (graceEnabled db) db.activeStreakIds)
        fun db' => foldl_stateWrites clock _ _ db').trans ?_
      simp only [maybeAudit, bind, Except.bind]
      cases auditRows (badDayTarget day) _ _ day clock.today <;> rfl

/-! ## The handlers and their sessions -/

/-- A handler of the application. -/
abbrev SessionHandler := Handler Database Write Failure

/-- What `app.clock` works with: the zones of the standard library by name, the zone that the
environment names, the zone that the process has cached, and the moment. -/
structure Process where
  zoneNamed : String → Option Zone
  tz : Zone
  cached : Option Zone
  now : Moment

namespace Process

variable (process : Process)

/-- `_saved_zone` on the settings row. -/
def savedZone (db : Database) : Option Zone :=
  db.settings.bind fun row => process.zoneNamed row.timezone

/-- `current_date`, with the zone that is cached then and the one that is cached afterwards.  A
zone that cannot be read is not cached. -/
def currentDay (cached : Option Zone) (next : Option Zone → Date → SessionHandler) :
    SessionHandler :=
  match cached with
  | some zone => next cached (currentDate zone process.now)
  | none =>
    .guarded fun read =>
      match read.bind process.savedZone with
      | some zone => next (some zone) (currentDate zone process.now)
      | none => next none (currentDate process.tz process.now)

/-- `recompute_streak_state`. -/
def recomputeStreak (session : ℕ) (streakId : ℕ) (today : Date) (grace : Bool)
    (next : SessionHandler) : SessionHandler :=
  .flush (.object session) <|
  .read (.object session) fun db =>
    let logged := loggedDays db streakId
    .read (.object session) fun db =>
      let bad := badDays db
      .read (.object session) fun db =>
        let acc := replay logged bad today grace (previousRecord (db.streakState.lookup streakId))
        .add (.object session) (.streakState streakId (stateOf acc process.now)) <|
        .flush (.object session) next

/-- `recompute_tracker_state`. -/
def recomputeTracker (session : ℕ) (trackerId : ℕ) (today : Date) (next : SessionHandler) :
    SessionHandler :=
  .flush (.object session) <|
  .read (.object session) fun db =>
    let state := recomputedTrackerState db trackerId ⟨today, process.now⟩
    .read (.object session) fun _ =>
      .add (.object session) (.trackerState trackerId state) <|
      .flush (.object session) next

/-- `maybe_audit`, on the session that the handler keeps. -/
def audit (session : ℕ) (target : AuditTarget) (old new : Option AuditValue) (day today : Date)
    (next : SessionHandler) : SessionHandler :=
  .check (auditRows target old new day today) fun rows =>
    .addAll (.object session) (rows.map .audit) next

/-- The rows of a fragment that are looked at one after the other when it is rendered. -/
def render (session : ℕ) : ℕ → SessionHandler
  | 0 => .done
  | n + 1 => .touch session fun _ => render session n

/-- `mark_habit` from `session = db_session()` on. -/
def finishHabit (day : Date) (streakId : ℕ) (change : RowChange HabitLog Bool) (session : ℕ) :
    SessionHandler :=
  process.currentDay process.cached fun cached today =>
  audit session (habitTarget day streakId) (change.old.map .bool) (change.new.map .bool) day
    today <|
  process.currentDay cached fun _ today =>
  .read (.object session) fun db =>
    process.recomputeStreak session streakId today (graceEnabled db) <|
    -- the streak, its state, and the entry where there is one
    .commit <| render session (if change.row = none then 2 else 3)

/-- `mark_habit`. -/
def markHabit (date : String) (streakId : ℕ) (mark : String) : SessionHandler :=
  .check (parseDate date) fun day =>
  .check (parseMark mark) fun passed =>
  .read .registry fun db =>
  .check (foundOr404 (db.getStreak streakId)) fun _ =>
  .read .registry fun db =>
    let change := habitChange (db.habitLog.lookup (day, streakId)) passed process.now
    .add .registry (.habit day streakId change.row) <|
    .session (process.finishHabit day streakId change)

/-- `mark_tracker` from `session = db_session()` on. -/
def finishTracker (day : Date) (trackerId : ℕ) (change : RowChange TrackerEvent Bool)
    (session : ℕ) : SessionHandler :=
  process.currentDay process.cached fun cached today =>
  audit session (trackerTarget day trackerId) (change.old.map .bool) (change.new.map .bool) day
    today <|
  process.currentDay cached fun _ today =>
  process.recomputeTracker session trackerId today <|
  -- the tracker and its state
  .commit <| render session 2

/-- `mark_tracker`. -/
def markTracker (date : String) (trackerId : ℕ) : SessionHandler :=
  .check (parseDate date) fun day =>
  .read .registry fun db =>
  .check (foundOr404 (db.getTracker trackerId)) fun _ =>
  .read .registry fun db =>
    let change := trackerChange (db.trackerEvents.lookup (day, trackerId))
    .add .registry (.trackerEvent day trackerId change.row) <|
    .session (process.finishTracker day trackerId change)

/-- The value of a metric's entry when it is rendered: as it was set, or, read again, as it is
stored. -/
def shownValue (day : Date) (metricId : ℕ) (value : Decimal) : Option Database → Option Decimal
  | none => some value
  | some db => (db.metricLog.lookup (day, metricId)).map MetricLog.value

/-- The entry of a metric's row.  Formatting a signalling NaN raises. -/
def renderEntry (day : Date) (metricId : ℕ) (metricType : MetricType) (session : ℕ) :
    Option Decimal → SessionHandler
  | none => .done
  | some value =>
    .touch session fun read =>
      if metricType = .numeric ∧
          ∃ v ∈ shownValue day metricId value read, v.isSignalling = true then
        .raise .raised
      else .done

/-- The metric's row.  A scale without bounds has no span. -/
def renderMetric (day : Date) (metricId : ℕ) (metric : Metric) (value : Option Decimal)
    (session : ℕ) : SessionHandler :=
  .touch session fun _ =>
    if metric.metricType = .scale ∧ (metric.scaleMin = none ∨ metric.scaleMax = none) then
      .raise .raised
    else renderEntry day metricId metric.metricType session value

/-- `save_metric` from `maybe_audit(db_session(), ..)` on. -/
def finishMetric (day : Date) (metricId : ℕ) (metric : Metric)
    (change : RowChange MetricLog Decimal) (session : ℕ) : SessionHandler :=
  process.currentDay process.cached fun _ today =>
  audit session (metricTarget day metricId) (change.old.map .decimal) (change.new.map .decimal)
    day today <|
  .commit <| renderMetric day metricId metric change.new session

/-- `save_metric`. -/
def saveMetric (py : TextParsers) (date : String) (metricId : ℕ) (value : String) :
    SessionHandler :=
  .check (parseDate date) fun day =>
  .read .registry fun db =>
  .check (foundOr404 (db.getMetric metricId)) fun metric =>
  .check (parseMetricValue py metric value) fun value =>
  .read .registry fun db =>
    let entry := db.metricLog.lookup (day, metricId)
    .check (metricChange metric.metricType entry value process.now) fun change =>
    .addAll .registry (metricWrites day metricId entry change.row) <|
    .session (process.finishMetric day metricId metric change)

/-- The loop over the active streaks, and the commit after it. -/
def recountAll (session : ℕ) (grace : Bool) : List ℕ → Option Zone → SessionHandler
  | [], _ => .commit .done
  | id :: ids, cached =>
    process.currentDay cached fun cached today =>
      process.recomputeStreak session id today grace (recountAll session grace ids cached)

/-- `toggle_bad_day` from `session = db_session()` on. -/
def finishBadDay (day : Date) (change : RowChange DailyState Bool) (session : ℕ) :
    SessionHandler :=
  process.currentDay process.cached fun cached today =>
  audit session (badDayTarget day) (change.old.map .bool) (change.new.map .bool) day today <|
  .read (.object session) fun db =>
    let grace := graceEnabled db
    .read .registry fun db => process.recountAll session grace db.activeStreakIds cached

/-- `toggle_bad_day`. -/
def toggleBadDay (date : String) : SessionHandler :=
  .check (parseDate date) fun day =>
  .read .registry fun db =>
    let change := badDayChange (db.dailyState.lookup day) process.now
    .add .registry (.daily day change.row) <|
    .session (process.finishBadDay day change)

/-- The handler of a request. -/
def program (py : TextParsers) : JournalRequest → SessionHandler
  | .markHabit date streakId mark => process.markHabit date streakId mark
  | .markTracker date trackerId => process.markTracker date trackerId
  | .saveMetric date metricId value => process.saveMetric py date metricId value
  | .toggleBadDay date => process.toggleBadDay date

/-- The zone that the process has cached once it has read the settings. -/
def keptZone (db : Database) : Option Zone := process.cached.or (process.savedZone db)

/-- The clock of a request whose reads all succeed. -/
def clock (db : Database) : Clock :=
  ⟨currentDate ((process.keptZone db).getD process.tz) process.now, process.now⟩

end Process

/-! ## A request whose reads all succeed -/

/-- A scale has its two bounds. -/
def Metric.HasBounds (metric : Metric) : Prop :=
  ¬ (metric.metricType = .scale ∧ (metric.scaleMin = none ∨ metric.scaleMax = none))

/-- The row that `add_metric` adds.  No other route sets the type or the bounds. -/
def newMetric (id : ℕ) : MetricType → Metric
  | .scale => { id := id, metricType := .scale, scaleMin := some 1, scaleMax := some 5 }
  | .numeric => { id := id, metricType := .numeric }

theorem newMetric_hasBounds (id : ℕ) (metricType : MetricType) :
    (newMetric id metricType).HasBounds := by
  cases metricType <;> simp [Metric.HasBounds, newMetric]

/-- The writes of a request leave the settings. -/
theorem settings_foldl (ws : List Write) (db : Database) :
    (ws.foldl Write.apply db).settings = db.settings := by
  induction ws generalizing db with
  | nil => rfl
  | cons w ws ih =>
    rw [List.foldl_cons, ih]
    cases w <;> rfl

section Exec

variable (process : Process) (db : Database)

theorem clock_now : (process.clock db).now = process.now := rfl

theorem savedZone_foldl (ws : List Write) :
    process.savedZone (ws.foldl Write.apply db) = process.savedZone db := by
  rw [Process.savedZone, Process.savedZone, settings_foldl]

theorem exec_currentDay {cached : Option Zone}
    (hcached : cached.or (process.savedZone db) = process.keptZone db)
    (next : Option Zone → Date → SessionHandler) (pending sent : List Write) :
    exec db Write.apply .raised (process.currentDay cached next) none (working pending sent) =
      exec db Write.apply .raised (next (process.keptZone db) (process.clock db).today) none
        (working pending sent) := by
  rw [Process.clock, ← hcached]
  cases cached with
  | some zone => rfl
  | none =>
    rw [Process.currentDay, exec_guarded, Option.bind_some, savedZone_foldl,
      Option.none_or]
    cases process.savedZone db <;> rfl

theorem keptZone_or : (process.keptZone db).or (process.savedZone db) = process.keptZone db := by
  rw [Process.keptZone, Option.or_assoc, Option.or_self]

theorem exec_audit {target : AuditTarget} {old new : Option AuditValue} {day today : Date}
    {next : SessionHandler} {pending sent : List Write} :
    exec db Write.apply .raised (Process.audit 0 target old new day today next) none
        (working pending sent) =
      match auditRows target old new day today with
      | .ok rows =>
        exec db Write.apply .raised next none (working (pending ++ rows.map .audit) sent)
      | .error e => ⟨.error e, []⟩ := by
  rw [Process.audit]
  cases auditRows target old new day today with
  | error e => rfl
  | ok rows => exact exec_addAll (Or.inr rfl) _ _ _ _

theorem exec_recomputeStreak (streakId : ℕ) (grace : Bool) (next : SessionHandler)
    (pending sent : List Write) :
    exec db Write.apply .raised
        (process.recomputeStreak 0 streakId (process.clock db).today grace next) none
        (working pending sent) =
      exec db Write.apply .raised next none (working [] ((sent ++ pending) ++ [.streakState streakId
        (recomputedStreakState ((sent ++ pending).foldl Write.apply db) streakId
          (process.clock db) grace)])) := by
  rw [Process.recomputeStreak, exec_flush, exec_read_object, exec_read_object,
    exec_read_object, exec_add_object, exec_flush]
  rfl

theorem exec_recomputeTracker (trackerId : ℕ) (next : SessionHandler)
    (pending sent : List Write) :
    exec db Write.apply .raised
        (process.recomputeTracker 0 trackerId (process.clock db).today next) none
        (working pending sent) =
      exec db Write.apply .raised next none (working []
        ((sent ++ pending) ++ [.trackerState trackerId (recomputedTrackerState
          ((sent ++ pending).foldl Write.apply db) trackerId (process.clock db))])) := by
  rw [Process.recomputeTracker, exec_flush, exec_read_object, exec_read_object,
    exec_add_object, exec_flush]
  rfl

theorem exec_render (n : ℕ) (committed : List Write) :
    exec db Write.apply .raised (Process.render 0 n) none (rendering committed) =
      ⟨.ok (), committed⟩ := by
  induction n with
  | zero => rfl
  | succ n ih => rw [Process.render, exec_touch, ← ih]

theorem exec_finishHabit (day : Date) (streakId : ℕ) (change : RowChange HabitLog Bool)
    (event : Write) :
    exec db Write.apply .raised (process.finishHabit day streakId change 0) none
        (working [event] []) =
      dueResult (editWrites (habitTarget day streakId) (change.old.map .bool)
        (change.new.map .bool) day (process.clock db) [event]
        (fun db' => [.streakState streakId
          (recomputedStreakState db' streakId (process.clock db) (graceEnabled db))]) db) := by
  rw [Process.finishHabit, exec_currentDay process db rfl, exec_audit, editWrites]
  cases auditRows (habitTarget day streakId) _ _ day (process.clock db).today with
  | error e => rfl
  | ok rows =>
    dsimp only
    rw [exec_currentDay process db (keptZone_or process db), exec_read_object,
      List.foldl_nil, exec_recomputeStreak, exec_commit, exec_render]
    simp [dueResult, Except.map]

theorem exec_finishTracker (day : Date) (trackerId : ℕ) (change : RowChange TrackerEvent Bool)
    (event : Write) :
    exec db Write.apply .raised (process.finishTracker day trackerId change 0) none
        (working [event] []) =
      dueResult (editWrites (trackerTarget day trackerId) (change.old.map .bool)
        (change.new.map .bool) day (process.clock db) [event]
        (fun db' => [.trackerState trackerId
          (recomputedTrackerState db' trackerId (process.clock db))]) db) := by
  rw [Process.finishTracker, exec_currentDay process db rfl, exec_audit, editWrites]
  cases auditRows (trackerTarget day trackerId) _ _ day (process.clock db).today with
  | error e => rfl
  | ok rows =>
    dsimp only
    rw [exec_currentDay process db (keptZone_or process db), exec_recomputeTracker,
      exec_commit, exec_render]
    simp [dueResult, Except.map]

theorem exec_recountAll (grace : Bool) (ids : List ℕ) {cached : Option Zone}
    (hcached : cached.or (process.savedZone db) = process.keptZone db)
    (pending sent : List Write) :
    exec db Write.apply .raised (process.recountAll 0 grace ids cached) none
        (working pending sent) =
      ⟨.ok (), (sent ++ pending) ++ stateWrites (process.clock db) grace ids
        ((sent ++ pending).foldl Write.apply db)⟩ := by
  induction ids generalizing cached pending sent with
  | nil => rw [Process.recountAll, exec_commit, stateWrites, List.append_nil]; rfl
  | cons id ids ih =>
    rw [Process.recountAll, exec_currentDay process db hcached, exec_recomputeStreak,
      ih (keptZone_or process db), stateWrites]
    rw [List.append_nil, List.foldl_concat, List.append_assoc]
    rfl

theorem exec_finishBadDay (day : Date) (change : RowChange DailyState Bool)
    (row : Option DailyState) :
    exec db Write.apply .raised (process.finishBadDay day change 0) none
        (working [.daily day row] []) =
      dueResult (editWrites (badDayTarget day) (change.old.map .bool) (change.new.map .bool) day
        (process.clock db) [.daily day row]
        (fun db' => stateWrites (process.clock db) (graceEnabled db) db.activeStreakIds db')
        db) := by
  rw [Process.finishBadDay, exec_currentDay process db rfl, exec_audit, editWrites]
  cases auditRows (badDayTarget day) _ _ day (process.clock db).today with
  | error e => rfl
  | ok rows =>
    dsimp only
    rw [exec_read_object, exec_read_registry, List.foldl_nil,
      exec_recountAll process db _ _ (keptZone_or process db)]
    simp [dueResult, Except.map]

/-- The entry that the answer shows is the one that was written. -/
theorem lookup_metricWrites (day : Date) (metricId : ℕ) (row : Option MetricLog)
    (rows : List EditLog) :
    ((metricWrites day metricId (db.metricLog.lookup (day, metricId)) row ++
      rows.map Write.audit).foldl Write.apply db).metricLog.lookup (day, metricId) = row := by
  rw [List.foldl_append, foldl_audit, metricWrites_apply]
  exact Table.lookup_put_self _ _ _

theorem exec_finishMetric (day : Date) {metricId : ℕ} {metric : Metric}
    (hbounds : metric.HasBounds) {change : RowChange MetricLog Decimal}
    (hstored : change.new.map Decimal.stored = change.row.map MetricLog.value) :
    exec db Write.apply .raised (process.finishMetric day metricId metric change 0) none
        (working (metricWrites day metricId (db.metricLog.lookup (day, metricId)) change.row)
          []) =
      dueResult (editWrites (metricTarget day metricId) (change.old.map .decimal)
        (change.new.map .decimal) day (process.clock db)
        (metricWrites day metricId (db.metricLog.lookup (day, metricId)) change.row)
        (fun _ => []) db) := by
  rw [Process.finishMetric, exec_currentDay process db rfl, exec_audit, editWrites]
  cases auditRows (metricTarget day metricId) _ _ day (process.clock db).today with
  | error e => rfl
  | ok rows =>
    dsimp only
    rw [exec_commit, List.nil_append, Process.renderMetric, exec_touch, if_neg hbounds]
    cases hnew : change.new with
    | none => simp [dueResult, Except.map, Process.renderEntry]
    | some value =>
      rw [Process.renderEntry, exec_touch, Process.shownValue, lookup_metricWrites, ← hstored,
        hnew, Option.map_some, if_neg]
      · simp [dueResult, Except.map]
      · rintro ⟨-, v, hv, hsignalling⟩
        rw [← Option.some.inj hv, Decimal.isSignalling_stored] at hsignalling
        cases hsignalling

/-- **A request whose reads all succeed commits what is due.** -/
theorem exec_program (py : TextParsers) (hbounds : ∀ metric ∈ db.metrics, metric.HasBounds)
    (req : JournalRequest) :
    exec db Write.apply .raised (process.program py req) none {} =
      dueResult (dueWrites py (process.clock db) db req) := by
  cases req with
  | markHabit date streakId mark =>
    rw [Process.program, Process.markHabit, dueWrites]
    cases parseDate date with
    | error e => rfl
    | ok day =>
      cases parseMark mark with
      | error e => rfl
      | ok passed =>
        simp only [Handler.check, exec_read_start, bind, Except.bind]
        cases foundOr404 (db.getStreak streakId) with
        | error e => rfl
        | ok streak =>
          dsimp only
          rw [exec_read_registry, exec_add_registry, exec_session]
          exact exec_finishHabit process db day streakId _ _
  | markTracker date trackerId =>
    rw [Process.program, Process.markTracker, dueWrites]
    cases parseDate date with
    | error e => rfl
    | ok day =>
      simp only [Handler.check, exec_read_start, bind, Except.bind]
      cases foundOr404 (db.getTracker trackerId) with
      | error e => rfl
      | ok tracker =>
        dsimp only
        rw [exec_read_registry, exec_add_registry, exec_session]
        exact exec_finishTracker process db day trackerId _ _
  | saveMetric date metricId value =>
    rw [Process.program, Process.saveMetric, dueWrites]
    cases parseDate date with
    | error e => rfl
    | ok day =>
      simp only [Handler.check, exec_read_start, bind, Except.bind]
      cases hmetric : foundOr404 (db.getMetric metricId) with
      | error e => rfl
      | ok metric =>
        dsimp only
        cases parseMetricValue py metric value with
        | error e => rfl
        | ok value =>
          dsimp only
          rw [exec_read_registry, List.foldl_nil, clock_now]
          cases hchange : metricChange metric.metricType (db.metricLog.lookup (day, metricId))
            value process.now with
          | error e => rfl
          | ok change =>
            have hmem : metric ∈ db.metrics :=
              List.mem_of_find?_eq_some (foundOr404_eq_ok.mp hmetric)
            dsimp only
            rw [exec_addAll (Or.inl rfl), exec_session, List.nil_append]
            exact exec_finishMetric process db day (hbounds metric hmem)
              (metricChange_faithful hchange).new
  | toggleBadDay date =>
    rw [Process.program, Process.toggleBadDay, dueWrites]
    cases parseDate date with
    | error e => rfl
    | ok day =>
      simp only [Handler.check, exec_read_start, bind, Except.bind]
      rw [exec_add_registry, exec_session]
      exact exec_finishBadDay process db day _ _

/-- A request that fails commits nothing; one that answers leaves the handler's database. -/
theorem exec_program_handle (py : TextParsers) (hbounds : ∀ metric ∈ db.metrics, metric.HasBounds)
    (req : JournalRequest) {run : Result Write Failure}
    (hrun : exec db Write.apply .raised (process.program py req) none {} = run) :
    (run.answer.map fun _ => run.committed.foldl Write.apply db) =
        handleJournal py (process.clock db) db req ∧
      ((∃ e, run.answer = .error e) → run.committed = []) := by
  rw [exec_program process db py hbounds] at hrun
  rw [← dueWrites_handle]
  cases hdue : dueWrites py (process.clock db) db req with
  | error e =>
    rw [hdue] at hrun
    subst hrun
    exact ⟨rfl, fun _ => rfl⟩
  | ok due =>
    rw [hdue] at hrun
    subst hrun
    constructor
    · rfl
    · rintro ⟨e, he⟩
      cases he

end Exec

end EpsCloud

import EpsCloud.Library.References
import EpsCloud.Library.Runs
import EpsCloud.Site.Requests
import EpsCloud.Trackers.UsableForms
import EpsCloud.Weather.Location

/-!
# What every request keeps

The tables refer to each other: entries, events, values and state rows to the streak, tracker
or metric they are about, and task events to their task.  The handlers check what they refer
to when they write, and delete what refers to a row before the row.

* `Linked`: every reference is to a row that is there, ids come from their sequences, every
  tracker has its state row, every task a date and every scale its bounds.
* `linked_of_*`: a handler keeps it.
* `does_after`: what a request can do to the state.
* `sound_after_run`: so does every run of requests and jobs.
-/

namespace EpsCloud

/-! ## The invariant -/

section

variable (streaks : List Streak) (trackers : List Tracker) (metrics : List Metric)
  (tasks : List Task)

/-- The tables of the streaks. -/
structure StreaksLinked (next : ℕ) (habitLog : Table (Date × ℕ) HabitLog)
    (streakState : Table ℕ StreakState) (texts : Table ℕ StreakTexts) : Prop where
  ids : InSequence Streak.id streaks next
  entries : Refers habitLog Prod.snd (IdIn Streak.id streaks)
  states : Refers streakState id (IdIn Streak.id streaks)
  texts : ∀ k, (texts.lookup k).isSome ↔ IdIn Streak.id streaks k

/-- The tables of the trackers; each has its state row, without which it is not on the agenda. -/
structure TrackersLinked (next : ℕ) (trackerEvents : Table (Date × ℕ) TrackerEvent)
    (trackerState : Table ℕ TrackerState) : Prop where
  ids : InSequence Tracker.id trackers next
  events : Refers trackerEvents Prod.snd (IdIn Tracker.id trackers)
  states : ∀ k, (trackerState.lookup k).isSome ↔ IdIn Tracker.id trackers k

/-- The tables of the metrics; a scale has its bounds. -/
structure MetricsLinked (next : ℕ) (metricLog : Table (Date × ℕ) MetricLog)
    (texts : Table ℕ MetricTexts) : Prop where
  ids : InSequence Metric.id metrics next
  values : Refers metricLog Prod.snd (IdIn Metric.id metrics)
  texts : ∀ k, (texts.lookup k).isSome ↔ IdIn Metric.id metrics k
  bounds : ∀ metric ∈ metrics, metric.HasBounds

/-- The tables of the tasks; each has a date. -/
structure TasksLinked (next : ℕ) (taskEvents : List TaskEvent) (nextEvent : ℕ) : Prop where
  ids : InSequence Task.id tasks next
  eventIds : InSequence TaskEvent.id taskEvents nextEvent
  events : ∀ e ∈ taskEvents, IdIn Task.id tasks e.taskId
  context : ∀ task ∈ tasks, task.HasTemporalContext

end

/-- A database whose references are to rows that are there, made from the one of the site. -/
structure Linked (s : Site) (db : Database) : Prop where
  streaks : StreaksLinked db.streaks s.streakSeq db.habitLog db.streakState s.streakTexts
  trackers : TrackersLinked db.trackers db.trackerSeq db.trackerEvents db.trackerState
  metrics : MetricsLinked db.metrics s.metricSeq db.metricLog s.metricTexts
  tasks : TasksLinked db.tasks db.taskSeq db.taskEvents db.taskEventSeq
  log : s.db.editLog <+: db.editLog
  newTrackers : NewIds Tracker.id s.db.trackers s.db.trackerSeq db.trackers db.trackerSeq
  newTasks : NewIds Task.id s.db.tasks s.db.taskSeq db.tasks db.taskSeq

/-- The references of the database are to rows that are there, and each row of the audit has its
time. -/
structure Site.Sound (s : Site) : Prop where
  linked : Linked s s.db
  times : s.auditTimes.length = s.db.editLog.length

section Keep

variable {s : Site} {db db' : Database}

/-! ## Streaks -/

theorem idIn_of_getStreak {streakId : ℕ} (h : ∃ streak, db.getStreak streakId = some streak) :
    IdIn Streak.id db.streaks streakId := by
  obtain ⟨streak, hstreak⟩ := h
  rw [Database.getStreak] at hstreak
  have hid := List.find?_some hstreak
  exact ⟨streak, List.mem_of_find?_eq_some hstreak, of_decide_eq_true hid⟩

/-- The state row of a streak that is there is rewritten. -/
theorem linked_recomputeStreak (h : Linked s db) {streakId : ℕ}
    (hid : IdIn Streak.id db.streaks streakId) (clock : Clock) (grace : Bool) :
    Linked s (recomputeStreakState db streakId clock grace) :=
  { h with streaks := { h.streaks with states := h.streaks.states.insert hid _ } }

theorem linked_recomputeStreaks (h : Linked s db) {ids : List ℕ}
    (hids : ∀ k ∈ ids, IdIn Streak.id db.streaks k) (clock : Clock) (grace : Bool) :
    Linked s (recomputeStreaks clock grace ids db) := by
  induction ids generalizing db with
  | nil => exact h
  | cons k ids ih =>
    obtain ⟨hk, hids⟩ := List.forall_mem_cons.mp hids
    exact ih (linked_recomputeStreak h hk clock grace) hids

theorem idIn_of_active {k : ℕ} (hk : k ∈ db.activeStreakIds) : IdIn Streak.id db.streaks k := by
  obtain ⟨streak, hstreak, rfl⟩ := List.mem_map.mp hk
  exact ⟨streak, List.mem_of_mem_filter hstreak, rfl⟩

theorem linked_of_markHabit (h : Linked s db) {clock : Clock} {date mark : String} {streakId : ℕ}
    (hok : markHabit clock date streakId mark db = .ok db') : Linked s db' := by
  obtain ⟨day, passed, -, -, hstreak, rfl⟩ := markHabit_eq_ok.mp hok
  have hid := idIn_of_getStreak hstreak
  have hedited : Linked s (habitEdited clock day streakId passed db) :=
    { h with
      streaks := { h.streaks with entries := h.streaks.entries.put hid _ }
      log := h.log.trans (List.prefix_append _ _) }
  exact linked_recomputeStreak hedited hid clock _

theorem linked_of_toggleBadDay (h : Linked s db) {clock : Clock} {date : String}
    (hok : toggleBadDay clock date db = .ok db') : Linked s db' := by
  obtain ⟨day, -, rfl⟩ := toggleBadDay_eq_ok.mp hok
  have hedited : Linked s (badDayEdited clock day db) :=
    { h with log := h.log.trans (List.prefix_append _ _) }
  exact linked_recomputeStreaks hedited (fun k hk => idIn_of_active hk) clock _

/-! ## Trackers -/

theorem idIn_of_getTracker {trackerId : ℕ}
    (h : ∃ tracker, db.getTracker trackerId = some tracker) :
    IdIn Tracker.id db.trackers trackerId := by
  obtain ⟨tracker, htracker⟩ := h
  exact ⟨tracker, mem_of_getTracker htracker⟩

theorem isSome_insert_iff {ρ : Type} (t : Table ℕ ρ) (k k' : ℕ) (row : ρ) :
    ((t.insert k row).lookup k').isSome ↔ (t.lookup k').isSome ∨ k' = k := by
  by_cases hk : k' = k
  · rw [hk, AList.lookup_insert]
    exact iff_of_true rfl (.inr rfl)
  · rw [AList.lookup_insert_ne hk]
    exact (or_iff_left hk).symm

/-- The state row of a tracker that is there is rewritten. -/
theorem linked_recomputeTracker (h : Linked s db) {trackerId : ℕ}
    (hid : IdIn Tracker.id db.trackers trackerId) (clock : Clock) :
    Linked s (recomputeTrackerState db trackerId clock) := by
  refine { h with trackers := { h.trackers with states := fun k => ?_ } }
  refine (isSome_insert_iff _ _ _ _).trans ⟨?_, fun hk => .inl ((h.trackers.states k).mpr hk)⟩
  rintro (hk | rfl)
  · exact (h.trackers.states k).mp hk
  · exact hid

theorem linked_of_markTracker (h : Linked s db) {clock : Clock} {date : String} {trackerId : ℕ}
    (hok : markTracker clock date trackerId db = .ok db') : Linked s db' := by
  obtain ⟨day, -, htracker, rfl⟩ := markTracker_eq_ok.mp hok
  have hid := idIn_of_getTracker htracker
  have hedited : Linked s (trackerEdited clock day trackerId db) :=
    { h with
      trackers := { h.trackers with events := h.trackers.events.put hid _ }
      log := h.log.trans (List.prefix_append _ _) }
  exact linked_recomputeTracker hedited hid clock

theorem linked_of_toggleTracker (h : Linked s db) {clock : Clock} {trackerId : ℕ}
    (hok : toggleTracker clock trackerId db = .ok db') : Linked s db' := by
  obtain ⟨htracker, rfl⟩ := toggleTracker_eq_ok.mp hok
  have hid := idIn_of_getTracker htracker
  have hedited : Linked s (trackerToggled clock trackerId db) :=
    { h with trackers := { h.trackers with events := h.trackers.events.put hid _ } }
  exact linked_recomputeTracker hedited hid clock

/-- Trackers that keep their ids. -/
theorem trackersLinked_map {trackers : List Tracker} {next : ℕ}
    {events : Table (Date × ℕ) TrackerEvent} {states : Table ℕ TrackerState}
    (h : TrackersLinked trackers next events states) {f : Tracker → Tracker}
    (hf : ∀ t, (f t).id = t.id) : TrackersLinked (trackers.map f) next events states where
  ids := h.ids.map fun t _ => hf t
  events := h.events.mono fun _ hk => (idIn_map_iff fun t _ => hf t).mpr hk
  states k := (h.states k).trans (idIn_map_iff fun t _ => hf t).symm

theorem linked_of_editTracker (h : Linked s db) {py : TextParsers} {trackerId : ℕ}
    {thresholdDays : String} {visibleOnDays : List String}
    (hok : editTracker py trackerId thresholdDays visibleOnDays db = .ok db') : Linked s db' := by
  obtain ⟨f, rfl, hf⟩ := editTracker_eq_ok hok
  have hid : ∀ t, Tracker.id (if t.id = trackerId then f t else t) = t.id := by
    intro t
    split_ifs
    · exact hf t
    · rfl
  exact { h with
    trackers := trackersLinked_map h.trackers hid
    newTrackers := h.newTrackers.map fun t _ => hid t }

/-- A new tracker gets its state row. -/
theorem linked_of_addTracker (h : Linked s db) {py : TextParsers} {clock : Clock}
    {name thresholdDays : String} {visibleOnDays : List String}
    (hok : addTracker py clock name thresholdDays visibleOnDays db = .ok db') : Linked s db' := by
  obtain ⟨tracker, hid, rfl⟩ := addTracker_eq_ok hok
  refine { h with
    trackers := ⟨h.trackers.ids.append hid, ?_, fun k => ?_⟩
    newTrackers := h.newTrackers.append hid }
  · exact h.trackers.events.mono fun k hk => idIn_append_left hk tracker
  · refine (isSome_insert_iff _ _ _ _).trans ⟨?_, ?_⟩
    · rintro (hk | rfl)
      · exact idIn_append_left ((h.trackers.states k).mp hk) tracker
      · exact idIn_append_self _ _ tracker
    · rintro ⟨t, ht, rfl⟩
      rcases List.mem_append.mp ht with ht | ht
      · exact .inl ((h.trackers.states _).mpr ⟨t, ht, rfl⟩)
      · exact .inr (congrArg Tracker.id (List.mem_singleton.mp ht))

theorem deleteTracker_eq_ok {trackerId : ℕ} :
    deleteTracker trackerId db = .ok db' ↔
      (∃ tracker, db.getTracker trackerId = some tracker) ∧
        db' = { db with
          trackerEvents := (db.trackerEvents.rows.filter fun e => e.1.2 = trackerId).foldl
            (fun t e => t.put e.1 none) db.trackerEvents
          trackerState := db.trackerState.put trackerId none
          trackers := db.trackers.filter fun t => t.id ≠ trackerId } := by
  rw [deleteTracker]
  simp only [bind_eq_ok, foundOr404_eq_ok, pure, Except.pure, Except.ok.injEq]
  constructor
  · rintro ⟨tracker, htracker, rfl⟩
    exact ⟨⟨tracker, htracker⟩, rfl⟩
  · rintro ⟨⟨tracker, htracker⟩, rfl⟩
    exact ⟨tracker, htracker, rfl⟩

/-- **A tracker is deleted with everything that refers to it.** -/
theorem linked_of_deleteTracker (h : Linked s db) {trackerId : ℕ}
    (hok : deleteTracker trackerId db = .ok db') : Linked s db' := by
  obtain ⟨-, rfl⟩ := deleteTracker_eq_ok.mp hok
  refine { h with
    trackers := ⟨h.trackers.ids.filter _, ?_, fun k => ?_⟩
    newTrackers := h.newTrackers.filter _ }
  · exact (h.trackers.events.removeAll trackerId).mono fun k hk => idIn_delete_iff.mpr hk
  · rw [idIn_delete_iff, ← h.trackers.states k, Table.lookup_put]
    by_cases hk : k = trackerId
    · simp [hk]
    · simp [hk]

/-! ## Metrics -/

theorem idIn_of_getMetric {metricId : ℕ} (h : ∃ metric, db.getMetric metricId = some metric) :
    IdIn Metric.id db.metrics metricId := by
  obtain ⟨metric, hmetric⟩ := h
  rw [Database.getMetric] at hmetric
  have hid := List.find?_some hmetric
  exact ⟨metric, List.mem_of_find?_eq_some hmetric, of_decide_eq_true hid⟩

theorem linked_of_saveMetric (h : Linked s db) {py : TextParsers} {clock : Clock}
    {date value : String} {metricId : ℕ}
    (hok : saveMetric py clock date metricId value db = .ok db') : Linked s db' := by
  obtain ⟨day, metric, value, change, -, hmetric, -, -, haudit⟩ := saveMetric_eq_ok.mp hok
  have hid := idIn_of_getMetric ⟨metric, hmetric⟩
  rw [maybeAudit] at haudit
  cases hrows : auditRows (metricTarget day metricId) (change.old.map .decimal)
      (change.new.map .decimal) day clock.today with
  | error e =>
    rw [hrows] at haudit
    cases haudit
  | ok rows =>
    rw [hrows] at haudit
    cases haudit
    exact { h with
      metrics := { h.metrics with values := h.metrics.values.put hid _ }
      log := h.log.trans (List.prefix_append _ _) }

/-! ## Tasks -/

/-- One task is rewritten under its id, and an event of it recorded. -/
theorem linked_recordEvent (h : Linked s db) {stamp : Stamp} {taskId : ℕ} {task : Task}
    {action : TaskAction} {payload : Option TaskPayload}
    (hfound : IdIn Task.id db.tasks taskId) (hid : task.id = taskId)
    (hcontext : task.HasTemporalContext) :
    Linked s (recordEvent stamp taskId action payload (db.setTask taskId task)) := by
  have hf : ∀ t ∈ db.tasks, Task.id (if t.id = taskId then
      { task with lastUserInteractionAt := stamp.now } else t) = t.id := by
    intro t _
    split_ifs with ht
    · exact hid.trans ht.symm
    · rfl
  have htasks := tasks_recordEvent_setTask stamp action payload db hid
  refine { h with
    tasks := ⟨?_, h.tasks.eventIds.append rfl, fun e he => ?_, fun t ht => ?_⟩
    newTasks := ?_ }
  · rw [htasks]
    exact h.tasks.ids.map hf
  · rw [htasks, idIn_map_iff hf]
    rcases List.mem_append.mp he with he | he
    · exact h.tasks.events e he
    · rw [List.mem_singleton.mp he]
      exact hfound
  · rw [htasks] at ht
    obtain ⟨t', ht', rfl⟩ := List.mem_map.mp ht
    split_ifs
    · exact hcontext
    · exact h.tasks.context t' ht'
  · rw [htasks]
    exact h.newTasks.map hf

theorem linked_of_commitEdit (h : Linked s db) {stamp : Stamp} {taskId : ℕ}
    {edit : Task → Except Failure TaskEdit}
    (hedit : ∀ task change, edit task = .ok change → change.task.id = task.id)
    (hok : commitEdit stamp taskId edit db = .ok db') : Linked s db' := by
  obtain ⟨task, change, htask, hchange, hcontext, rfl⟩ := commitEdit_eq_ok.mp hok
  obtain ⟨hmem, hid⟩ := mem_of_getTask htask
  exact linked_recordEvent h ⟨task, hmem, hid⟩ ((hedit task change hchange).trans hid) hcontext

/-- A task that the form adds has a date. -/
theorem addTask_context {py : TextParsers} {stamp : Stamp} {form : TaskForm}
    (hok : addTask py stamp form db = .ok db') :
    ∃ task : Task, task.id = db.taskSeq ∧ task.HasTemporalContext ∧
      db' = recordEvent stamp task.id .created none
        { db with tasks := db.tasks ++ [task], taskSeq := db.taskSeq + 1 } := by
  rw [addTask] at hok
  dsimp only at hok
  split_ifs at hok with hname h₁ hkind
  · obtain ⟨_, hthrow, -⟩ := bind_eq_ok.mp hok
    cases hthrow
  · obtain ⟨_, hthrow, -⟩ := bind_eq_ok.mp hok
    cases hthrow
  · obtain ⟨date, -, hok⟩ := bind_eq_ok.mp hok
    obtain ⟨_, hthrow, -⟩ := bind_eq_ok.mp hok
    cases hthrow
  · obtain ⟨date, -, hok⟩ := bind_eq_ok.mp hok
    obtain ⟨time, -, hok⟩ := bind_eq_ok.mp hok
    refine ⟨_, rfl, ?_, (Except.ok.inj hok).symm⟩
    rcases not_and_or.mp hkind with hdue | hplanned
    · exact .inl (by simp [datesOf, not_not.mp hdue])
    · exact .inr (.inl (by simp [datesOf, not_not.mp hplanned]))

theorem linked_of_addTask (h : Linked s db) {py : TextParsers} {stamp : Stamp} {form : TaskForm}
    (hok : addTask py stamp form db = .ok db') : Linked s db' := by
  obtain ⟨task, hid, hcontext, rfl⟩ := addTask_context hok
  have hbelow : ∀ t ∈ db.tasks, t.id < task.id := by
    intro t ht
    rw [hid]
    exact h.tasks.ids.below t ht
  have htasks := tasks_recordEvent_add stamp hbelow
  refine { h with
    tasks := ⟨?_, h.tasks.eventIds.append rfl, fun e he => ?_, fun t ht => ?_⟩
    newTasks := ?_ }
  · rw [htasks]
    exact h.tasks.ids.append hid
  · rw [htasks]
    rcases List.mem_append.mp he with he | he
    · exact idIn_append_left (h.tasks.events e he) _
    · rw [List.mem_singleton.mp he]
      exact idIn_append_self Task.id db.tasks { task with lastUserInteractionAt := stamp.now }
  · rw [htasks] at ht
    rcases List.mem_append.mp ht with ht | ht
    · exact h.tasks.context t ht
    · rw [List.mem_singleton.mp ht]
      exact hcontext
  · rw [htasks]
    exact h.newTasks.append hid

theorem linked_of_handleTask (h : Linked s db) {py : TextParsers} {req : TaskRequest}
    (hok : handleTask py req db = .ok db') : Linked s db' := by
  obtain ⟨stamp, act⟩ := req
  cases act with
  | add form => exact linked_of_addTask h hok
  | toggle taskId =>
    refine linked_of_commitEdit h (fun task change hchange => ?_) hok
    obtain rfl := Except.ok.inj hchange
    rw [toggleEdit]
    cases task.completedAt <;> rfl
  | vital taskId =>
    refine linked_of_commitEdit h (fun task change hchange => ?_) hok
    obtain rfl := Except.ok.inj hchange
    rfl
  | reschedule taskId form =>
    exact linked_of_commitEdit h (fun task change hchange => id_rescheduleEdit hchange) hok
  | keep taskId =>
    refine linked_of_commitEdit h (fun task change hchange => ?_) hok
    obtain rfl := Except.ok.inj hchange
    rfl
  | archive taskId =>
    refine linked_of_commitEdit h (fun task change hchange => ?_) hok
    obtain rfl := Except.ok.inj hchange
    rfl

theorem deleteTask_eq_ok {taskId : ℕ} :
    deleteTask taskId db = .ok db' ↔ (∃ task, db.getTask taskId = some task) ∧
      db' = { db with
        taskEvents := db.taskEvents.filter fun e => e.taskId ≠ taskId
        tasks := db.tasks.filter fun t => t.id ≠ taskId } := by
  rw [deleteTask]
  simp only [bind_eq_ok, foundOr404_eq_ok, pure, Except.pure, Except.ok.injEq]
  constructor
  · rintro ⟨task, htask, rfl⟩
    exact ⟨⟨task, htask⟩, rfl⟩
  · rintro ⟨⟨task, htask⟩, rfl⟩
    exact ⟨task, htask, rfl⟩

/-- **A task is deleted with its events.** -/
theorem linked_of_deleteTask (h : Linked s db) {taskId : ℕ}
    (hok : deleteTask taskId db = .ok db') : Linked s db' := by
  obtain ⟨-, rfl⟩ := deleteTask_eq_ok.mp hok
  refine { h with
    tasks := ⟨h.tasks.ids.filter _, h.tasks.eventIds.filter _, fun e he => ?_,
      fun t ht => h.tasks.context t (List.mem_of_mem_filter ht)⟩
    newTasks := h.newTasks.filter _ }
  obtain ⟨he, hne⟩ := List.mem_filter.mp he
  exact idIn_delete_iff.mpr ⟨h.tasks.events e he, of_decide_eq_true hne⟩

/-- Other manual keys. -/
theorem linked_rekey (h : Linked s db) (f : Item → Option ℤ → Option ℤ) :
    Linked s (db.rekey f) := by
  have hf : ∀ t ∈ db.tasks, (t.rekey f).id = t.id := fun _ _ => rfl
  refine { h with
    trackers := trackersLinked_map h.trackers fun _ => rfl
    tasks := ⟨h.tasks.ids.map hf, h.tasks.eventIds, fun e he => ?_, fun t ht => ?_⟩
    newTrackers := h.newTrackers.map fun _ _ => rfl
    newTasks := h.newTasks.map hf }
  · exact (idIn_map_iff hf).mpr (h.tasks.events e he)
  · obtain ⟨t', ht', rfl⟩ := List.mem_map.mp ht
    exact h.tasks.context t' ht'

/-! ## The other tables -/

theorem linked_of_saveNote (h : Linked s db) {date noteText : String}
    (hok : saveNote date noteText db = .ok db') : Linked s db' := by
  obtain ⟨day, -, hdb⟩ := bind_eq_ok.mp hok
  obtain rfl := Except.ok.inj hdb
  exact { h with }

theorem linked_of_saveWeather (h : Linked s db) {py : TextParsers} {lat lon : String}
    (hok : saveWeather py lat lon db = .ok db') : Linked s db' := by
  obtain ⟨latitude, longitude, -, -, rfl⟩ := saveWeather_eq_ok.mp hok
  exact { h with }

theorem linked_of_saveTimezone (h : Linked s db) {zones : List String} {timezone : String}
    (hok : saveTimezone zones timezone db = .ok db') : Linked s db' := by
  rw [saveTimezone] at hok
  split_ifs at hok
  obtain rfl := Except.ok.inj hok
  exact { h with }

theorem linked_of_moveItem (h : Linked s db) {item direction : String} {today : Date}
    {now : Moment} (hok : moveItem item direction today now db = .ok db') : Linked s db' := by
  obtain ⟨item, key, rfl⟩ := moveItem_eq_ok hok
  rw [setSortOrder_eq_rekey]
  exact linked_rekey h _

theorem linked_of_handleJournal (h : Linked s db) {py : TextParsers} {clock : Clock}
    {req : JournalRequest} (hok : handleJournal py clock db req = .ok db') : Linked s db' := by
  cases req with
  | markHabit date streakId mark => exact linked_of_markHabit h hok
  | markTracker date trackerId => exact linked_of_markTracker h hok
  | saveMetric date metricId value => exact linked_of_saveMetric h hok
  | toggleBadDay date => exact linked_of_toggleBadDay h hok

end Keep

/-! ## What the forms add -/

theorem addStreak_eq_ok {s s' : Site} {py : TextParsers} {name description : String}
    (hok : addStreak py name description s = .ok s') :
    ∃ text, s' = { s with
      db := { s.db with streaks := s.db.streaks ++ [{ id := s.streakSeq }] }
      streakTexts := s.streakTexts.insert s.streakSeq text
      streakSeq := s.streakSeq + 1 } := by
  rw [addStreak] at hok
  dsimp only at hok
  split_ifs at hok
  · obtain ⟨_, hthrow, -⟩ := bind_eq_ok.mp hok
    cases hthrow
  · exact ⟨_, (Except.ok.inj hok).symm⟩

theorem addMetric_eq_ok {s s' : Site} {py : TextParsers} {name metricType unit : String}
    (hok : addMetric py name metricType unit s = .ok s') :
    ∃ type text, s' = { s with
      db := { s.db with metrics := s.db.metrics ++ [newMetric s.metricSeq type] }
      metricTexts := s.metricTexts.insert s.metricSeq text
      metricSeq := s.metricSeq + 1 } := by
  rw [addMetric] at hok
  dsimp only at hok
  split_ifs at hok
  · obtain ⟨_, hthrow, -⟩ := bind_eq_ok.mp hok
    cases hthrow
  · obtain ⟨type, -, hok⟩ := bind_eq_ok.mp hok
    exact ⟨type, _, (Except.ok.inj hok).symm⟩

/-! ## One request -/

namespace Site

variable {s s' : Site} {env : SiteEnv}

/-- What a request can do to the state. -/
inductive Does (s : Site) (req : SiteRequest) : Site → Prop
  | nothing : Does s req s
  | store (db : Database) (hdb : Linked s db) : Does s req (s.store req.dbNow db)
  | addStreak (text : StreakTexts) : Does s req { s with
      db := { s.db with streaks := s.db.streaks ++ [{ id := s.streakSeq }] }
      streakTexts := s.streakTexts.insert s.streakSeq text
      streakSeq := s.streakSeq + 1 }
  | addMetric (type : MetricType) (text : MetricTexts) : Does s req { s with
      db := { s.db with metrics := s.db.metrics ++ [newMetric s.metricSeq type] }
      metricTexts := s.metricTexts.insert s.metricSeq text
      metricSeq := s.metricSeq + 1 }
  | saveFetchTimes (times : FetchTimes) :
      Does s req { s with db := openSettings s.db, fetchTimes := times }
  | warm (db : Database) (hwarms : Warms s.db db) : Does s req { s with db := db }
  | cleanup (hact : req.act = .cleanupAuditLog) : Does s req (cleanupAuditLog req.now s)

theorem does_commit {req : SiteRequest} {result : Except Failure Site}
    (hok : ∀ s', result = .ok s' → Does s req s') : Does s req (s.commit result).1 := by
  cases result with
  | error e => exact .nothing
  | ok s' => exact hok s' rfl

theorem does_onDatabase {req : SiteRequest} {result : Except Failure Database}
    (hok : ∀ db, result = .ok db → Linked s db) :
    Does s req (s.commit (result.map (s.store req.dbNow))).1 := by
  refine does_commit fun s' hs' => ?_
  cases result with
  | error e => cases hs'
  | ok db =>
    cases hs'
    exact .store db (hok db rfl)

/-- **A request does one of these things.** -/
theorem does_after (h : Linked s s.db) (req : SiteRequest) : Does s req (s.after env req) := by
  obtain ⟨today, now, dbNow, act⟩ := req
  cases act with
  | task act => exact does_onDatabase fun db => linked_of_handleTask h
  | deleteTask taskId => exact does_onDatabase fun db => linked_of_deleteTask h
  | journal req => exact does_onDatabase fun db => linked_of_handleJournal h
  | saveNote date noteText => exact does_onDatabase fun db => linked_of_saveNote h
  | toggleTracker trackerId => exact does_onDatabase fun db => linked_of_toggleTracker h
  | editTracker trackerId thresholdDays visibleOnDays =>
    exact does_onDatabase fun db => linked_of_editTracker h
  | deleteTracker trackerId => exact does_onDatabase fun db => linked_of_deleteTracker h
  | moveItem item direction => exact does_onDatabase fun db => linked_of_moveItem h
  | resetOrder =>
    refine does_onDatabase fun db hdb => ?_
    rw [← Except.ok.inj hdb, resetOrder_eq_rekey]
    exact linked_rekey h _
  | addStreak name description =>
    refine does_commit fun s' hs' => ?_
    obtain ⟨text, rfl⟩ := addStreak_eq_ok hs'
    exact .addStreak text
  | addTracker name thresholdDays visibleOnDays =>
    exact does_onDatabase fun db => linked_of_addTracker h
  | addMetric name metricType unit =>
    refine does_commit fun s' hs' => ?_
    obtain ⟨type, text, rfl⟩ := addMetric_eq_ok hs'
    exact .addMetric type text
  | openSettings =>
    refine does_onDatabase fun db hdb => ?_
    rw [← Except.ok.inj hdb]
    exact { h with }
  | toggleGrace =>
    refine does_onDatabase fun db hdb => ?_
    rw [← Except.ok.inj hdb]
    exact { h with }
  | saveWeather lat lon => exact does_onDatabase fun db => linked_of_saveWeather h
  | saveTimezone timezone => exact does_onDatabase fun db => linked_of_saveTimezone h
  | saveFetchTimes calendar weather =>
    refine does_commit fun s' hs' => ?_
    obtain ⟨calendar, -, hs'⟩ := bind_eq_ok.mp hs'
    obtain ⟨weather, -, hs'⟩ := bind_eq_ok.mp hs'
    obtain rfl := Except.ok.inj hs'
    exact .saveFetchTimes ⟨calendar, weather⟩
  | openDashboard call => exact .warm _ (weatherSummary_warms call today s.db)
  | refreshWeather calls => exact .warm _ (refreshWeather_warms calls today s.db)
  | cleanupAuditLog => exact .cleanup rfl

/-! ## What it keeps -/

/-- The references of the next state are to rows that are there, and what is new has a new id. -/
structure Keeps (s s' : Site) : Prop where
  sound : s'.Sound
  trackers : NewIds Tracker.id s.db.trackers s.db.trackerSeq s'.db.trackers s'.db.trackerSeq
  tasks : NewIds Task.id s.db.tasks s.db.taskSeq s'.db.tasks s'.db.taskSeq

namespace Sound

theorem keeps (h : s.Sound) : s.Keeps s := ⟨h, .refl _ _ _, .refl _ _ _⟩

/-- The references of a database, from that database on. -/
theorem linked_self {db : Database} (h : Linked s db) : Linked { s with db := db } db :=
  { h with log := List.prefix_rfl, newTrackers := .refl _ _ _, newTasks := .refl _ _ _ }

theorem store (h : s.Sound) (dbNow : Moment) {db : Database} (hdb : Linked s db) :
    s.Keeps (s.store dbNow db) := by
  refine ⟨⟨{ linked_self hdb with }, ?_⟩, hdb.newTrackers, hdb.newTasks⟩
  show (s.auditTimes ++ List.replicate _ dbNow).length = _
  rw [List.length_append, List.length_replicate, h.times,
    Nat.add_sub_cancel' hdb.log.length_le]
  rfl

/-- A new row of texts is the one of the new row. -/
theorem texts_insert_iff {ρ τ : Type} {id : ρ → ℕ} {rows : List ρ} {texts : Table ℕ τ}
    (h : ∀ k, (texts.lookup k).isSome ↔ IdIn id rows k) (row : ρ) (text : τ) (k : ℕ) :
    ((texts.insert (id row) text).lookup k).isSome ↔ IdIn id (rows ++ [row]) k := by
  rw [isSome_insert_iff, h, idIn_append_iff, eq_comm]

theorem addStreak (h : s.Sound) (text : StreakTexts) : s.Keeps { s with
    db := { s.db with streaks := s.db.streaks ++ [{ id := s.streakSeq }] }
    streakTexts := s.streakTexts.insert s.streakSeq text
    streakSeq := s.streakSeq + 1 } := by
  have hstreaks := h.linked.streaks
  refine ⟨⟨{ h.linked with streaks := ⟨hstreaks.ids.append rfl, ?_, ?_, ?_⟩ }, h.times⟩,
    .refl _ _ _, .refl _ _ _⟩
  · exact hstreaks.entries.mono fun k hk => idIn_append_left hk _
  · exact hstreaks.states.mono fun k hk => idIn_append_left hk _
  · exact texts_insert_iff hstreaks.texts { id := s.streakSeq } _

/-- A metric that the form adds has its bounds. -/
theorem addMetric (h : s.Sound) (type : MetricType) (text : MetricTexts) : s.Keeps { s with
    db := { s.db with metrics := s.db.metrics ++ [newMetric s.metricSeq type] }
    metricTexts := s.metricTexts.insert s.metricSeq text
    metricSeq := s.metricSeq + 1 } := by
  have hmetrics := h.linked.metrics
  have hid : (newMetric s.metricSeq type).id = s.metricSeq := by cases type <;> rfl
  refine ⟨⟨{ h.linked with metrics := ⟨hmetrics.ids.append hid, ?_, ?_, ?_⟩ }, h.times⟩,
    .refl _ _ _, .refl _ _ _⟩
  · exact hmetrics.values.mono fun k hk => idIn_append_left hk _
  · intro k
    have htexts := texts_insert_iff hmetrics.texts (newMetric s.metricSeq type)
    rw [hid] at htexts
    exact htexts _ k
  · intro metric hmetric
    rcases List.mem_append.mp hmetric with hmetric | hmetric
    · exact hmetrics.bounds metric hmetric
    · rw [List.mem_singleton.mp hmetric]
      exact newMetric_hasBounds s.metricSeq type

theorem saveFetchTimes (h : s.Sound) (times : FetchTimes) :
    s.Keeps { s with db := openSettings s.db, fetchTimes := times } :=
  ⟨⟨{ h.linked with }, h.times⟩, .refl _ _ _, .refl _ _ _⟩

theorem cleanupAuditLog (h : s.Sound) (now : Moment) : s.Keeps (cleanupAuditLog now s) := by
  refine ⟨⟨{ h.linked with log := List.prefix_rfl }, ?_⟩, .refl _ _ _, .refl _ _ _⟩
  simp only [EpsCloud.cleanupAuditLog, List.length_map]

theorem warmed (h : s.Sound) {db : Database} (hwarms : Warms s.db db) :
    s.Keeps { s with db := db } := by
  obtain ⟨cache, rfl⟩ := hwarms.frame
  exact ⟨⟨{ h.linked with }, h.times⟩, .refl _ _ _, .refl _ _ _⟩

/-- **One request keeps the references.** -/
theorem does (h : s.Sound) {req : SiteRequest} (hdoes : Does s req s') : s.Keeps s' := by
  cases hdoes with
  | nothing => exact h.keeps
  | store db hdb => exact h.store req.dbNow hdb
  | addStreak text => exact h.addStreak text
  | addMetric type text => exact h.addMetric type text
  | saveFetchTimes times => exact h.saveFetchTimes times
  | warm db hwarms => exact h.warmed hwarms
  | cleanup => exact h.cleanupAuditLog req.now

theorem after (h : s.Sound) (req : SiteRequest) : s.Keeps (s.after env req) :=
  h.does (does_after h.linked req)

end Sound

end Site

/-! ## Runs -/

/-- A site that nothing was done on yet. -/
theorem Site.sound_new : ({} : Site).Sound where
  linked :=
    { streaks := ⟨.nil _, .empty _ _, .empty _ _, by simp⟩
      trackers := ⟨.nil _, .empty _ _, by simp⟩
      metrics := ⟨.nil _, .empty _ _, by simp, by simp⟩
      tasks := ⟨.nil _, .nil _, by simp, by simp⟩
      log := List.prefix_rfl
      newTrackers := .refl _ _ _
      newTasks := .refl _ _ _ }
  times := rfl

/-- **References are never left dangling.**  After any run of requests and jobs, with any forms
and clocks, every entry, event, value and state row is about a row that is there, ids are unique
and below their sequences, every tracker has its state row, every task a date, every scale its
bounds, and every row of the audit its time. -/
theorem sound_after_run (env : SiteEnv) (s : Site) (h : s.Sound) (reqs : List SiteRequest) :
    (reqs.foldl (Site.after env) s).Sound :=
  Runs.foldl_invariant (C := fun _ _ => True) (fun _ req hs _ => (hs.after req).sound) h
    fun _ _ => trivial

/-- A streak that was passed and a tracker that was done on 2024-04-30, and a task. -/
def usedSite : Site where
  db :=
    { streaks := [{ id := 1 }]
      habitLog := (∅ : Table (Date × ℕ) HabitLog).put (739006, 1) (some { passed := true })
      streakState := (∅ : Table ℕ StreakState).insert 1 ⟨1, 1, none, 0⟩
      trackers := [{ id := 1, name := "Water the plants", thresholdDays := 7,
                     visibleOnDays := [0, 1, 2, 3, 4, 5, 6] }]
      trackerEvents := (∅ : Table (Date × ℕ) TrackerEvent).put (739006, 1)
        (some { activityDone := true })
      trackerState := (∅ : Table ℕ TrackerState).insert 1 ⟨0, some 739006, 0⟩
      tasks := [{ id := 1, name := "Renew the card", deadline := some 739010,
                  lastUserInteractionAt := 0, createdAt := 0 }]
      taskEvents := [⟨1, 1, .created, 0, none⟩]
      trackerSeq := 2
      taskSeq := 2
      taskEventSeq := 2 }
  streakTexts := (∅ : Table ℕ StreakTexts).insert 1 ⟨"Read", none⟩
  streakSeq := 2

theorem usedSite_sound : usedSite.Sound where
  linked :=
    { streaks :=
        { ids := (InSequence.nil Streak.id).append rfl
          entries := (Refers.empty _ _).put ⟨_, List.mem_cons_self, rfl⟩ _
          states := (Refers.empty _ _).insert ⟨_, List.mem_cons_self, rfl⟩ _
          texts := fun k => by
            rw [usedSite, isSome_insert_iff]
            simp [IdIn, eq_comm] }
      trackers :=
        { ids := (InSequence.nil Tracker.id).append rfl
          events := (Refers.empty _ _).put ⟨_, List.mem_cons_self, rfl⟩ _
          states := fun k => by
            rw [usedSite, isSome_insert_iff]
            simp [IdIn, eq_comm] }
      metrics := ⟨.nil _, .empty _ _, by simp [usedSite], by simp [usedSite]⟩
      tasks :=
        { ids := (InSequence.nil Task.id).append rfl
          eventIds := (InSequence.nil TaskEvent.id).append rfl
          events := fun e he => by
            obtain rfl := List.mem_singleton.mp he
            exact ⟨_, List.mem_cons_self, rfl⟩
          context := fun task htask => by
            obtain rfl := List.mem_singleton.mp htask
            exact .inl rfl }
      log := List.prefix_rfl
      newTrackers := .refl _ _ _
      newTasks := .refl _ _ _ }
  times := rfl

/-- The streak is failed afterwards, and the tracker and the task are deleted. -/
theorem sound_after_run_deleted :
    let clocks := SiteRequest.mk (ymd2ord 2024 5 1) 0 0
    let acts := [.journal (.markHabit "2024-04-30" 1 "fail"), .toggleTracker 1,
      .task (.toggle 1), .deleteTracker 1, .deleteTask 1]
    ((acts.map clocks).foldl (Site.after .plain) usedSite).Sound := by
  intro clocks acts
  exact sound_after_run .plain usedSite usedSite_sound (acts.map clocks)

end EpsCloud

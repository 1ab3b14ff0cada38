import EpsCloud.Routes.Agenda
import EpsCloud.Routes.Forms

/-!
# The task routes

`app.routes.dashboard`, the task endpoints.  Each of them changes one row of
`tasks` and records one event, in one transaction.  Two clocks are read: the
application's `utc_now()`, and the database's `now()`, the start of the
transaction, which is the server default of `occurred_at` and `created_at`.

The check constraint `task_has_temporal_context` is tested when the row is
written, so a request that leaves a task without any date fails as a whole.

* `commitEdit_eq_ok`, `addTask_eq_ok`: what a successful request leaves.
-/

namespace EpsCloud

/-- The two clocks that a task request reads. -/
structure Stamp where
  /-- `utc_now()` -/
  now : Moment
  /-- `now()` of the database -/
  dbNow : Moment

/-- The two dates of a task. -/
def Task.dates (task : Task) : TaskDates := ⟨task.deadline, task.scheduledFor⟩

/-- Rewrite one task. -/
def Database.setTask (db : Database) (taskId : ℕ) (task : Task) : Database :=
  let tasks := db.tasks.map fun t => if t.id = taskId then task else t
  { db with tasks := tasks }

/-- `record_event`: add an event of a task, and set when the task was last interacted with. -/
def recordEvent (stamp : Stamp) (taskId : ℕ) (action : TaskAction) (payload : Option TaskPayload)
    (db : Database) : Database :=
  let tasks := db.tasks.map fun t =>
    if t.id = taskId then { t with lastUserInteractionAt := stamp.now } else t
  { db with
    tasks := tasks
    taskEvents := db.taskEvents ++
      [{ id := db.taskEventSeq, taskId := taskId, action := action, occurredAt := stamp.dbNow,
         payload := payload }]
    taskEventSeq := db.taskEventSeq + 1 }

/-- What an endpoint does to the task it is about: the new row, and the event that says so. -/
structure TaskEdit where
  task : Task
  action : TaskAction
  payload : Option TaskPayload := none

/-- An endpoint about one task: find it, edit it, record the event, commit. -/
def commitEdit (stamp : Stamp) (taskId : ℕ) (edit : Task → Except Failure TaskEdit)
    (db : Database) : Except Failure Database := do
  let task ← foundOr404 (db.getTask taskId)
  let edit ← edit task
  if edit.task.HasTemporalContext then
    return recordEvent stamp taskId edit.action edit.payload (db.setTask taskId edit.task)
  else throw .raised

/-- `parse_optional_time`. -/
def parseOptionalTime (py : TextParsers) (raw : String) : Except Failure (Option TimeOfDay) :=
  if raw = "" then .ok none
  else
    match py.time raw with
    | some time => .ok (some time)
    | none => .error (.abort 400)

/-- `datetime.date.fromisoformat` of a form field, with the 400 of a text that is no day. -/
def parseFormDate (value : String) : Except Failure Date :=
  match fromisoformat value with
  | some day => .ok day
  | none => .error (.abort 400)

/-- The dates that a kind and a date stand for: "due" makes the date a deadline, "planned" a
scheduled day. -/
def datesOf (kind : String) (date : Date) : TaskDates :=
  ⟨if kind = "due" then some date else none, if kind = "planned" then some date else none⟩

/-- The form of `add_task` and `reschedule_task`; a field that is not sent is `none`. -/
structure TaskForm where
  name : Option String := none
  date : Option String := none
  kind : Option String := none
  time : Option String := none
  vital : Option String := none

/-- `add_task`. -/
def addTask (py : TextParsers) (stamp : Stamp) (form : TaskForm) (db : Database) :
    Except Failure Database := do
  let name := py.strip (form.name.getD "")
  if name = "" then throw (.abort 400)
  let date ← parseFormDate (form.date.getD "")
  let kind := form.kind.getD "planned"
  if kind ≠ "due" ∧ kind ≠ "planned" then throw (.abort 400)
  let time ← parseOptionalTime py (form.time.getD "")
  let task : Task :=
    { id := db.taskSeq
      name := name
      deadline := (datesOf kind date).deadline
      scheduledFor := (datesOf kind date).scheduledFor
      scheduledTime := time
      vital := form.vital = some "on"
      lastUserInteractionAt := stamp.dbNow
      createdAt := stamp.dbNow }
  return recordEvent stamp task.id .created none
    { db with tasks := db.tasks ++ [task], taskSeq := db.taskSeq + 1 }

/-- The edit of `toggle_task`. -/
def toggleEdit (stamp : Stamp) (task : Task) : TaskEdit :=
  match task.completedAt with
  | none => { task := { task with completedAt := some stamp.now }, action := .completed }
  | some _ => { task := { task with completedAt := none }, action := .uncompleted }

/-- `toggle_task`. -/
def toggleTask (stamp : Stamp) (taskId : ℕ) : Database → Except Failure Database :=
  commitEdit stamp taskId fun task => .ok (toggleEdit stamp task)

/-- The edit of `toggle_vital`. -/
def vitalEdit (task : Task) : TaskEdit :=
  { task := { task with vital := !task.vital }
    action := .edited
    payload := some (.vital (!task.vital)) }

/-- `toggle_vital`. -/
def toggleVital (stamp : Stamp) (taskId : ℕ) : Database → Except Failure Database :=
  commitEdit stamp taskId fun task => .ok (vitalEdit task)

/-- The edit of `reschedule_task`: the chosen kind replaces the task's temporal context. -/
def rescheduleEdit (py : TextParsers) (form : TaskForm) (task : Task) :
    Except Failure TaskEdit := do
  let kind := form.kind.getD "planned"
  let date ← parseFormDate (form.date.getD "")
  let time ← parseOptionalTime py (form.time.getD "")
  return {
    task := { task with
      deadline := (datesOf kind date).deadline
      scheduledFor := (datesOf kind date).scheduledFor
      scheduledTime := time }
    action := .edited
    payload := some (.reschedule task.dates kind date) }

/-- `reschedule_task`: give the task a new date, as a planned day or as a deadline. -/
def rescheduleTask (py : TextParsers) (stamp : Stamp) (taskId : ℕ) (form : TaskForm) :
    Database → Except Failure Database :=
  commitEdit stamp taskId (rescheduleEdit py form)

/-- `keep_task`: still wanted, which resets the staleness clock. -/
def keepTask (stamp : Stamp) (taskId : ℕ) : Database → Except Failure Database :=
  commitEdit stamp taskId fun task =>
    .ok { task := task, action := .edited, payload := some .kept }

/-- `archive_task`. -/
def archiveTask (stamp : Stamp) (taskId : ℕ) : Database → Except Failure Database :=
  commitEdit stamp taskId fun task =>
    .ok { task := { task with archivedAt := some stamp.now }, action := .archived }

/-! ## What a successful request leaves -/

theorem mem_of_getTask {db : Database} {taskId : ℕ} {task : Task}
    (h : db.getTask taskId = some task) : task ∈ db.tasks ∧ task.id = taskId := by
  rw [Database.getTask] at h
  have hid := List.find?_some h
  exact ⟨List.mem_of_find?_eq_some h, of_decide_eq_true hid⟩

theorem commitEdit_of_getTask {stamp : Stamp} {taskId : ℕ} {edit : Task → Except Failure TaskEdit}
    {db : Database} {task : Task} (htask : db.getTask taskId = some task) :
    commitEdit stamp taskId edit db = (do
      let change ← edit task
      if change.task.HasTemporalContext then
        return recordEvent stamp taskId change.action change.payload
          (db.setTask taskId change.task)
      else throw .raised) := by
  rw [commitEdit, htask]
  rfl

/-- A request about one task leaves the row of its edit and one event. -/
theorem commitEdit_eq_ok {stamp : Stamp} {taskId : ℕ} {edit : Task → Except Failure TaskEdit}
    {db db' : Database} :
    commitEdit stamp taskId edit db = .ok db' ↔
      ∃ task change, db.getTask taskId = some task ∧ edit task = .ok change ∧
        change.task.HasTemporalContext ∧
        db' = recordEvent stamp taskId change.action change.payload
          (db.setTask taskId change.task) := by
  rw [commitEdit]
  simp only [bind_eq_ok, foundOr404_eq_ok]
  constructor
  · rintro ⟨task, htask, change, hchange, h⟩
    split_ifs at h with hcontext
    exact ⟨task, change, htask, hchange, hcontext, (Except.ok.inj h).symm⟩
  · rintro ⟨task, change, htask, hchange, hcontext, rfl⟩
    exact ⟨task, htask, change, hchange, if_pos hcontext⟩

/-- The row that an edit leaves. -/
theorem tasks_recordEvent_setTask (stamp : Stamp) {taskId : ℕ} (action : TaskAction)
    (payload : Option TaskPayload) (db : Database) {task' : Task} (hid : task'.id = taskId) :
    (recordEvent stamp taskId action payload (db.setTask taskId task')).tasks =
      db.tasks.map fun t =>
        if t.id = taskId then { task' with lastUserInteractionAt := stamp.now } else t := by
  show (db.tasks.map _).map _ = _
  rw [List.map_map]
  refine List.map_congr_left fun t _ => ?_
  rw [Function.comp_apply]
  by_cases h : t.id = taskId
  · simp only [h, hid, if_true]
  · simp only [h, if_false]

/-- The task that is found under an id after an edit. -/
theorem getTask_recordEvent_setTask (stamp : Stamp) {taskId : ℕ} (action : TaskAction)
    (payload : Option TaskPayload) (db : Database) {task' : Task} (hid : task'.id = taskId)
    (id : ℕ) :
    (recordEvent stamp taskId action payload (db.setTask taskId task')).getTask id =
      (db.getTask id).map fun t =>
        if t.id = taskId then { task' with lastUserInteractionAt := stamp.now } else t := by
  rw [Database.getTask, tasks_recordEvent_setTask stamp action payload db hid, List.find?_map]
  refine congrArg (Option.map _) (congrArg (db.tasks.find? ·) (funext fun t => ?_))
  rw [Function.comp_apply]
  by_cases h : t.id = taskId
  · rw [if_pos h, h]
    exact decide_eq_decide.mpr (by rw [hid])
  · rw [if_neg h]

/-- A successful `add_task` leaves a new open task and one event. -/
theorem addTask_eq_ok {py : TextParsers} {stamp : Stamp} {form : TaskForm} {db db' : Database}
    (h : addTask py stamp form db = .ok db') :
    ∃ task : Task, task.id = db.taskSeq ∧ task.completedAt = none ∧ task.archivedAt = none ∧
      db' = recordEvent stamp task.id .created none
        { db with tasks := db.tasks ++ [task], taskSeq := db.taskSeq + 1 } := by
  rw [addTask] at h
  dsimp only at h
  split_ifs at h with hname hkind
  · obtain ⟨_, hthrow, -⟩ := bind_eq_ok.mp h
    cases hthrow
  · obtain ⟨_, hthrow, -⟩ := bind_eq_ok.mp h
    cases hthrow
  · obtain ⟨date, -, h⟩ := bind_eq_ok.mp h
    obtain ⟨_, hthrow, -⟩ := bind_eq_ok.mp h
    cases hthrow
  · obtain ⟨date, -, h⟩ := bind_eq_ok.mp h
    obtain ⟨time, -, h⟩ := bind_eq_ok.mp h
    exact ⟨_, rfl, rfl, rfl, (Except.ok.inj h).symm⟩

end EpsCloud

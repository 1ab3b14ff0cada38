import EpsCloud.Routes.Tasks

/-!
# What a reschedule leaves

`reschedule_task` gives the date to the deadline if the kind is "due" and to the
planned day if it is "planned", and clears the other one.  It does not check the
kind, as `add_task` does: any other one clears both dates.  The task is then
committed without a date if it has a reminder, and runs into the check constraint
`task_has_temporal_context` if it has none.

* `rescheduleTask_of_unknownKind`: what a request with any other kind does.
* `reschedules_well_iff`: when a reschedule is refused, or leaves one date with one
  meaning.
-/

namespace EpsCloud

/-- The kind of the form, "planned" if none is sent. -/
def TaskForm.kindText (form : TaskForm) : String := form.kind.getD "planned"

/-- The task has the date that the kind names, and that date alone. -/
def Task.HasOnly (task : Task) (kind : String) (date : Date) : Prop :=
  (kind = "due" ∧ task.deadline = some date ∧ task.scheduledFor = none) ∨
    (kind = "planned" ∧ task.deadline = none ∧ task.scheduledFor = some date)

/-- What a successful reschedule should leave: the task with one date, the others as they were, and
one event that records the change. -/
structure LeavesOneDate (stamp : Stamp) (task : Task) (kind : String) (date : Date)
    (db db' : Database) : Prop where
  row : ∃ task', db'.getTask task.id = some task' ∧ task'.HasOnly kind date
  others : ∀ id, id ≠ task.id → db'.getTask id = db.getTask id
  event : db'.taskEvents = db.taskEvents ++
    [{ id := db.taskEventSeq, taskId := task.id, action := .edited, occurredAt := stamp.dbNow,
       payload := some (.reschedule task.dates kind date) }]

/-- The request is refused and changes nothing, or it leaves one date with one meaning. -/
def ReschedulesWell (py : TextParsers) (stamp : Stamp) (taskId : ℕ) (form : TaskForm)
    (db : Database) : Prop :=
  RefusedCleanly db (rescheduleTask py stamp taskId form db) ∨
    ∃ db' task date, rescheduleTask py stamp taskId form db = .ok db' ∧
      db.getTask taskId = some task ∧ fromisoformat (form.date.getD "") = some date ∧
      LeavesOneDate stamp task form.kindText date db db'

/-- The request is refused whatever its kind: there is no such task, or the date or the time is
none. -/
def RefusedWhateverKind (py : TextParsers) (taskId : ℕ) (form : TaskForm) (db : Database) : Prop :=
  db.getTask taskId = none ∨ fromisoformat (form.date.getD "") = none ∨
    (form.time.getD "" ≠ "" ∧ py.time (form.time.getD "") = none)

variable {py : TextParsers} {stamp : Stamp} {taskId : ℕ} {form : TaskForm} {db db' : Database}

theorem parseFormDate_eq_ok {value : String} {date : Date} :
    parseFormDate value = .ok date ↔ fromisoformat value = some date := by
  rw [parseFormDate]
  cases fromisoformat value <;> simp

/-- The row that a kind and a date make of a task. -/
def Task.rescheduled (task : Task) (kind : String) (date : Date) (time : Option TimeOfDay) : Task :=
  { task with
    deadline := (datesOf kind date).deadline
    scheduledFor := (datesOf kind date).scheduledFor
    scheduledTime := time }

/-- What a request does once its task, date and time are read. -/
theorem rescheduleTask_of_read {task : Task} {date : Date} {time : Option TimeOfDay}
    (htask : db.getTask taskId = some task) (hdate : fromisoformat (form.date.getD "") = some date)
    (htime : parseOptionalTime py (form.time.getD "") = .ok time) :
    rescheduleTask py stamp taskId form db =
      if (task.rescheduled form.kindText date time).HasTemporalContext then
        .ok (recordEvent stamp taskId .edited (some (.reschedule task.dates form.kindText date))
          (db.setTask taskId (task.rescheduled form.kindText date time)))
      else .error .raised := by
  have hform : parseFormDate (form.date.getD "") = .ok date := parseFormDate_eq_ok.mpr hdate
  rw [rescheduleTask, commitEdit_of_getTask htask, rescheduleEdit, hform, htime]
  rfl

/-- A request is refused whatever its kind, with a 400 or a 404, or its task, date and time are
read. -/
theorem refused_or_read (py : TextParsers) (stamp : Stamp) (taskId : ℕ) (form : TaskForm)
    (db : Database) :
    (RefusedWhateverKind py taskId form db ∧
      RefusedCleanly db (rescheduleTask py stamp taskId form db)) ∨
    ∃ task date time, db.getTask taskId = some task ∧
      fromisoformat (form.date.getD "") = some date ∧
      parseOptionalTime py (form.time.getD "") = .ok time := by
  cases htask : db.getTask taskId with
  | none =>
    refine Or.inl ⟨Or.inl htask, refusedCleanly_of_abort 404 (by decide) ?_⟩
    rw [rescheduleTask, commitEdit, htask]
    rfl
  | some task =>
    cases hdate : fromisoformat (form.date.getD "") with
    | none =>
      refine Or.inl ⟨Or.inr (Or.inl hdate), refusedCleanly_of_abort 400 (by decide) ?_⟩
      rw [rescheduleTask, commitEdit_of_getTask htask, rescheduleEdit, parseFormDate, hdate]
      rfl
    | some date =>
      by_cases hempty : form.time.getD "" = ""
      · exact Or.inr ⟨task, date, none, rfl, rfl, if_pos hempty⟩
      · cases htime : py.time (form.time.getD "") with
        | none =>
          refine Or.inl ⟨Or.inr (Or.inr ⟨hempty, htime⟩),
            refusedCleanly_of_abort 400 (by decide) ?_⟩
          rw [rescheduleTask, commitEdit_of_getTask htask, rescheduleEdit, parseFormDate, hdate,
            parseOptionalTime, if_neg hempty, htime]
          rfl
        | some time =>
          refine Or.inr ⟨task, date, some time, rfl, rfl, ?_⟩
          rw [parseOptionalTime, if_neg hempty, htime]

/-- **What any other kind does.**  It clears both dates, and so it runs into the check constraint
unless the task has a reminder. -/
theorem rescheduleTask_of_unknownKind (hkind : form.kindText ≠ "due" ∧ form.kindText ≠ "planned")
    {task : Task} {date : Date} {time : Option TimeOfDay}
    (htask : db.getTask taskId = some task) (hdate : fromisoformat (form.date.getD "") = some date)
    (htime : parseOptionalTime py (form.time.getD "") = .ok time) :
    rescheduleTask py stamp taskId form db =
      if task.remindAfter.isSome then
        .ok (recordEvent stamp taskId .edited (some (.reschedule task.dates form.kindText date))
          (db.setTask taskId
            { task with deadline := none, scheduledFor := none, scheduledTime := time }))
      else .error .raised := by
  have hdates : datesOf form.kindText date = ⟨none, none⟩ := by
    rw [datesOf, if_neg hkind.1, if_neg hkind.2]
  have hcontext : (task.rescheduled form.kindText date time).HasTemporalContext ↔
      task.remindAfter.isSome := by
    rw [Task.HasTemporalContext, Task.rescheduled, hdates]
    simp
  rw [rescheduleTask_of_read htask hdate htime, Task.rescheduled, hdates]
  refine if_congr ?_ rfl rfl
  rw [← hcontext, Task.rescheduled, hdates]

/-- A known kind gives the task its date and no other. -/
theorem hasOnly_rescheduled (task : Task) {kind : String} (hkind : kind = "due" ∨ kind = "planned")
    (date : Date) (time : Option TimeOfDay) :
    (task.rescheduled kind date time).HasOnly kind date := by
  rcases hkind with rfl | rfl
  · exact Or.inl ⟨rfl, rfl, rfl⟩
  · exact Or.inr ⟨rfl, rfl, rfl⟩

theorem Task.HasOnly.hasTemporalContext {task : Task} {kind : String} {date : Date}
    (h : task.HasOnly kind date) : task.HasTemporalContext := by
  rcases h with ⟨-, hdeadline, -⟩ | ⟨-, -, hplanned⟩
  · exact Or.inl (by rw [hdeadline]; rfl)
  · exact Or.inr (Or.inl (by rw [hplanned]; rfl))

/-- **When a reschedule leaves one date with one meaning.**  A request is refused without effect, or
leaves the one date that its kind names and the event of it, exactly when it is refused whatever its
kind or its kind is one of the two. -/
theorem reschedules_well_iff (py : TextParsers) (stamp : Stamp) (taskId : ℕ) (form : TaskForm)
    (db : Database) :
    ReschedulesWell py stamp taskId form db ↔
      RefusedWhateverKind py taskId form db ∨
        form.kindText = "due" ∨ form.kindText = "planned" := by
  obtain ⟨hkind, hrefused⟩ | ⟨task, date, time, htask, hdate, htime⟩ :=
    refused_or_read py stamp taskId form db
  · exact ⟨fun _ => Or.inl hkind, fun _ => Or.inl hrefused⟩
  · obtain ⟨hmem, hid⟩ := mem_of_getTask htask
    constructor
    · rintro (⟨⟨status, -, -, habort⟩, -⟩ | ⟨db', task', date', -, -, -, hone⟩)
      · by_contra hnone
        rw [not_or, not_or] at hnone
        rw [rescheduleTask_of_unknownKind hnone.2 htask hdate htime] at habort
        split_ifs at habort
        cases habort
      · obtain ⟨_, -, ⟨hdue, -⟩ | ⟨hplanned, -⟩⟩ := hone.row
        · exact Or.inr (Or.inl hdue)
        · exact Or.inr (Or.inr hplanned)
    · rintro (hrefused | hkind)
      · refine absurd hrefused ?_
        rintro (h | h | ⟨hne, h⟩)
        · rw [htask] at h
          cases h
        · rw [hdate] at h
          cases h
        · rw [parseOptionalTime, if_neg hne, h] at htime
          cases htime
      · have honly := hasOnly_rescheduled task hkind date time
        have hid' : (task.rescheduled form.kindText date time).id = taskId := hid
        refine Or.inr ⟨_, task, date, (rescheduleTask_of_read htask hdate htime).trans
          (if_pos honly.hasTemporalContext), htask, hdate, ⟨?_, ?_, ?_⟩⟩
        · rw [hid, getTask_recordEvent_setTask stamp _ _ db hid', htask, Option.map_some,
            if_pos hid]
          exact ⟨_, rfl, honly⟩
        · intro id hne
          rw [hid] at hne
          rw [getTask_recordEvent_setTask stamp _ _ db hid']
          cases hother : db.getTask id with
          | none => rfl
          | some t =>
            rw [Option.map_some, if_neg]
            rw [(mem_of_getTask hother).2]
            exact hne
        · rw [hid]
          rfl

/-- A task due on 2026-01-05, with a reminder. -/
def remindedTask : Task :=
  { id := 1, name := "file taxes", deadline := some 739621, remindAfter := some 739600,
    lastUserInteractionAt := 0, createdAt := 0 }

/-- A form whose kind is neither of the two. -/
def somedayForm : TaskForm := { date := some "2026-01-09", kind := some "someday" }

/-- The task is committed with neither a deadline nor a planned day. -/
theorem not_reschedulesWell_someday :
    ¬ ReschedulesWell asciiParsers ⟨0, 0⟩ 1 somedayForm { tasks := [remindedTask] } := by
  have htask : Database.getTask { tasks := [remindedTask] } 1 = some remindedTask := by decide
  have hdate : fromisoformat (somedayForm.date.getD "") = some 739625 := by decide
  have htime : parseOptionalTime asciiParsers (somedayForm.time.getD "") = .ok none := rfl
  rintro (⟨⟨status, -, -, habort⟩, -⟩ | ⟨db', task', date', -, -, -, hone⟩)
  · rw [rescheduleTask_of_unknownKind (by decide) htask hdate htime] at habort
    cases habort
  · obtain ⟨_, -, ⟨hdue, -⟩ | ⟨hplanned, -⟩⟩ := hone.row
    · exact absurd hdue (by decide)
    · exact absurd hplanned (by decide)

end EpsCloud

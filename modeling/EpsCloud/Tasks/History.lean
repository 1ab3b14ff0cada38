import EpsCloud.Library.LastWrite
import EpsCloud.Library.Runs
import EpsCloud.Routes.Tasks

/-!
# The event history of a task

Each task endpoint edits one row and records one event that says what it did.
The columns of a task are registers that its events write, so the present row is
what the last writing events say, starting from the row that `add_task` wrote.

A run is observed by a ledger that keeps, beside the database, each task row as it
was added, and for each event what the application's clock showed when it was
recorded.  The column `occurred_at` does not keep that: it is the database's own
`now()`, the start of the transaction.

* `Describes`: an event says what an edit did to a row; `describes_*` for each
  endpoint.
* `FaithfulRecord.concat`: a described edit keeps the record of its task faithful.
* `stepLedger_kept`: so does each request, for every task.
* `task_history_faithful`: so does every run.
-/

namespace EpsCloud

open LastWrite

/-! ## Requests and the ledger -/

/-- The endpoints that change a task. -/
inductive TaskAct where
  | add (form : TaskForm)
  | toggle (taskId : ℕ)
  | vital (taskId : ℕ)
  | reschedule (taskId : ℕ) (form : TaskForm)
  | keep (taskId : ℕ)
  | archive (taskId : ℕ)

/-- A task request, with the clocks that it reads. -/
structure TaskRequest where
  stamp : Stamp
  act : TaskAct

/-- The handler of a request. -/
def handleTask (py : TextParsers) (req : TaskRequest) : Database → Except Failure Database :=
  match req.act with
  | .add form => addTask py req.stamp form
  | .toggle taskId => toggleTask req.stamp taskId
  | .vital taskId => toggleVital req.stamp taskId
  | .reschedule taskId form => rescheduleTask py req.stamp taskId form
  | .keep taskId => keepTask req.stamp taskId
  | .archive taskId => archiveTask req.stamp taskId

/-- An event, and what the application's clock showed when it was recorded. -/
abbrev Recorded := TaskEvent × Moment

/-- The database, with what an observer of the run has written down. -/
structure Ledger where
  db : Database
  created : List Task
  recorded : List Recorded

/-- A request, and what the observer adds: the rows and the events that are new. -/
def stepLedger (py : TextParsers) (s : Ledger) (req : TaskRequest) : Ledger :=
  let db := afterRequest s.db (handleTask py req s.db)
  { db := db
    created := s.created ++ db.tasks.drop s.db.tasks.length
    recorded := s.recorded ++
      (db.taskEvents.drop s.db.taskEvents.length).map fun e => (e, req.stamp.now) }

/-! ## What the events of a task say -/

/-- "completed" and "uncompleted" say whether the task is completed. -/
def completedWrite (e : Recorded) : Option Bool :=
  match e.1.action with
  | .completed => some true
  | .uncompleted => some false
  | _ => none

/-- An edit of `vital` says the new value. -/
def vitalWrite (e : Recorded) : Option Bool :=
  match e.1.payload with
  | some (.vital new) => some new
  | _ => none

/-- A reschedule determines both dates by its kind and its date. -/
def datesWrite (e : Recorded) : Option TaskDates :=
  match e.1.payload with
  | some (.reschedule _ kind date) => some (datesOf kind date)
  | _ => none

/-- The events of a task, in the order they were recorded. -/
def recordOf (recorded : List Recorded) (taskId : ℕ) : List Recorded :=
  recorded.filter fun e => e.1.taskId = taskId

/-- The events of a task are a faithful record of it, from the row it was created with to its
present row. -/
structure FaithfulRecord (created task : Task) (events : List Recorded) : Prop where
  /-- completed iff the last completed/uncompleted event is "completed" -/
  completed : task.completedAt.isSome = lastWrite completedWrite events false
  /-- archived iff there is an "archived" event -/
  archived : task.archivedAt.isSome ↔ ∃ e ∈ events, e.1.action = .archived
  vital : task.vital = lastWrite vitalWrite events created.vital
  dates : task.dates = lastWrite datesWrite events created.dates
  /-- every reschedule keeps the dates that were in force just before it -/
  old : ∀ before e, before ++ [e] <+: events → ∀ old kind date,
    e.1.payload = some (.reschedule old kind date) → old = lastWrite datesWrite before created.dates
  /-- the last interaction is what the clock showed at the last event -/
  interaction : ∃ e, events.getLast? = some e ∧ task.lastUserInteractionAt = e.2
  /-- stale iff open and without any event for more than seven days -/
  stale : ∀ now, ∀ e ∈ events.getLast?, isStale task now = true ↔
    task.completedAt = none ∧ e.2 + daysToMicroseconds staleAfterDays < now

/-! ## One edit -/

/-- The event says what the edit did to the row. -/
structure Describes (task task' : Task) (action : TaskAction) (payload : Option TaskPayload) :
    Prop where
  completed : ∀ e : Recorded, e.1.action = action →
    task'.completedAt.isSome = (completedWrite e).getD task.completedAt.isSome
  archived : task'.archivedAt.isSome ↔ task.archivedAt.isSome ∨ action = .archived
  vital : ∀ e : Recorded, e.1.payload = payload → task'.vital = (vitalWrite e).getD task.vital
  dates : ∀ e : Recorded, e.1.payload = payload → task'.dates = (datesWrite e).getD task.dates
  old : ∀ old kind date, payload = some (.reschedule old kind date) → old = task.dates

theorem stale_of_interaction {task : Task} {events : List Recorded}
    (h : ∃ e, events.getLast? = some e ∧ task.lastUserInteractionAt = e.2) (now : Moment) :
    ∀ e ∈ events.getLast?, isStale task now = true ↔
      task.completedAt = none ∧ e.2 + daysToMicroseconds staleAfterDays < now := by
  intro e he
  obtain ⟨e', he', hlast⟩ := h
  obtain rfl : e' = e := Option.some.inj (he'.symm.trans he)
  rw [isStale, decide_eq_true_iff, Option.isNone_iff_eq_none, hlast, lt_sub_iff_add_lt]

/-- **A described edit keeps the record faithful.** -/
theorem FaithfulRecord.concat {created task task' : Task} {events : List Recorded}
    (h : FaithfulRecord created task events) {e : Recorded}
    (hd : Describes task task' e.1.action e.1.payload) (hlast : task'.lastUserInteractionAt = e.2) :
    FaithfulRecord created task' (events ++ [e]) := by
  have hinteraction : ∃ e', (events ++ [e]).getLast? = some e' ∧
      task'.lastUserInteractionAt = e'.2 := ⟨e, List.getLast?_concat, hlast⟩
  refine ⟨?_, ?_, ?_, ?_, ?_, hinteraction, stale_of_interaction hinteraction⟩
  · rw [lastWrite_concat, ← h.completed]
    exact hd.completed e rfl
  · rw [hd.archived, h.archived]
    constructor
    · rintro (⟨e', he', harch⟩ | harch)
      · exact ⟨e', List.mem_append_left _ he', harch⟩
      · exact ⟨e, List.mem_append_right _ List.mem_cons_self, harch⟩
    · rintro ⟨e', he', harch⟩
      rcases List.mem_append.mp he' with hold | hnew
      · exact Or.inl ⟨e', hold, harch⟩
      · rw [List.mem_singleton.mp hnew] at harch
        exact Or.inr harch
  · rw [lastWrite_concat, ← h.vital]
    exact hd.vital e rfl
  · rw [lastWrite_concat, ← h.dates]
    exact hd.dates e rfl
  · intro before e' hprefix old kind date hpayload
    rcases List.prefix_concat_iff.mp hprefix with heq | hold
    · -- the new event itself: the dates in force are those of the row before
      obtain ⟨rfl, he⟩ := List.append_inj' heq rfl
      obtain rfl := (List.cons.inj he).1
      rw [hd.old old kind date hpayload, h.dates]
    · exact h.old before e' hold old kind date hpayload

/-- A new row, with the event of its creation. -/
theorem faithfulRecord_created {task : Task} (hcompleted : task.completedAt = none)
    (harchived : task.archivedAt = none) {e : Recorded} (haction : e.1.action = .created)
    (hpayload : e.1.payload = none) (hlast : task.lastUserInteractionAt = e.2) :
    FaithfulRecord task task [e] := by
  have hinteraction : ∃ e', [e].getLast? = some e' ∧ task.lastUserInteractionAt = e'.2 :=
    ⟨e, rfl, hlast⟩
  have hw : completedWrite e = none ∧ vitalWrite e = none ∧ datesWrite e = none := by
    rw [completedWrite, vitalWrite, datesWrite, haction, hpayload]
    exact ⟨rfl, rfl, rfl⟩
  refine ⟨?_, ?_, ?_, ?_, ?_, hinteraction, stale_of_interaction hinteraction⟩
  · rw [← List.nil_append [e], lastWrite_concat, hw.1, hcompleted]
    rfl
  · rw [harchived]
    simp [haction]
  · rw [← List.nil_append [e], lastWrite_concat, hw.2.1]
    rfl
  · rw [← List.nil_append [e], lastWrite_concat, hw.2.2]
    rfl
  · intro before e' hprefix old kind date hpayload'
    have hmem : e' ∈ [e] := hprefix.subset (List.mem_append_right _ List.mem_cons_self)
    rw [List.mem_singleton.mp hmem, hpayload] at hpayload'
    exact absurd hpayload' (by simp)

/-! ## Every endpoint describes its edit -/

theorem describes_toggle (stamp : Stamp) (task : Task) :
    Describes task (toggleEdit stamp task).task (toggleEdit stamp task).action
      (toggleEdit stamp task).payload := by
  cases hc : task.completedAt with
  | none =>
    rw [toggleEdit, hc]
    exact ⟨fun e he => by rw [completedWrite, he]; rfl, by simp,
      fun e he => by rw [vitalWrite, he]; rfl, fun e he => by rw [datesWrite, he]; rfl,
      fun _ _ _ h => by simp at h⟩
  | some c =>
    rw [toggleEdit, hc]
    exact ⟨fun e he => by rw [completedWrite, he]; rfl, by simp,
      fun e he => by rw [vitalWrite, he]; rfl, fun e he => by rw [datesWrite, he]; rfl,
      fun _ _ _ h => by simp at h⟩

theorem describes_vital (task : Task) :
    Describes task (vitalEdit task).task (vitalEdit task).action (vitalEdit task).payload :=
  ⟨fun e he => by rw [completedWrite, he]; rfl, by simp [vitalEdit],
    fun e he => by rw [vitalWrite, he]; rfl, fun e he => by rw [datesWrite, he]; rfl,
    fun _ _ _ h => by simp [vitalEdit] at h⟩

theorem describes_keep (task : Task) : Describes task task .edited (some .kept) :=
  ⟨fun e he => by rw [completedWrite, he]; rfl, by simp,
    fun e he => by rw [vitalWrite, he]; rfl, fun e he => by rw [datesWrite, he]; rfl,
    fun _ _ _ h => by simp at h⟩

theorem describes_archive (task : Task) (now : Moment) :
    Describes task { task with archivedAt := some now } .archived none :=
  ⟨fun e he => by rw [completedWrite, he]; rfl, by simp,
    fun e he => by rw [vitalWrite, he]; rfl, fun e he => by rw [datesWrite, he]; rfl,
    fun _ _ _ h => by simp at h⟩

theorem describes_reschedule {py : TextParsers} {form : TaskForm} {task : Task} {edit : TaskEdit}
    (h : rescheduleEdit py form task = .ok edit) :
    Describes task edit.task edit.action edit.payload := by
  rw [rescheduleEdit] at h
  obtain ⟨date, -, h⟩ := bind_eq_ok.mp h
  obtain ⟨time, -, h⟩ := bind_eq_ok.mp h
  obtain rfl := (Except.ok.inj h).symm
  refine ⟨fun e he => by rw [completedWrite, he]; rfl, by simp,
    fun e he => by rw [vitalWrite, he]; rfl, fun e he => by rw [datesWrite, he]; rfl, ?_⟩
  intro old kind date h
  cases h
  rfl

theorem id_rescheduleEdit {py : TextParsers} {form : TaskForm} {task : Task} {edit : TaskEdit}
    (h : rescheduleEdit py form task = .ok edit) : edit.task.id = task.id := by
  rw [rescheduleEdit] at h
  obtain ⟨date, -, h⟩ := bind_eq_ok.mp h
  obtain ⟨time, -, h⟩ := bind_eq_ok.mp h
  obtain rfl := (Except.ok.inj h).symm
  rfl

/-- **What a successful request does**: it adds an open task, or edits one task and records an
event that describes the edit. -/
theorem handleTask_ok {py : TextParsers} {req : TaskRequest} {db db' : Database}
    (h : handleTask py req db = .ok db') :
    (∃ task : Task, task.id = db.taskSeq ∧ task.completedAt = none ∧ task.archivedAt = none ∧
      db' = recordEvent req.stamp task.id .created none
        { db with tasks := db.tasks ++ [task], taskSeq := db.taskSeq + 1 }) ∨
    ∃ (task task' : Task) (action : TaskAction) (payload : Option TaskPayload),
      task ∈ db.tasks ∧ task'.id = task.id ∧ Describes task task' action payload ∧
      db' = recordEvent req.stamp task.id action payload (db.setTask task.id task') := by
  obtain ⟨stamp, act⟩ := req
  cases act with
  | add form => exact Or.inl (addTask_eq_ok h)
  | toggle taskId =>
    obtain ⟨task, change, htask, hchange, -, rfl⟩ := commitEdit_eq_ok.mp h
    obtain ⟨hmem, rfl⟩ := mem_of_getTask htask
    obtain rfl := Except.ok.inj hchange
    refine Or.inr ⟨task, _, _, _, hmem, ?_, describes_toggle stamp task, rfl⟩
    rw [toggleEdit]
    cases task.completedAt <;> rfl
  | vital taskId =>
    obtain ⟨task, change, htask, hchange, -, rfl⟩ := commitEdit_eq_ok.mp h
    obtain ⟨hmem, rfl⟩ := mem_of_getTask htask
    obtain rfl := Except.ok.inj hchange
    refine Or.inr ⟨task, _, _, _, hmem, ?_, describes_vital task, rfl⟩
    rfl
  | reschedule taskId form =>
    obtain ⟨task, change, htask, hchange, -, rfl⟩ := commitEdit_eq_ok.mp h
    obtain ⟨hmem, rfl⟩ := mem_of_getTask htask
    exact Or.inr ⟨task, _, _, _, hmem, id_rescheduleEdit hchange, describes_reschedule hchange, rfl⟩
  | keep taskId =>
    obtain ⟨task, change, htask, hchange, -, rfl⟩ := commitEdit_eq_ok.mp h
    obtain ⟨hmem, rfl⟩ := mem_of_getTask htask
    obtain rfl := Except.ok.inj hchange
    exact Or.inr ⟨task, _, _, _, hmem, rfl, describes_keep task, rfl⟩
  | archive taskId =>
    obtain ⟨task, change, htask, hchange, -, rfl⟩ := commitEdit_eq_ok.mp h
    obtain ⟨hmem, rfl⟩ := mem_of_getTask htask
    obtain rfl := Except.ok.inj hchange
    refine Or.inr ⟨task, _, _, _, hmem, ?_, describes_archive task stamp.now, rfl⟩
    rfl

/-! ## What every request keeps -/

/-- The ledger is in step with the database, ids are unique, and every task has a faithful
record. -/
structure Ledger.Kept (s : Ledger) : Prop where
  recorded : s.recorded.map Prod.fst = s.db.taskEvents
  idOrder : (s.db.taskEvents.map TaskEvent.id).Pairwise (· < ·)
  eventIds : ∀ e ∈ s.db.taskEvents, e.id < s.db.taskEventSeq ∧ e.taskId < s.db.taskSeq
  taskIds : (s.db.tasks.map Task.id).Nodup
  taskIdsBound : ∀ t ∈ s.db.tasks, t.id < s.db.taskSeq
  faithful : ∀ t ∈ s.db.tasks, ∃ c ∈ s.created, c.id = t.id ∧
    FaithfulRecord c t (recordOf s.recorded t.id)

theorem recordOf_concat_self (recorded : List Recorded) (e : Recorded) :
    recordOf (recorded ++ [e]) e.1.taskId = recordOf recorded e.1.taskId ++ [e] := by
  rw [recordOf, List.filter_append, List.filter_cons_of_pos (by simp)]
  rfl

theorem recordOf_concat_ne (recorded : List Recorded) {e : Recorded} {taskId : ℕ}
    (h : e.1.taskId ≠ taskId) : recordOf (recorded ++ [e]) taskId = recordOf recorded taskId := by
  rw [recordOf, List.filter_append, List.filter_cons_of_neg (by simpa using h)]
  exact List.append_nil _

/-- The ledger of a successful request that leaves the number of tasks. -/
theorem stepLedger_eq {py : TextParsers} {s : Ledger} {req : TaskRequest} {db' : Database}
    (rows : List Task) {e : TaskEvent} (hres : handleTask py req s.db = .ok db')
    (hcreated : db'.tasks.drop s.db.tasks.length = rows)
    (hevents : db'.taskEvents = s.db.taskEvents ++ [e]) :
    stepLedger py s req =
      ⟨db', s.created ++ rows, s.recorded ++ [(e, req.stamp.now)]⟩ := by
  rw [stepLedger, hres, afterRequest, hcreated, hevents, List.drop_left]
  rfl

/-- An event that takes the next id keeps the ids ascending. -/
theorem Ledger.Kept.idOrder_concat {s : Ledger} (h : s.Kept) {e : TaskEvent}
    (he : e.id = s.db.taskEventSeq) :
    ((s.db.taskEvents ++ [e]).map TaskEvent.id).Pairwise (· < ·) := by
  rw [List.map_append]
  refine List.pairwise_append.mpr ⟨h.idOrder, List.pairwise_singleton _ _, ?_⟩
  intro a ha b hb
  obtain ⟨e', he', rfl⟩ := List.mem_map.mp ha
  rw [List.mem_singleton.mp hb, he]
  exact (h.eventIds e' he').1

/-- No event was recorded for an id that was not given out yet. -/
theorem Ledger.Kept.recordOf_eq_nil {s : Ledger} (h : s.Kept) {taskId : ℕ}
    (hle : s.db.taskSeq ≤ taskId) : recordOf s.recorded taskId = [] := by
  refine List.filter_eq_nil_iff.mpr fun e he hk => ?_
  have hevent : e.1 ∈ s.db.taskEvents := by
    rw [← h.recorded]
    exact List.mem_map_of_mem he
  have hlt := (h.eventIds e.1 hevent).2
  rw [of_decide_eq_true hk] at hlt
  exact absurd (lt_of_lt_of_le hlt hle) (lt_irrefl _)

/-- An edit that is described keeps every record faithful. -/
theorem Ledger.Kept.edit {s : Ledger} (h : s.Kept) {py : TextParsers} {req : TaskRequest}
    {task task' : Task} {action : TaskAction} {payload : Option TaskPayload}
    (hmem : task ∈ s.db.tasks) (hid : task'.id = task.id)
    (hd : Describes task task' action payload)
    (hres : handleTask py req s.db =
      .ok (recordEvent req.stamp task.id action payload (s.db.setTask task.id task'))) :
    (stepLedger py s req).Kept := by
  have htasks := tasks_recordEvent_setTask req.stamp action payload s.db hid
  have hids : (s.db.tasks.map fun t =>
      if t.id = task.id then { task' with lastUserInteractionAt := req.stamp.now } else t).map
        Task.id = s.db.tasks.map Task.id := by
    rw [List.map_map]
    refine List.map_congr_left fun t _ => ?_
    rw [Function.comp_apply]
    split_ifs with ht
    · exact hid.trans ht.symm
    · rfl
  rw [stepLedger_eq [] hres (by rw [htasks]; simp) rfl, List.append_nil]
  refine ⟨?_, ?_, ?_, ?_, ?_, ?_⟩
  · rw [List.map_append, h.recorded]
    rfl
  · exact h.idOrder_concat rfl
  · intro e he
    rcases List.mem_append.mp he with hold | hnew
    · exact ⟨Nat.lt_succ_of_lt (h.eventIds e hold).1, (h.eventIds e hold).2⟩
    · rw [List.mem_singleton.mp hnew]
      exact ⟨Nat.lt_succ_self _, h.taskIdsBound task hmem⟩
  · show (Database.tasks _ |>.map Task.id).Nodup
    rw [htasks, hids]
    exact h.taskIds
  · intro t ht
    have ht' : t.id ∈ s.db.tasks.map Task.id := by
      rw [← hids, ← htasks]
      exact List.mem_map_of_mem ht
    obtain ⟨t₀, ht₀, heq⟩ := List.mem_map.mp ht'
    rw [← heq]
    exact h.taskIdsBound t₀ ht₀
  · intro t ht
    rw [htasks, List.mem_map] at ht
    obtain ⟨t₀, ht₀, rfl⟩ := ht
    obtain ⟨c, hc, hcid, hf⟩ := h.faithful t₀ ht₀
    by_cases hk : t₀.id = task.id
    · -- the edited task: its record gets the new event
      obtain rfl : t₀ = task := List.inj_on_of_nodup_map h.taskIds ht₀ hmem hk
      rw [if_pos rfl]
      refine ⟨c, hc, hcid.trans hid.symm, ?_⟩
      show FaithfulRecord c _ (recordOf _ task'.id)
      rw [hid]
      exact recordOf_concat_self s.recorded (_, req.stamp.now) ▸
        hf.concat ⟨hd.completed, hd.archived, hd.vital, hd.dates, hd.old⟩ rfl
    · rw [if_neg hk]
      refine ⟨c, hc, hcid, ?_⟩
      rw [recordOf_concat_ne s.recorded fun heq => hk heq.symm]
      exact hf

/-- The rows that `add_task` leaves. -/
theorem tasks_recordEvent_add (stamp : Stamp) {db : Database} {task : Task}
    (hbound : ∀ t ∈ db.tasks, t.id < task.id) :
    (recordEvent stamp task.id .created none
      { db with tasks := db.tasks ++ [task], taskSeq := db.taskSeq + 1 }).tasks =
      db.tasks ++ [{ task with lastUserInteractionAt := stamp.now }] := by
  show (db.tasks ++ [task]).map _ = _
  rw [List.map_append, List.map_singleton, if_pos rfl]
  congr 1
  refine (List.map_congr_left fun t ht => ?_).trans (List.map_id _)
  rw [if_neg (hbound t ht).ne]
  rfl

/-- A new task has a faithful record, and the other records stay. -/
theorem Ledger.Kept.add {s : Ledger} (h : s.Kept) {py : TextParsers} {req : TaskRequest}
    {task : Task} (hid : task.id = s.db.taskSeq) (hcompleted : task.completedAt = none)
    (harchived : task.archivedAt = none)
    (hres : handleTask py req s.db = .ok (recordEvent req.stamp task.id .created none
      { s.db with tasks := s.db.tasks ++ [task], taskSeq := s.db.taskSeq + 1 })) :
    (stepLedger py s req).Kept := by
  have hbound : ∀ t ∈ s.db.tasks, t.id < task.id := fun t ht => by
    rw [hid]
    exact h.taskIdsBound t ht
  have htasks := tasks_recordEvent_add req.stamp hbound
  rw [stepLedger_eq _ hres (by rw [htasks, List.drop_left]) rfl]
  refine ⟨?_, ?_, ?_, ?_, ?_, ?_⟩
  · rw [List.map_append, h.recorded]
    rfl
  · exact h.idOrder_concat rfl
  · intro e he
    rcases List.mem_append.mp he with hold | hnew
    · exact ⟨Nat.lt_succ_of_lt (h.eventIds e hold).1, Nat.lt_succ_of_lt (h.eventIds e hold).2⟩
    · rw [List.mem_singleton.mp hnew]
      refine ⟨Nat.lt_succ_self _, ?_⟩
      show task.id < s.db.taskSeq + 1
      rw [hid]
      exact Nat.lt_succ_self _
  · show (Database.tasks _ |>.map Task.id).Nodup
    rw [htasks, List.map_append]
    refine List.nodup_append.mpr ⟨h.taskIds, List.nodup_singleton _, ?_⟩
    intro a ha b hb hab
    obtain ⟨t, ht, rfl⟩ := List.mem_map.mp ha
    exact absurd (hab.trans (List.mem_singleton.mp hb)) (hbound t ht).ne
  · intro t ht
    rw [htasks] at ht
    show t.id < s.db.taskSeq + 1
    rcases List.mem_append.mp ht with hold | hnew
    · exact Nat.lt_succ_of_lt (h.taskIdsBound t hold)
    · rw [List.mem_singleton.mp hnew]
      show task.id < s.db.taskSeq + 1
      rw [hid]
      exact Nat.lt_succ_self _
  · intro t ht
    rw [htasks] at ht
    rcases List.mem_append.mp ht with hold | hnew
    · obtain ⟨c, hc, hcid, hf⟩ := h.faithful t hold
      refine ⟨c, List.mem_append_left _ hc, hcid, ?_⟩
      rw [recordOf_concat_ne s.recorded (hbound t hold).ne']
      exact hf
    · obtain rfl := List.mem_singleton.mp hnew
      refine ⟨_, List.mem_append_right _ List.mem_cons_self, rfl, ?_⟩
      have hrecord := recordOf_concat_self s.recorded
        ({ id := s.db.taskEventSeq, taskId := task.id, action := .created,
           occurredAt := req.stamp.dbNow, payload := none }, req.stamp.now)
      rw [h.recordOf_eq_nil hid.ge, List.nil_append] at hrecord
      refine Eq.mpr (congrArg (FaithfulRecord _ _) hrecord) ?_
      refine faithfulRecord_created ?_ ?_ rfl rfl rfl
      · exact hcompleted
      · exact harchived

/-- **One request keeps every record faithful.** -/
theorem stepLedger_kept {py : TextParsers} {s : Ledger} (h : s.Kept) (req : TaskRequest) :
    (stepLedger py s req).Kept := by
  cases hres : handleTask py req s.db with
  | error e =>
    have hstep : stepLedger py s req = s := by
      rw [stepLedger, hres, afterRequest, List.drop_length, List.drop_length, List.append_nil]
      exact congrArg _ (List.append_nil _)
    rw [hstep]
    exact h
  | ok db' =>
    rcases handleTask_ok hres with
      ⟨task, hid, hc, ha, rfl⟩ | ⟨task, task', _, _, hmem, hid, hd, rfl⟩
    · exact h.add hid hc ha hres
    · exact h.edit hmem hid hd hres

/-! ## Whole runs -/

/-- **The task event history is a faithful record.**  Start without tasks.  After any run, the
events stand in id order, and those of each task lead from the row that `add_task` wrote to
the present one; its last interaction is what the application's clock showed when the last of
them was recorded. -/
theorem task_history_faithful (py : TextParsers) (db : Database) (htasks : db.tasks = [])
    (hevents : db.taskEvents = []) (reqs : List TaskRequest) :
    let s := reqs.foldl (stepLedger py) ⟨db, [], []⟩
    s.recorded.map Prod.fst = s.db.taskEvents ∧
    (s.db.taskEvents.map TaskEvent.id).Pairwise (· < ·) ∧
    ∀ task ∈ s.db.tasks, ∃ created ∈ s.created, created.id = task.id ∧
      FaithfulRecord created task (recordOf s.recorded task.id) := by
  have hstart : (Ledger.mk db [] []).Kept := by
    refine ⟨?_, ?_, ?_, ?_, ?_, ?_⟩ <;> simp [htasks, hevents]
  have hkept : (reqs.foldl (stepLedger py) ⟨db, [], []⟩).Kept :=
    Runs.foldl_invariant (I := Ledger.Kept) (C := fun _ _ => True)
      (fun _ req hs _ => stepLedger_kept hs req) hstart fun _ _ => trivial
  exact ⟨hkept.recorded, hkept.idOrder, hkept.faithful⟩

/-- A task is added and completed; the database's clock runs behind the application's. -/
def twoRequests : List TaskRequest :=
  [⟨⟨10, 7⟩, .add { name := some "call", date := some "2026-01-05" }⟩, ⟨⟨20, 17⟩, .toggle 1⟩]

theorem task_history_faithful_twoRequests :
    let s := twoRequests.foldl (stepLedger asciiParsers) ⟨{}, [], []⟩
    s.recorded.map Prod.fst = s.db.taskEvents ∧
    (s.db.taskEvents.map TaskEvent.id).Pairwise (· < ·) ∧
    ∀ task ∈ s.db.tasks, ∃ created ∈ s.created, created.id = task.id ∧
      FaithfulRecord created task (recordOf s.recorded task.id) :=
  task_history_faithful asciiParsers {} rfl rfl twoRequests

/-- The last interaction with the task is not the time that its last event carries. -/
theorem interaction_is_not_occurredAt :
    ¬ ∀ task ∈ (twoRequests.foldl (stepLedger asciiParsers) ⟨{}, [], []⟩).db.tasks,
      ∀ e ∈ ((twoRequests.foldl (stepLedger asciiParsers) ⟨{}, [], []⟩).db.taskEvents.filter
        fun e => e.taskId = task.id).getLast?, task.lastUserInteractionAt = e.occurredAt := by
  decide

end EpsCloud

import EpsCloud.Library.Selection
import EpsCloud.Routes.Agenda
import EpsCloud.Routes.Forms
import EpsCloud.Routes.Trackers

/-!
# Ordering the day list by hand

`app.routes.dashboard`, the two endpoints of "Plan the day": `move_item` gives a
task or a tracker a key between its new neighbours' keys, and `reset_order` takes
every manual key away.  `sort_order` is an `INTEGER` column, so a key outside its
range is refused when the row is written.

Both endpoints change nothing but manual keys: they are cases of
`Database.rekey`, and the rows of the day list are rekeyed alike.

* `moveItem_eq`, `moveItem_of_notMem`: what a request about a row of the day list
  answers, and one about any other.
* `baseRows_rekey`: the rows of the day list after their keys were changed.
* `nodup_ident`: the rows of a day list are told apart by their primary keys.
-/

namespace EpsCloud

open KeySort Selection

/-! ## What a request names -/

/-- A task or a tracker of the day list. -/
inductive Item where
  | task (id : ℕ)
  | tracker (id : ℕ)
  deriving DecidableEq, Repr

/-- The form field `item`. -/
def Item.text : Item → String
  | .task id => "t" ++ toString id
  | .tracker id => "k" ++ toString id

/-- What a row can be moved as; a calendar event cannot. -/
def Row.item? : Row → Option Item
  | .event _ => none
  | .task ctx => some (.task ctx.task.id)
  | .tracker t _ _ => some (.tracker t.id)

/-- The entry of `keys` for a row. -/
def Row.text (row : Row) : String := row.item?.elim "e" Item.text

/-- The form field `dir`. -/
inductive Direction where
  | top | up | down | bottom
  deriving DecidableEq, Repr

def Direction.text : Direction → String
  | .top => "top"
  | .up => "up"
  | .down => "down"
  | .bottom => "bottom"

/-- The direction that a text names. -/
def Direction.ofText? (text : String) : Option Direction :=
  [Direction.top, .up, .down, .bottom].find? fun direction => direction.text = text

/-! ## The two endpoints -/

/-- The new key of the row at `index`, computed from the keys of the list in its order. -/
def newKey (ordered : List ℤ) (index : ℕ) : Direction → Option ℤ
  | .top => ordered.head?.map (· - keyGap)
  | .bottom => ordered.getLast?.map (· + keyGap)
  | .up =>
    match index with
    | 0 => ordered.head?
    | 1 => ordered.head?.map (· - keyGap)
    | before + 2 => do
      let low ← ordered[before]?
      let high ← ordered[before + 1]?
      return (low + high) / 2
  | .down =>
    if index + 1 = ordered.length then ordered.getLast?
    else if index + 2 = ordered.length then ordered.getLast?.map (· + keyGap)
    else do
      let low ← ordered[index + 1]?
      let high ← ordered[index + 2]?
      return (low + high) / 2

/-- Set the `sort_order` of a task or a tracker. -/
def Database.setSortOrder (db : Database) (item : Item) (key : Option ℤ) : Database :=
  match item with
  | .task id =>
    let tasks := db.tasks.map fun t => if t.id = id then { t with sortOrder := key } else t
    { db with tasks := tasks }
  | .tracker id => db.setTracker id fun t => { t with sortOrder := key }

/-- `move_item`: move a task or tracker within the day list. -/
def moveItem (key direction : String) (today : Date) (now : Moment) (db : Database) :
    Except Failure Database :=
  match Direction.ofText? direction with
  | none => .error (.abort 400)
  | some direction =>
    if key.length < 2 then .error (.abort 400)
    else
      let rows := dayList db today now
      let keys := rows.map Row.text
      if key ∉ keys then .error (.abort 404)
      else
        let index := keys.idxOf key
        match newKey (rows.map effectiveKey) index direction, rows[index]?.bind Row.item? with
        | some newKey, some item =>
          if FitsInteger newKey then .ok (db.setSortOrder item (some newKey)) else .error .raised
        -- an `IndexError` or a `KeyError`
        | _, _ => .error .raised

/-- `reset_order`: back to the default ordering, clear every manual position. -/
def resetOrder (db : Database) : Database :=
  let tasks := db.tasks.map fun t => if t.sortOrder.isSome then { t with sortOrder := none } else t
  let trackers := db.trackers.map fun t =>
    if t.sortOrder.isSome then { t with sortOrder := none } else t
  { db with tasks := tasks, trackers := trackers }

/-- The rows of `day_list` before they are sorted. -/
def baseRows (db : Database) (today : Date) (now : Moment) : List Row :=
  (openTasks db.tasks).filterMap (fun t => (dayTask today now t).map .task) ++
    (db.calendarCache.filter fun e => e.date = today).map .event ++
    (activeTrackers db).filterMap (dayTracker db today)

theorem dayList_eq (db : Database) (today : Date) (now : Moment) :
    dayList db today now = sortByKey effectiveKey (baseRows db today now) := rfl

theorem keyGap_pos : 0 < keyGap := by decide

/-! ## Changing keys -/

/-- The task with its manual key changed. -/
def Task.rekey (f : Item → Option ℤ → Option ℤ) (task : Task) : Task :=
  { task with sortOrder := f (.task task.id) task.sortOrder }

/-- The tracker with its manual key changed. -/
def Tracker.rekey (f : Item → Option ℤ → Option ℤ) (tracker : Tracker) : Tracker :=
  { tracker with sortOrder := f (.tracker tracker.id) tracker.sortOrder }

/-- Change the manual key of every task and tracker. -/
def Database.rekey (db : Database) (f : Item → Option ℤ → Option ℤ) : Database :=
  { db with tasks := db.tasks.map (Task.rekey f), trackers := db.trackers.map (Tracker.rekey f) }

/-- Change the manual key of a row; an event has none. -/
def Row.rekey (f : Item → Option ℤ → Option ℤ) : Row → Row
  | .event e => .event e
  | .task ctx => .task { ctx with task := ctx.task.rekey f }
  | .tracker t state status => .tracker (t.rekey f) state status

/-- The key of one item, every other key as it is. -/
def assign (item : Item) (key : Option ℤ) : Item → Option ℤ → Option ℤ :=
  fun other old => if other = item then key else old

/-- No key at all. -/
def clear : Item → Option ℤ → Option ℤ := fun _ _ => none

/-- The row without its manual key. -/
def Row.unkeyed (row : Row) : Row := row.rekey clear

theorem setSortOrder_eq_rekey (db : Database) (item : Item) (key : Option ℤ) :
    db.setSortOrder item key = db.rekey (assign item key) := by
  cases item with
  | task id =>
    have htrackers : db.trackers.map (Tracker.rekey (assign (.task id) key)) = db.trackers :=
      List.map_id'' (fun _ => rfl) db.trackers
    have htasks : db.tasks.map (Task.rekey (assign (.task id) key)) =
        db.tasks.map fun t => if t.id = id then { t with sortOrder := key } else t := by
      refine List.map_congr_left fun t _ => ?_
      by_cases h : t.id = id <;> simp [Task.rekey, assign, h]
    rw [Database.rekey, htrackers, htasks]
    rfl
  | tracker id =>
    have htasks : db.tasks.map (Task.rekey (assign (.tracker id) key)) = db.tasks :=
      List.map_id'' (fun _ => rfl) db.tasks
    have htrackers : db.trackers.map (Tracker.rekey (assign (.tracker id) key)) =
        db.trackers.map fun t => if t.id = id then { t with sortOrder := key } else t := by
      refine List.map_congr_left fun t _ => ?_
      by_cases h : t.id = id <;> simp [Tracker.rekey, assign, h]
    rw [Database.rekey, htrackers, htasks]
    rfl

theorem resetOrder_eq_rekey (db : Database) : resetOrder db = db.rekey clear := by
  have htasks : db.tasks.map (fun t => if t.sortOrder.isSome then { t with sortOrder := none }
      else t) = db.tasks.map (Task.rekey clear) := by
    refine List.map_congr_left fun t _ => ?_
    cases t with
    | mk _ _ _ _ _ key => cases key <;> rfl
  have htrackers : db.trackers.map (fun t => if t.sortOrder.isSome then
      { t with sortOrder := none } else t) = db.trackers.map (Tracker.rekey clear) := by
    refine List.map_congr_left fun t _ => ?_
    cases t with
    | mk _ _ _ _ key => cases key <;> rfl
  rw [resetOrder, htasks, htrackers]
  rfl

theorem rekey_rekey (db : Database) (f g : Item → Option ℤ → Option ℤ) :
    (db.rekey f).rekey g = db.rekey fun item old => g item (f item old) := by
  simp only [Database.rekey, List.map_map]
  rfl

@[simp] theorem Row.unkeyed_rekey (row : Row) (f : Item → Option ℤ → Option ℤ) :
    (row.rekey f).unkeyed = row.unkeyed := by
  cases row <;> rfl

@[simp] theorem Row.item?_rekey (row : Row) (f : Item → Option ℤ → Option ℤ) :
    (row.rekey f).item? = row.item? := by
  cases row <;> rfl

theorem effectiveKey_unkeyed (row : Row) : effectiveKey row.unkeyed = defaultKey row.unkeyed := by
  cases row <;> rfl

/-- Whether a task is on the day list does not depend on its key. -/
theorem dayTask_rekey (f : Item → Option ℤ → Option ℤ) (today : Date) (now : Moment)
    (task : Task) :
    (dayTask today now (task.rekey f)).map Row.task =
      ((dayTask today now task).map Row.task).map (Row.rekey f) := by
  by_cases hhid : task.HiddenOn today
  · have hold : dayTask today now task = none := if_pos hhid
    have hnew : dayTask today now (task.rekey f) = none := if_pos hhid
    rw [hold, hnew]
    rfl
  · by_cases hday : (taskCtx task today now).overdueDays = 0 ∧
      (task.day = some today ∨ task.vital = true)
    · have hold : dayTask today now task = some (taskCtx task today now) :=
        (if_neg hhid).trans (if_pos hday)
      have hnew : dayTask today now (task.rekey f) = some (taskCtx (task.rekey f) today now) :=
        (if_neg hhid).trans (if_pos hday)
      rw [hold, hnew]
      rfl
    · have hold : dayTask today now task = none := (if_neg hhid).trans (if_neg hday)
      have hnew : dayTask today now (task.rekey f) = none := (if_neg hhid).trans (if_neg hday)
      rw [hold, hnew]
      rfl

/-- Whether a tracker is on the day list does not depend on any key. -/
theorem dayTracker_rekey (db : Database) (f : Item → Option ℤ → Option ℤ) (today : Date)
    (tracker : Tracker) :
    dayTracker (db.rekey f) today (tracker.rekey f) =
      (dayTracker db today tracker).map (Row.rekey f) := by
  have hstate : (db.rekey f).trackerState.lookup (tracker.rekey f).id =
      db.trackerState.lookup tracker.id := rfl
  have hdone : DoneOn (db.rekey f) (tracker.rekey f).id today ↔ DoneOn db tracker.id today :=
    Iff.rfl
  have hdays : (tracker.rekey f).visibleOnDays = tracker.visibleOnDays := rfl
  have hstatus : ∀ state done, trackerStatus (tracker.rekey f) state done =
      trackerStatus tracker state done := fun _ _ => rfl
  rw [dayTracker, dayTracker, hstate]
  cases db.trackerState.lookup tracker.id with
  | none => rfl
  | some state =>
    simp only [hdays, hstatus, hdone]
    split_ifs with hvisible
    · cases trackerStatus tracker state (DoneOn db tracker.id today) <;> rfl
    · rfl

/-- **The rows of the day list after their keys were changed.** -/
theorem baseRows_rekey (db : Database) (f : Item → Option ℤ → Option ℤ) (today : Date)
    (now : Moment) :
    baseRows (db.rekey f) today now = (baseRows db today now).map (Row.rekey f) := by
  have htasks : (openTasks (db.rekey f).tasks).filterMap
      (fun t => (dayTask today now t).map .task) =
      ((openTasks db.tasks).filterMap fun t => (dayTask today now t).map .task).map
        (Row.rekey f) := by
    have hopen : openTasks (db.rekey f).tasks = (openTasks db.tasks).map (Task.rekey f) :=
      List.filter_map
    rw [hopen, List.filterMap_map, List.map_filterMap]
    exact List.filterMap_congr fun t _ => dayTask_rekey f today now t
  have hevents : ((db.rekey f).calendarCache.filter fun e => e.date = today).map .event =
      ((db.calendarCache.filter fun e => e.date = today).map .event).map (Row.rekey f) := by
    rw [List.map_map]
    rfl
  have htrackers : (activeTrackers (db.rekey f)).filterMap (dayTracker (db.rekey f) today) =
      ((activeTrackers db).filterMap (dayTracker db today)).map (Row.rekey f) := by
    have hactive : activeTrackers (db.rekey f) = (activeTrackers db).map (Tracker.rekey f) :=
      List.filter_map
    rw [hactive, List.filterMap_map, List.map_filterMap]
    exact List.filterMap_congr fun t _ => dayTracker_rekey db f today t
  rw [baseRows, baseRows, htasks, hevents, htrackers, List.map_append, List.map_append]

/-- **The day list after keys were changed** is sorted by the new keys. -/
theorem dayList_rekey (db : Database) (f : Item → Option ℤ → Option ℤ) (today : Date)
    (now : Moment) :
    dayList (db.rekey f) today now =
      (sortByKey (fun row => effectiveKey (row.rekey f)) (baseRows db today now)).map
        (Row.rekey f) := by
  rw [dayList_eq, baseRows_rekey, map_sortByKey _ effectiveKey fun _ _ => rfl]

/-! ## Rows are told apart by their primary keys -/

/-- The primary keys of the rows that a day list is made of are distinct. -/
structure DistinctIds (db : Database) : Prop where
  tasks : (db.tasks.map Task.id).Nodup
  trackers : (db.trackers.map Tracker.id).Nodup
  events : (db.calendarCache.map CalendarEvent.eventId).Nodup

def Task.ident (task : Task) : Item ⊕ String := .inl (.task task.id)

def Tracker.ident (tracker : Tracker) : Item ⊕ String := .inl (.tracker tracker.id)

def CalendarEvent.ident (event : CalendarEvent) : Item ⊕ String := .inr event.eventId

/-- The primary key of a row. -/
def Row.ident : Row → Item ⊕ String
  | .event e => e.ident
  | .task ctx => ctx.task.ident
  | .tracker t _ _ => t.ident

@[simp] theorem Row.ident_rekey (row : Row) (f : Item → Option ℤ → Option ℤ) :
    (row.rekey f).ident = row.ident := by
  cases row <;> rfl

theorem Row.item?_eq_some {row : Row} {item : Item} :
    row.item? = some item ↔ row.ident = .inl item := by
  cases row <;> simp [Row.item?, Row.ident, Task.ident, Tracker.ident, CalendarEvent.ident]

theorem DistinctIds.rekey {db : Database} (hids : DistinctIds db)
    (f : Item → Option ℤ → Option ℤ) : DistinctIds (db.rekey f) := by
  have htasks : (db.rekey f).tasks.map Task.id = db.tasks.map Task.id := List.map_map
  have htrackers : (db.rekey f).trackers.map Tracker.id = db.trackers.map Tracker.id :=
    List.map_map
  exact ⟨htasks ▸ hids.tasks, htrackers ▸ hids.trackers, hids.events⟩

theorem DistinctIds.nodup {db : Database} (hids : DistinctIds db) :
    (db.tasks.map Task.ident ++ db.calendarCache.map CalendarEvent.ident ++
      db.trackers.map Tracker.ident).Nodup := by
  have htasks := hids.tasks.map (f := fun id => (.inl (.task id) : Item ⊕ String))
    fun _ _ h => Item.task.inj (Sum.inl.inj h)
  have htrackers := hids.trackers.map (f := fun id => (.inl (.tracker id) : Item ⊕ String))
    fun _ _ h => Item.tracker.inj (Sum.inl.inj h)
  have hevents := hids.events.map (f := fun id => (.inr id : Item ⊕ String)) Sum.inr_injective
  rw [List.map_map] at htasks htrackers hevents
  refine (htasks.append hevents ?_).append htrackers ?_
  · intro x htask hevent
    obtain ⟨task, -, rfl⟩ := List.mem_map.mp htask
    obtain ⟨event, -, h⟩ := List.mem_map.mp hevent
    cases h
  · intro x hother htracker
    obtain ⟨tracker, -, rfl⟩ := List.mem_map.mp htracker
    rcases List.mem_append.mp hother with htask | hevent
    · obtain ⟨task, -, h⟩ := List.mem_map.mp htask
      cases h
    · obtain ⟨event, -, h⟩ := List.mem_map.mp hevent
      cases h

theorem ident_of_dayTask {today : Date} {now : Moment} {task : Task} {row : Row}
    (h : row ∈ (dayTask today now task).map Row.task) : row.ident = task.ident := by
  obtain ⟨ctx, hctx, rfl⟩ := Option.map_eq_some_iff.mp h
  rw [← (dayTask_eq_some.mp hctx).2]
  rfl

theorem ident_of_dayTracker {db : Database} {today : Date} {tracker : Tracker} {row : Row}
    (h : row ∈ dayTracker db today tracker) : row.ident = tracker.ident := by
  rw [dayTracker] at h
  cases hstate : db.trackerState.lookup tracker.id with
  | none =>
    rw [hstate] at h
    exact absurd h (by simp)
  | some state =>
    rw [hstate] at h
    dsimp only at h
    split_ifs at h
    · obtain ⟨status, -, rfl⟩ := Option.map_eq_some_iff.mp h
      rfl
    · exact absurd h (by simp)

/-- **The rows of a day list have different primary keys.** -/
theorem nodup_ident {db : Database} (hids : DistinctIds db) (today : Date) (now : Moment) :
    ((baseRows db today now).map Row.ident).Nodup := by
  have htasks : (((openTasks db.tasks).filterMap fun t => (dayTask today now t).map .task).map
      Row.ident).Sublist (db.tasks.map Task.ident) :=
    (map_filterMap_sublist (fun _ _ => ident_of_dayTask) _).trans (List.filter_sublist.map _)
  have hevents : (((db.calendarCache.filter fun e => e.date = today).map .event).map
      Row.ident).Sublist (db.calendarCache.map CalendarEvent.ident) := by
    rw [List.map_map]
    exact List.filter_sublist.map _
  have htrackers : (((activeTrackers db).filterMap (dayTracker db today)).map
      Row.ident).Sublist (db.trackers.map Tracker.ident) :=
    (map_filterMap_sublist (fun _ _ => ident_of_dayTracker) _).trans (List.filter_sublist.map _)
  rw [baseRows, List.map_append, List.map_append]
  exact ((htasks.append hevents).append htrackers).nodup hids.nodup

theorem nodup_ident_dayList {db : Database} (hids : DistinctIds db) (today : Date)
    (now : Moment) : ((dayList db today now).map Row.ident).Nodup :=
  ((sortByKey_perm effectiveKey _).map Row.ident).nodup_iff.mpr (nodup_ident hids today now)

/-- A row is told from the others by what it is without its key. -/
theorem unkeyed_inj {db : Database} (hids : DistinctIds db) {today : Date} {now : Moment}
    {a b : Row} (ha : a ∈ baseRows db today now) (hb : b ∈ baseRows db today now)
    (h : a.unkeyed = b.unkeyed) : a = b := by
  refine List.inj_on_of_nodup_map (nodup_ident hids today now) ha hb ?_
  rw [← Row.ident_rekey a clear, ← Row.ident_rekey b clear]
  exact congrArg Row.ident h

/-- The item of a row is not the item of another one. -/
theorem item?_inj {db : Database} (hids : DistinctIds db) {today : Date} {now : Moment}
    {a b : Row} (ha : a ∈ baseRows db today now) (hb : b ∈ baseRows db today now) {item : Item}
    (hitem : a.item? = some item) (h : b.item? = some item) : a = b := by
  refine List.inj_on_of_nodup_map (nodup_ident hids today now) ha hb ?_
  rw [Row.item?_eq_some.mp hitem, Row.item?_eq_some.mp h]

/-! ## What `move_item` answers -/

theorem toString_injective : Function.Injective (toString : ℕ → String) :=
  fun _ _ h => Nat.repr_injective h

theorem Item.text_injective : Function.Injective Item.text := by
  intro a b h
  cases a with
  | task i =>
    cases b with
    | task j => rw [toString_injective ((String.append_right_inj "t").mp h)]
    | tracker j =>
      have hchars := congrArg String.toList h
      simp [Item.text] at hchars
  | tracker i =>
    cases b with
    | task j =>
      have hchars := congrArg String.toList h
      simp [Item.text] at hchars
    | tracker j => rw [toString_injective ((String.append_right_inj "k").mp h)]

theorem Item.two_le_length_text (item : Item) : ¬ item.text.length < 2 := by
  have hdigits : ∀ n : ℕ, 1 ≤ (toString n).length := fun n => Nat.length_repr_pos
  cases item with
  | task id =>
    have := hdigits id
    rw [Item.text, String.length_append]
    exact Nat.not_lt.mpr (Nat.add_le_add (le_refl 1) this)
  | tracker id =>
    have := hdigits id
    rw [Item.text, String.length_append]
    exact Nat.not_lt.mpr (Nat.add_le_add (le_refl 1) this)

theorem Row.text_eq_iff {row : Row} {item : Item} :
    row.text = item.text ↔ row.item? = some item := by
  rw [Row.text]
  cases hrow : row.item? with
  | none =>
    refine iff_of_false (fun h => item.two_le_length_text ?_) (by simp)
    rw [← h]
    decide
  | some other => exact Item.text_injective.eq_iff.trans Option.some_inj.symm

@[simp] theorem Direction.ofText?_text (direction : Direction) :
    Direction.ofText? direction.text = some direction := by
  cases direction <;> decide

theorem newKey_isSome {ordered : List ℤ} {index : ℕ} (h : index < ordered.length)
    (direction : Direction) : ∃ key, newKey ordered index direction = some key := by
  have hne : ordered ≠ [] := List.ne_nil_of_length_pos (by omega)
  obtain ⟨first, hfirst⟩ : ∃ first, ordered.head? = some first :=
    ⟨_, List.head?_eq_some_head hne⟩
  obtain ⟨last, hlast⟩ : ∃ last, ordered.getLast? = some last :=
    ⟨_, List.getLast?_eq_some_getLast hne⟩
  cases direction with
  | top => exact ⟨first - keyGap, by rw [newKey, hfirst, Option.map_some]⟩
  | bottom => exact ⟨last + keyGap, by rw [newKey, hlast, Option.map_some]⟩
  | up =>
    match index with
    | 0 => exact ⟨first, hfirst⟩
    | 1 => exact ⟨first - keyGap, by rw [newKey, hfirst, Option.map_some]⟩
    | before + 2 =>
      refine ⟨(ordered[before] + ordered[before + 1]) / 2, ?_⟩
      rw [newKey, List.getElem?_eq_getElem (by omega), List.getElem?_eq_getElem (by omega)]
      rfl
  | down =>
    rw [newKey]
    split_ifs with hend hsecond
    · exact ⟨last, hlast⟩
    · exact ⟨last + keyGap, by rw [hlast, Option.map_some]⟩
    · refine ⟨(ordered[index + 1] + ordered[index + 2]) / 2, ?_⟩
      rw [List.getElem?_eq_getElem (by omega), List.getElem?_eq_getElem (by omega)]
      rfl

/-- **A request about anything else.** -/
theorem moveItem_of_notMem {db : Database} {today : Date} {now : Moment} {item : Item}
    (h : ∀ row ∈ dayList db today now, row.item? ≠ some item) (direction : Direction) :
    moveItem item.text direction.text today now db = .error (.abort 404) := by
  have hkeys : item.text ∉ (dayList db today now).map Row.text := by
    rw [List.mem_map]
    rintro ⟨row, hrow, htext⟩
    exact h row hrow (Row.text_eq_iff.mp htext)
  rw [moveItem, Direction.ofText?_text]
  exact (if_neg item.two_le_length_text).trans (if_pos hkeys)

/-- **A request about a row of the day list** is answered with the new key, if the column
takes it. -/
theorem moveItem_eq {db : Database} (hids : DistinctIds db) {today : Date} {now : Moment}
    {i : ℕ} {row : Row} (hrow : (dayList db today now)[i]? = some row) {item : Item}
    (hitem : row.item? = some item) {direction : Direction} {key : ℤ}
    (hkey : newKey ((dayList db today now).map effectiveKey) i direction = some key) :
    moveItem item.text direction.text today now db =
      if FitsInteger key then .ok (db.setSortOrder item (some key)) else .error .raised := by
  have hkeys : item.text ∈ (dayList db today now).map Row.text :=
    List.mem_map.mpr ⟨row, List.mem_of_getElem? hrow, Row.text_eq_iff.mpr hitem⟩
  have hindex : ((dayList db today now).map Row.text).idxOf item.text = i := by
    have hlt := List.idxOf_lt_length_of_mem hkeys
    have hat := List.getElem_idxOf hlt
    rw [List.length_map] at hlt
    rw [List.getElem_map] at hat
    obtain ⟨hi, rfl⟩ := List.getElem?_eq_some_iff.mp hrow
    have hsame : (dayList db today now)[((dayList db today now).map Row.text).idxOf item.text] =
        (dayList db today now)[i] :=
      List.inj_on_of_nodup_map (nodup_ident_dayList hids today now) (List.getElem_mem _)
        (List.getElem_mem _) (by
          rw [Row.item?_eq_some.mp (Row.text_eq_iff.mp hat), Row.item?_eq_some.mp hitem])
    exact (nodup_ident_dayList hids today now).of_map.getElem_inj_iff.mp hsame
  rw [moveItem, Direction.ofText?_text]
  refine (if_neg item.two_le_length_text).trans ((if_neg (not_not.mpr hkeys)).trans ?_)
  simp only [hindex, hkey, hrow, Option.bind_some, hitem]

/-! ## The order of the day list -/

/-- The day list as it is read: the rows in order, without their keys. -/
def dayOrder (db : Database) (today : Date) (now : Moment) : List Row :=
  (dayList db today now).map Row.unkeyed

/-- What the request to move an item leaves. -/
def afterMove (item : Item) (direction : Direction) (today : Date) (now : Moment)
    (db : Database) : Database :=
  afterRequest db (moveItem item.text direction.text today now db)

section

variable {db : Database} {today : Date} {now : Moment} {row : Row} {item : Item}

/-- The order after keys were changed. -/
theorem dayOrder_rekey (db : Database) (f : Item → Option ℤ → Option ℤ) (today : Date)
    (now : Moment) :
    dayOrder (db.rekey f) today now =
      (sortByKey (fun row => effectiveKey (row.rekey f)) (baseRows db today now)).map
        Row.unkeyed := by
  rw [dayOrder, dayList_rekey, List.map_map]
  exact List.map_congr_left fun row _ => Row.unkeyed_rekey row f

theorem effectiveKey_assign_self (hitem : row.item? = some item) (key : ℤ) :
    effectiveKey (row.rekey (assign item (some key))) = key := by
  cases row with
  | event e => cases hitem
  | task ctx =>
    obtain rfl := Option.some.inj hitem
    simp [Row.rekey, Task.rekey, effectiveKey, assign]
  | tracker t state status =>
    obtain rfl := Option.some.inj hitem
    simp [Row.rekey, Tracker.rekey, effectiveKey, assign]

theorem Row.rekey_eq_self {f : Item → Option ℤ → Option ℤ}
    (h : ∀ item, row.item? = some item → ∀ old, f item old = old) : row.rekey f = row := by
  cases row with
  | event e => rfl
  | task ctx =>
    have hsame : f (.task ctx.task.id) ctx.task.sortOrder = ctx.task.sortOrder := h _ rfl _
    rw [Row.rekey, Task.rekey, hsame]
  | tracker t state status =>
    have hsame : f (.tracker t.id) t.sortOrder = t.sortOrder := h _ rfl _
    rw [Row.rekey, Tracker.rekey, hsame]

theorem assign_of_ne {other : Item} (h : other ≠ item) (key old : Option ℤ) :
    assign item key other old = old := if_neg h

/-- The keys of the rows, after the one of `row` was set, are the old ones but for that row. -/
theorem effectiveKey_assign_of_ne (hids : DistinctIds db) (hrow : row ∈ baseRows db today now)
    (hitem : row.item? = some item) {other : Row} (hother : other ∈ baseRows db today now)
    (hne : other ≠ row) (key : Option ℤ) :
    effectiveKey (other.rekey (assign item key)) = effectiveKey other := by
  have hself : other.rekey (assign item key) = other := Row.rekey_eq_self fun i hi old =>
    assign_of_ne (fun heq => hne (item?_inj hids hother hrow (hi.trans (congrArg some heq)) hitem))
      key old
  rw [hself]

theorem nodup_dayOrder (hids : DistinctIds db) (today : Date) (now : Moment) :
    (dayOrder db today now).Nodup := by
  refine List.Nodup.of_map Row.ident ?_
  rw [dayOrder, List.map_map]
  exact (List.map_congr_left fun row _ => Row.ident_rekey row clear) ▸
    nodup_ident_dayList hids today now

end

end EpsCloud

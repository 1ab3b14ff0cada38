import EpsCloud.Agenda.MoveByOne
import EpsCloud.Library.Runs

/-!
# Runs of moves

Any number of `move_item` requests, one after another, on the items of one day
list.  Keys drift over a run, but a request writes the key of the item that it
names and no other, so whatever a run left behind is the list before the run with
the keys of the moved items changed: an instance of `Database.rekey`.  Everything
that a run keeps follows from that.

A new key outside the range of the column is refused, and the request then
changes nothing.

* `moves_compose`: what every request of a run does, what the run keeps, and what
  `reset_order` gives back after it.
-/

namespace EpsCloud

open KeySort Runs

/-! ## What is promised -/

/-- The item stands first, strictly before every other row. -/
def AtTop (rows : List Row) (item : Item) : Prop :=
  ∃ row rest, rows = row :: rest ∧ row.item? = some item ∧
    ∀ other ∈ rest, effectiveKey row < effectiveKey other

/-- The item stands last, strictly after every other row. -/
def AtBottom (rows : List Row) (item : Item) : Prop :=
  ∃ row rest, rows = rest ++ [row] ∧ row.item? = some item ∧
    ∀ other ∈ rest, effectiveKey other < effectiveKey row

/-- The row is not one of the given items. -/
def Row.NotIn (items : List Item) (row : Row) : Prop := ∀ item ∈ items, row.item? ≠ some item

instance (items : List Item) (row : Row) : Decidable (row.NotIn items) :=
  inferInstanceAs (Decidable (∀ item ∈ items, _))

/-- One request to move an item. -/
def move (today : Date) (now : Moment) (db : Database) (req : Item × Direction) : Database :=
  afterMove req.1 req.2 today now db

/-- What one request does, whatever the keys are. -/
structure MoveSound (today : Date) (now : Moment) (db : Database) (req : Item × Direction) :
    Prop where
  /-- it sets the key of the item it names, or, when the column does not take the new key,
  changes nothing -/
  named : ∀ i row, (dayList db today now)[i]? = some row → row.item? = some req.1 →
    ∃ key, newKey ((dayList db today now).map effectiveKey) i req.2 = some key ∧
      move today now db req =
        if FitsInteger key then db.setSortOrder req.1 (some key) else db
  /-- an item that is not in the list is not found -/
  unnamed : (∀ row ∈ dayList db today now, row.item? ≠ some req.1) → move today now db req = db
  rows : (dayOrder (move today now db req) today now).Perm (dayOrder db today now)
  others : (dayOrder (move today now db req) today now).filter (Row.NotIn [req.1]) =
    (dayOrder db today now).filter (Row.NotIn [req.1])
  top : req.2 = .top → (∃ row ∈ dayList db today now, row.item? = some req.1) →
    (∀ first ∈ (dayList db today now).head?, FitsInteger (effectiveKey first - keyGap)) →
    AtTop (dayList (move today now db req) today now) req.1
  bottom : req.2 = .bottom → (∃ row ∈ dayList db today now, row.item? = some req.1) →
    (∀ last ∈ (dayList db today now).getLast?, FitsInteger (effectiveKey last + keyGap)) →
    AtBottom (dayList (move today now db req) today now) req.1

/-- What a run of requests does to the list that it starts from. -/
structure MovesCompose (today : Date) (now : Moment) (db : Database)
    (reqs : List (Item × Direction)) : Prop where
  each : ∀ x ∈ trace (move today now) db reqs, MoveSound today now x.1 x.2
  rows : (dayOrder (reqs.foldl (move today now) db) today now).Perm (dayOrder db today now)
  unmoved : (dayOrder (reqs.foldl (move today now) db) today now).filter
      (Row.NotIn (reqs.map Prod.fst)) =
    (dayOrder db today now).filter (Row.NotIn (reqs.map Prod.fst))
  events : (reqs.foldl (move today now) db).calendarCache = db.calendarCache
  /-- after a reset the rows are sorted by their default keys -/
  reset : dayList (resetOrder (reqs.foldl (move today now) db)) today now =
    sortByKey defaultKey ((baseRows db today now).map Row.unkeyed)
  /-- in particular they are as they were, if none had a key before the run -/
  restored : (∀ row ∈ baseRows db today now, row.unkeyed = row) →
    dayList (resetOrder (reqs.foldl (move today now) db)) today now = dayList db today now

/-! ## Changing some keys -/

section

variable {db : Database} {today : Date} {now : Moment} {items : List Item}
  {f : Item → Option ℤ → Option ℤ}

/-- The change of keys touches the given items only. -/
def OnlyAt (items : List Item) (f : Item → Option ℤ → Option ℤ) : Prop :=
  ∀ item, item ∉ items → ∀ old, f item old = old

theorem perm_dayOrder_rekey (db : Database) (f : Item → Option ℤ → Option ℤ) (today : Date)
    (now : Moment) : (dayOrder (db.rekey f) today now).Perm (dayOrder db today now) := by
  rw [dayOrder_rekey, dayOrder, dayList_eq]
  exact ((sortByKey_perm _ _).trans (sortByKey_perm _ _).symm).map _

theorem Row.notIn_unkeyed {row : Row} : row.unkeyed.NotIn items ↔ row.NotIn items := by
  rw [Row.NotIn, Row.unkeyed, Row.item?_rekey]
  rfl

theorem filter_map_unkeyed (rows : List Row) :
    (rows.map Row.unkeyed).filter (Row.NotIn items) =
      (rows.filter (Row.NotIn items)).map Row.unkeyed := by
  rw [List.filter_map]
  refine congrArg _ (List.filter_congr fun row _ => ?_)
  exact decide_eq_decide.mpr Row.notIn_unkeyed

theorem OnlyAt.rekey_eq_self (hf : OnlyAt items f) {row : Row} (h : row.NotIn items) :
    row.rekey f = row :=
  Row.rekey_eq_self fun item hitem => hf item fun hmem => h item hmem hitem

/-- **Rows whose keys are not changed keep their order.** -/
theorem filter_dayOrder_rekey (hf : OnlyAt items f) (db : Database) (today : Date)
    (now : Moment) :
    (dayOrder (db.rekey f) today now).filter (Row.NotIn items) =
      (dayOrder db today now).filter (Row.NotIn items) := by
  rw [dayOrder_rekey, dayOrder, dayList_eq, filter_map_unkeyed, filter_map_unkeyed,
    filter_sortByKey, filter_sortByKey]
  refine congrArg _ (sortByKey_congr fun row hrow => ?_)
  rw [hf.rekey_eq_self (of_decide_eq_true (List.mem_filter.mp hrow).2)]

/-- **A reset forgets every key.** -/
theorem resetOrder_rekey (db : Database) (f : Item → Option ℤ → Option ℤ) :
    resetOrder (db.rekey f) = resetOrder db := by
  rw [resetOrder_eq_rekey, resetOrder_eq_rekey, rekey_rekey]
  rfl

theorem dayList_resetOrder (db : Database) (today : Date) (now : Moment) :
    dayList (resetOrder db) today now =
      sortByKey defaultKey ((baseRows db today now).map Row.unkeyed) := by
  rw [dayList_eq, resetOrder_eq_rekey, baseRows_rekey]
  refine sortByKey_congr fun row hrow => ?_
  obtain ⟨old, -, rfl⟩ := List.mem_map.mp hrow
  exact effectiveKey_unkeyed old

/-- A list without keys is not changed by a reset. -/
theorem dayList_resetOrder_of_unkeyed (h : ∀ row ∈ baseRows db today now, row.unkeyed = row) :
    dayList (resetOrder db) today now = dayList db today now := by
  rw [dayList_eq, dayList_eq, resetOrder_eq_rekey, baseRows_rekey]
  exact congrArg _ ((List.map_congr_left h).trans (List.map_id _))

/-! ## One request -/

theorem rekey_id (db : Database) : db.rekey (fun _ old => old) = db := by
  have htasks : db.tasks.map (Task.rekey fun _ old => old) = db.tasks :=
    List.map_id'' (fun _ => rfl) db.tasks
  have htrackers : db.trackers.map (Tracker.rekey fun _ old => old) = db.trackers :=
    List.map_id'' (fun _ => rfl) db.trackers
  rw [Database.rekey, htasks, htrackers]

/-- **A request sets one key, or changes nothing.** -/
theorem move_eq (hids : DistinctIds db) {i : ℕ} {row : Row} {req : Item × Direction}
    (hrow : (dayList db today now)[i]? = some row) (hitem : row.item? = some req.1) :
    ∃ key, newKey ((dayList db today now).map effectiveKey) i req.2 = some key ∧
      move today now db req = if FitsInteger key then db.setSortOrder req.1 (some key) else db := by
  obtain ⟨hi, -⟩ := List.getElem?_eq_some_iff.mp hrow
  obtain ⟨key, hkey⟩ := newKey_isSome
    (show i < ((dayList db today now).map effectiveKey).length by rwa [List.length_map]) req.2
  refine ⟨key, hkey, ?_⟩
  rw [move, afterMove, moveItem_eq hids hrow hitem hkey]
  split_ifs <;> rfl

theorem move_of_notMem {req : Item × Direction}
    (h : ∀ row ∈ dayList db today now, row.item? ≠ some req.1) : move today now db req = db := by
  rw [move, afterMove, moveItem_of_notMem h]
  rfl

/-- The other rows have the keys that they had. -/
theorem effectiveKey_other (hids : DistinctIds db) {row : Row} {item : Item}
    (hrow : row ∈ baseRows db today now) (hitem : row.item? = some item) {key : Option ℤ}
    {other : Row} (hother : other ∈ (baseRows db today now).map (Row.rekey (assign item key)))
    (hne : other ≠ row.rekey (assign item key)) :
    ∃ old ∈ baseRows db today now, effectiveKey other = effectiveKey old := by
  obtain ⟨old, hold, rfl⟩ := List.mem_map.mp hother
  have hne' : old ≠ row := fun heq => hne (congrArg _ heq)
  exact ⟨old, hold, effectiveKey_assign_of_ne hids hrow hitem hold hne' key⟩

theorem nodup_map_rekey (hids : DistinctIds db) (f : Item → Option ℤ → Option ℤ) (today : Date)
    (now : Moment) : ((baseRows db today now).map (Row.rekey f)).Nodup := by
  rw [← baseRows_rekey]
  exact (nodup_ident (hids.rekey f) today now).of_map

/-- A key below all others puts its row first. -/
theorem atTop_setSortOrder (hids : DistinctIds db) {row : Row} {item : Item}
    (hrow : row ∈ baseRows db today now) (hitem : row.item? = some item) {key : ℤ}
    (hkey : ∀ other ∈ baseRows db today now, key < effectiveKey other) :
    AtTop (dayList (db.setSortOrder item (some key)) today now) item := by
  obtain ⟨rest, hsort, hrest⟩ := sortByKey_eq_cons_of_first effectiveKey
    (nodup_map_rekey hids (assign item (some key)) today now) (List.mem_map_of_mem hrow)
    fun other hother hne => by
      obtain ⟨old, hold, heq⟩ := effectiveKey_other hids hrow hitem hother hne
      rw [effectiveKey_assign_self hitem, heq]
      exact hkey old hold
  rw [setSortOrder_eq_rekey, dayList_eq, baseRows_rekey]
  exact ⟨_, rest, hsort, (Row.item?_rekey row _).trans hitem, hrest⟩

/-- A key above all others puts its row last. -/
theorem atBottom_setSortOrder (hids : DistinctIds db) {row : Row} {item : Item}
    (hrow : row ∈ baseRows db today now) (hitem : row.item? = some item) {key : ℤ}
    (hkey : ∀ other ∈ baseRows db today now, effectiveKey other < key) :
    AtBottom (dayList (db.setSortOrder item (some key)) today now) item := by
  obtain ⟨rest, hsort, hrest⟩ := sortByKey_eq_append_of_last effectiveKey
    (nodup_map_rekey hids (assign item (some key)) today now) (List.mem_map_of_mem hrow)
    fun other hother hne => by
      obtain ⟨old, hold, heq⟩ := effectiveKey_other hids hrow hitem hother hne
      rw [effectiveKey_assign_self hitem, heq]
      exact hkey old hold
  rw [setSortOrder_eq_rekey, dayList_eq, baseRows_rekey]
  exact ⟨_, rest, hsort, (Row.item?_rekey row _).trans hitem, hrest⟩

theorem newKey_top {i : ℕ} {key : ℤ}
    (h : newKey ((dayList db today now).map effectiveKey) i .top = some key) :
    ∃ first, (dayList db today now).head? = some first ∧ key = effectiveKey first - keyGap := by
  rw [newKey, List.head?_map, Option.map_map] at h
  obtain ⟨first, hfirst, hkey⟩ := Option.map_eq_some_iff.mp h
  exact ⟨first, hfirst, hkey.symm⟩

theorem newKey_bottom {i : ℕ} {key : ℤ}
    (h : newKey ((dayList db today now).map effectiveKey) i .bottom = some key) :
    ∃ last, (dayList db today now).getLast? = some last ∧ key = effectiveKey last + keyGap := by
  rw [newKey, List.getLast?_map, Option.map_map] at h
  obtain ⟨last, hlast, hkey⟩ := Option.map_eq_some_iff.mp h
  exact ⟨last, hlast, hkey.symm⟩

/-- **What a request leaves** is the database with the key of the item it names changed. -/
theorem move_eq_rekey (hids : DistinctIds db) (today : Date) (now : Moment)
    (req : Item × Direction) :
    ∃ f, OnlyAt [req.1] f ∧ move today now db req = db.rekey f := by
  have hid : ∃ f, OnlyAt [req.1] f ∧ db = db.rekey f :=
    ⟨fun _ old => old, fun _ _ _ => rfl, (rekey_id db).symm⟩
  by_cases h : ∃ row ∈ dayList db today now, row.item? = some req.1
  · obtain ⟨row, hmem, hitem⟩ := h
    obtain ⟨i, hrow⟩ := List.getElem?_of_mem hmem
    obtain ⟨key, -, hmove⟩ := move_eq hids hrow hitem
    rw [hmove]
    split_ifs
    · refine ⟨assign req.1 (some key), fun item hother old => ?_, setSortOrder_eq_rekey _ _ _⟩
      exact assign_of_ne (fun heq => hother (List.mem_singleton.mpr heq)) _ old
    · exact hid
  · rw [move_of_notMem fun row hmem hitem => h ⟨row, hmem, hitem⟩]
    exact hid

/-- **Every request is sound**, whatever the keys are. -/
theorem moveSound (hids : DistinctIds db) (today : Date) (now : Moment)
    (req : Item × Direction) : MoveSound today now db req := by
  obtain ⟨f, hf, hmove⟩ := move_eq_rekey hids today now req
  refine ⟨fun i row hrow hitem => move_eq hids hrow hitem, move_of_notMem, ?_, ?_, ?_, ?_⟩
  · rw [hmove]
    exact perm_dayOrder_rekey db f today now
  · rw [hmove]
    exact filter_dayOrder_rekey hf db today now
  · rintro hdir ⟨row, hmem, hitem⟩ hfits
    obtain ⟨i, hrow⟩ := List.getElem?_of_mem hmem
    obtain ⟨key, hkey, hset⟩ := move_eq hids hrow hitem
    rw [hdir] at hkey
    obtain ⟨first, hfirst, rfl⟩ := newKey_top hkey
    rw [hset, if_pos (hfits first hfirst)]
    exact atTop_setSortOrder hids (mem_sortByKey.mp hmem) hitem fun other hother =>
      sub_lt_iff_lt_add.mpr (lt_add_of_le_of_pos (key_head_le hfirst hother) keyGap_pos)
  · rintro hdir ⟨row, hmem, hitem⟩ hfits
    obtain ⟨i, hrow⟩ := List.getElem?_of_mem hmem
    obtain ⟨key, hkey, hset⟩ := move_eq hids hrow hitem
    rw [hdir] at hkey
    obtain ⟨last, hlast, rfl⟩ := newKey_bottom hkey
    rw [hset, if_pos (hfits last hlast)]
    exact atBottom_setSortOrder hids (mem_sortByKey.mp hmem) hitem fun other hother =>
      lt_add_of_le_of_pos (key_le_last hlast hother) keyGap_pos

theorem DistinctIds.move (hids : DistinctIds db) (today : Date) (now : Moment)
    (req : Item × Direction) : DistinctIds (EpsCloud.move today now db req) := by
  obtain ⟨f, -, hmove⟩ := move_eq_rekey hids today now req
  rw [hmove]
  exact hids.rekey f

/-! ## Runs -/

/-- **What a run leaves** is the database with the keys of the items it names changed. -/
theorem foldl_move_eq_rekey (hids : DistinctIds db) (today : Date) (now : Moment)
    (reqs : List (Item × Direction)) :
    ∃ f, OnlyAt (reqs.map Prod.fst) f ∧ reqs.foldl (move today now) db = db.rekey f := by
  induction reqs generalizing db with
  | nil => exact ⟨fun _ old => old, fun _ _ _ => rfl, (rekey_id db).symm⟩
  | cons req reqs ih =>
    obtain ⟨f, hf, hmove⟩ := move_eq_rekey hids today now req
    obtain ⟨g, hg, hrun⟩ := ih (hids.rekey f)
    refine ⟨fun item old => g item (f item old), fun item hitem old => ?_, ?_⟩
    · rw [List.map_cons, List.mem_cons, not_or] at hitem
      show g item (f item old) = old
      rw [hf item (fun h => hitem.1 (List.mem_singleton.mp h)), hg item hitem.2]
    · rw [List.foldl_cons, hmove, hrun, rekey_rekey]

/-- **Runs of moves compose.**  Whatever the keys are and whatever order the requests come in:
every request is sound, the run keeps the rows, the order of those it did not move and the events,
and a reset after it gives back the default order. -/
theorem moves_compose (hids : DistinctIds db) (today : Date) (now : Moment)
    (reqs : List (Item × Direction)) : MovesCompose today now db reqs := by
  obtain ⟨f, hf, hrun⟩ := foldl_move_eq_rekey hids today now reqs
  have heach : ∀ x ∈ trace (move today now) db reqs, MoveSound today now x.1 x.2 :=
    forall_trace (I := DistinctIds) (fun _ req hids => moveSound hids today now req)
      (fun _ req hids => hids.move today now req) hids
  refine ⟨heach, ?_, ?_, ?_, ?_, fun hnone => ?_⟩
  · rw [hrun]
    exact perm_dayOrder_rekey db f today now
  · rw [hrun]
    exact filter_dayOrder_rekey hf db today now
  · rw [hrun]
    rfl
  · rw [hrun, resetOrder_rekey, dayList_resetOrder]
  · rw [hrun, resetOrder_rekey, dayList_resetOrder_of_unkeyed hnone]

end

theorem moves_compose_threeErrands :
    MovesCompose 739622 0 threeErrands [(.task 1, .bottom), (.task 3, .top), (.task 2, .down)] :=
  moves_compose distinctIds_threeErrands 739622 0 _

/-- Two errands with the first and the last id that the column of ids takes. -/
def firstAndLastErrand : Database := { tasks := [errand 1, errand 2147483647] }

/-- "Move to the bottom" of the first would need a key above the range of the column: the request
fails, and the errand does not follow the other. -/
theorem bottom_refused_firstAndLastErrand :
    DistinctIds firstAndLastErrand ∧
      (dayList firstAndLastErrand 739622 0)[0]? = some (errandRow 1) ∧
      moveItem (Item.text (.task 1)) (Direction.text .bottom) 739622 0 firstAndLastErrand =
        .error .raised ∧
      ¬ AtBottom (dayList (move 739622 0 firstAndLastErrand (.task 1, .bottom)) 739622 0)
        (.task 1) := by
  have hids : DistinctIds firstAndLastErrand := ⟨by decide, by decide, by decide⟩
  have hlist : dayList firstAndLastErrand 739622 0 = [errandRow 1, errandRow 2147483647] := by
    decide
  have hrow : (dayList firstAndLastErrand 739622 0)[0]? = some (errandRow 1) := by
    rw [hlist]
    rfl
  have hitem : (errandRow 1).item? = some (.task 1) := rfl
  have hkey : newKey ((dayList firstAndLastErrand 739622 0).map effectiveKey) 0 .bottom =
      some 2147523747 := by
    rw [hlist]
    rfl
  have hrefused : moveItem (Item.text (.task 1)) (Direction.text .bottom) 739622 0
      firstAndLastErrand = .error .raised :=
    (moveItem_eq hids hrow hitem hkey).trans (if_neg (by decide))
  refine ⟨hids, hrow, hrefused, ?_⟩
  rw [move, afterMove, hrefused, afterRequest, hlist]
  rintro ⟨row, rest, hsplit, hlast, -⟩
  have hrow_last := congrArg List.getLast? hsplit
  rw [List.getLast?_concat] at hrow_last
  rw [← Option.some.inj hrow_last] at hlast
  exact absurd hlast (by decide)

end EpsCloud

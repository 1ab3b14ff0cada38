import EpsCloud.Routes.Ordering

/-!
# Moving a row by one place

The buttons of "Plan the day" promise "Move up one" and "Move down one".
`move_item` keeps the promise by the midpoint of two neighbouring keys, and the
keys are integers: between two keys that differ by one there is no integer, and
the midpoint is the lower of them.  The row then stands beside a row with the
same key, on the side that the order of the query puts it on.

* `moves_by_one_iff`: both moves go to the next place exactly when there is room
  between the two keys, or the tie falls the right way.
-/

namespace EpsCloud

open KeySort

/-- The row at `i` goes to the place `n`, and the others keep their order. -/
def MovesTo (db : Database) (today : Date) (now : Moment) (item : Item) (direction : Direction)
    (i n : ℕ) : Prop :=
  dayOrder (afterMove item direction today now db) today now = moveTo (dayOrder db today now) i n

/-- A row fits between the keys of two neighbours: their midpoint is in the range of the column,
and either there is an integer strictly between them, or the order of the query breaks the tie. -/
def RoomBetween (base : List Row) (row low high : Row) : Prop :=
  (-2 ^ 32 ≤ effectiveKey low + effectiveKey high ∧
    effectiveKey low + effectiveKey high < 2 ^ 32) ∧
  (effectiveKey low + 2 ≤ effectiveKey high ∨
    (effectiveKey high = effectiveKey low + 1 ∧ base.idxOf low < base.idxOf row) ∨
    (effectiveKey high = effectiveKey low ∧ base.idxOf low < base.idxOf row ∧
      base.idxOf row < base.idxOf high))

/-- There is room for the row at `i` one place up. -/
def CanMoveUp (db : Database) (today : Date) (now : Moment) (i : ℕ) (row : Row) : Prop :=
  i = 0 ∨
  (i = 1 ∧ ∀ first, (dayList db today now)[0]? = some first →
    -2 ^ 31 + keyGap ≤ effectiveKey first ∧ effectiveKey first < 2 ^ 31 + keyGap) ∨
  (2 ≤ i ∧ ∀ low high, (dayList db today now)[i - 2]? = some low →
    (dayList db today now)[i - 1]? = some high → RoomBetween (baseRows db today now) row low high)

/-- There is room for the row at `i` one place down. -/
def CanMoveDown (db : Database) (today : Date) (now : Moment) (i : ℕ) (row : Row) : Prop :=
  i + 1 = (dayList db today now).length ∨
  (i + 2 = (dayList db today now).length ∧
    ∀ last, (dayList db today now)[i + 1]? = some last →
      -2 ^ 31 - keyGap ≤ effectiveKey last ∧ effectiveKey last < 2 ^ 31 - keyGap) ∨
  (i + 2 < (dayList db today now).length ∧
    ∀ low high, (dayList db today now)[i + 1]? = some low →
      (dayList db today now)[i + 2]? = some high →
      RoomBetween (baseRows db today now) row low high)

/-! ## The list after a key was set -/

section

variable {db : Database} {today : Date} {now : Moment} {i : ℕ} {row : Row} {item : Item}

/-- **Where a row goes when its key is set**: beside the rows whose keys are next to its own. -/
theorem dayOrder_setSortOrder_eq_moveTo_iff (hids : DistinctIds db)
    (hrow : (dayList db today now)[i]? = some row) (hitem : row.item? = some item) {n : ℕ}
    (hn : n < (dayList db today now).length) (key : ℤ) :
    dayOrder (db.setSortOrder item (some key)) today now = moveTo (dayOrder db today now) i n ↔
      (∀ low, 0 < n → ((dayList db today now).eraseIdx i)[n - 1]? = some low →
        effectiveKey low < key ∨ (effectiveKey low = key ∧
          (baseRows db today now).idxOf low < (baseRows db today now).idxOf row)) ∧
      ∀ high, ((dayList db today now).eraseIdx i)[n]? = some high →
        key < effectiveKey high ∨ (key = effectiveKey high ∧
          (baseRows db today now).idxOf row < (baseRows db today now).idxOf high) := by
  have hbase : (baseRows db today now).Nodup := (nodup_ident hids today now).of_map
  have hmem : row ∈ baseRows db today now :=
    mem_sortByKey.mp (List.mem_of_getElem? hrow)
  have hself := effectiveKey_assign_self hitem key
  have hothers : ∀ other ∈ baseRows db today now, other ≠ row →
      effectiveKey (other.rekey (assign item (some key))) = effectiveKey other :=
    fun other hother hne => effectiveKey_assign_of_ne hids hmem hitem hother hne _
  have hlist : ∀ l : List Row, l.Perm (baseRows db today now) → ∀ l' : List Row,
      l'.Perm (baseRows db today now) →
      (l.map Row.unkeyed = l'.map Row.unkeyed ↔ l = l') := fun l hl l' hl' =>
    ⟨eq_of_map_eq fun a ha b hb => unkeyed_inj hids (hl.mem_iff.mp ha) (hl'.mem_iff.mp hb),
      congrArg _⟩
  -- the neighbours are other rows of the list, and keep their keys
  have hnext : ∀ {j : ℕ} {other}, ((dayList db today now).eraseIdx i)[j]? = some other →
      effectiveKey (other.rekey (assign item (some key))) = effectiveKey other := by
    intro j other hother
    have herased := List.mem_of_getElem? hother
    refine hothers other (mem_sortByKey.mp (List.mem_of_mem_eraseIdx herased)) fun heq => ?_
    exact notMem_eraseIdx (nodup_sortByKey hbase) hrow (heq ▸ herased)
  rw [setSortOrder_eq_rekey, dayOrder_rekey, dayOrder, ← map_moveTo,
    hlist _ (sortByKey_perm _ _) _ ((moveTo_perm hn i).trans (sortByKey_perm _ _)), dayList_eq,
    sortByKey_eq_moveTo_iff hbase hrow hothers (by rwa [← length_sortByKey effectiveKey])]
  refine and_congr ?_ ?_
  · refine forall_congr' fun low => imp_congr_right fun _ => imp_congr_right fun hlow => ?_
    rw [Before, hself, hnext hlow]
  · refine forall_congr' fun high => imp_congr_right fun hhigh => ?_
    rw [Before, hself, hnext hhigh]

/-- The list after a request that computes the key `key`. -/
theorem movesTo_iff (hids : DistinctIds db) (hrow : (dayList db today now)[i]? = some row)
    (hitem : row.item? = some item) {direction : Direction} {key : ℤ}
    (hkey : newKey ((dayList db today now).map effectiveKey) i direction = some key) {n : ℕ}
    (hn : n < (dayList db today now).length) (hne : n ≠ i) :
    MovesTo db today now item direction i n ↔
      FitsInteger key ∧
      (∀ low, 0 < n → ((dayList db today now).eraseIdx i)[n - 1]? = some low →
        effectiveKey low < key ∨ (effectiveKey low = key ∧
          (baseRows db today now).idxOf low < (baseRows db today now).idxOf row)) ∧
      ∀ high, ((dayList db today now).eraseIdx i)[n]? = some high →
        key < effectiveKey high ∨ (key = effectiveKey high ∧
          (baseRows db today now).idxOf row < (baseRows db today now).idxOf high) := by
  rw [MovesTo, afterMove, moveItem_eq hids hrow hitem hkey]
  by_cases hfits : FitsInteger key
  · rw [if_pos hfits, and_iff_right hfits]
    exact dayOrder_setSortOrder_eq_moveTo_iff hids hrow hitem hn key
  · rw [if_neg hfits]
    refine iff_of_false (fun h => ?_) fun h => hfits h.1
    have hlen : (dayOrder db today now).length = (dayList db today now).length := List.length_map _
    obtain ⟨hi, -⟩ := List.getElem?_eq_some_iff.mp hrow
    exact moveTo_ne_self (nodup_dayOrder hids today now) (hlen ▸ hi) (hlen ▸ hn) hne h.symm

/-- A request that gives a row the key it has leaves it where it is. -/
theorem movesTo_self (hids : DistinctIds db) (hrow : (dayList db today now)[i]? = some row)
    (hitem : row.item? = some item) {direction : Direction}
    (hkey : newKey ((dayList db today now).map effectiveKey) i direction =
      some (effectiveKey row)) : MovesTo db today now item direction i i := by
  rw [MovesTo, moveTo_self, afterMove, moveItem_eq hids hrow hitem hkey]
  split_ifs
  · rw [afterRequest, setSortOrder_eq_rekey, dayOrder_rekey, dayOrder, dayList_eq]
    refine congrArg _ (sortByKey_congr fun other hother => ?_)
    by_cases hother_eq : other = row
    · rw [hother_eq, effectiveKey_assign_self hitem]
    · exact effectiveKey_assign_of_ne hids (mem_sortByKey.mp (List.mem_of_getElem? hrow)) hitem
        hother hother_eq _
  · rfl

/-! ## The two neighbours -/

/-- **When the midpoint lies between its two keys**, ties being broken by the order of the
query. -/
theorem midpoint_iff {base : List Row} {low high : Row}
    (hle : effectiveKey low ≤ effectiveKey high) :
    (FitsInteger ((effectiveKey low + effectiveKey high) / 2) ∧
      (effectiveKey low < (effectiveKey low + effectiveKey high) / 2 ∨
        (effectiveKey low = (effectiveKey low + effectiveKey high) / 2 ∧
          base.idxOf low < base.idxOf row)) ∧
      ((effectiveKey low + effectiveKey high) / 2 < effectiveKey high ∨
        ((effectiveKey low + effectiveKey high) / 2 = effectiveKey high ∧
          base.idxOf row < base.idxOf high))) ↔ RoomBetween base row low high := by
  unfold FitsInteger RoomBetween
  omega

/-- A request that computes the midpoint of two neighbours puts the row between them exactly when
there is room. -/
theorem movesTo_between_iff (hids : DistinctIds db) (hrow : (dayList db today now)[i]? = some row)
    (hitem : row.item? = some item) {direction : Direction} {n : ℕ}
    (hn : n + 1 < (dayList db today now).length) (hne : n + 1 ≠ i) {low high : Row}
    (hlow : ((dayList db today now).eraseIdx i)[n]? = some low)
    (hhigh : ((dayList db today now).eraseIdx i)[n + 1]? = some high)
    (hkey : newKey ((dayList db today now).map effectiveKey) i direction =
      some ((effectiveKey low + effectiveKey high) / 2)) :
    MovesTo db today now item direction i (n + 1) ↔
      RoomBetween (baseRows db today now) row low high := by
  have hle : effectiveKey low ≤ effectiveKey high := by
    obtain ⟨hj, rfl⟩ := List.getElem?_eq_some_iff.mp hlow
    obtain ⟨hj', rfl⟩ := List.getElem?_eq_some_iff.mp hhigh
    have hsorted := (pairwise_sortByKey effectiveKey (baseRows db today now)).sublist
      (List.eraseIdx_sublist _ i)
    exact List.pairwise_iff_getElem.mp hsorted n (n + 1) hj hj' (Nat.lt_succ_self n)
  rw [movesTo_iff hids hrow hitem hkey hn hne, ← midpoint_iff hle]
  refine and_congr_right fun _ => and_congr ⟨fun h => h low (Nat.succ_pos n) hlow, ?_⟩
    ⟨fun h => h high hhigh, ?_⟩
  · intro h other _ hother
    rwa [← Option.some.inj (hlow.symm.trans hother)]
  · intro h other hother
    rwa [← Option.some.inj (hhigh.symm.trans hother)]

theorem moves_up_iff (hids : DistinctIds db) (hrow : (dayList db today now)[i]? = some row)
    (hitem : row.item? = some item) :
    MovesTo db today now item .up i (i - 1) ↔ CanMoveUp db today now i row := by
  obtain ⟨hi, -⟩ := List.getElem?_eq_some_iff.mp hrow
  match i with
  | 0 =>
    refine iff_of_true (movesTo_self hids hrow hitem ?_) (Or.inl rfl)
    rw [newKey, List.head?_eq_getElem?, List.getElem?_map, hrow, Option.map_some]
  | 1 =>
    have hfirst : (dayList db today now)[0]? = some (dayList db today now)[0] :=
      List.getElem?_eq_getElem _
    have hkey : newKey ((dayList db today now).map effectiveKey) 1 .up =
        some (effectiveKey (dayList db today now)[0] - keyGap) := by
      rw [newKey, List.head?_eq_getElem?, List.getElem?_map, hfirst]
      rfl
    have hat : ((dayList db today now).eraseIdx 1)[0]? = some (dayList db today now)[0] := by
      rw [List.getElem?_eraseIdx_of_lt (by omega), hfirst]
    refine (movesTo_iff hids hrow hitem hkey (n := 0) (by omega) (by omega)).trans ⟨?_, ?_⟩
    · rintro ⟨hfits, -, -⟩
      refine Or.inr (Or.inl ⟨rfl, fun first h => ?_⟩)
      rw [← Option.some.inj (hfirst.symm.trans h)]
      unfold FitsInteger at hfits
      omega
    · rintro (h | ⟨-, h⟩ | ⟨h, -⟩)
      · omega
      · have hrange := h _ hfirst
        refine ⟨by unfold FitsInteger; omega, fun _ h => absurd h (lt_irrefl 0), ?_⟩
        intro high hhigh
        rw [← Option.some.inj (hat.symm.trans hhigh)]
        exact Or.inl (sub_lt_self _ keyGap_pos)
      · omega
  | before + 2 =>
    have hlow : (dayList db today now)[before]? = some (dayList db today now)[before] :=
      List.getElem?_eq_getElem _
    have hhigh : (dayList db today now)[before + 1]? = some (dayList db today now)[before + 1] :=
      List.getElem?_eq_getElem _
    have hkey : newKey ((dayList db today now).map effectiveKey) (before + 2) .up =
        some ((effectiveKey (dayList db today now)[before] +
          effectiveKey (dayList db today now)[before + 1]) / 2) := by
      rw [newKey, List.getElem?_map, List.getElem?_map, hlow, hhigh]
      rfl
    refine (movesTo_between_iff hids hrow hitem (n := before) (by omega) (by omega) ?_ ?_
      hkey).trans ?_
    · rw [List.getElem?_eraseIdx_of_lt (by omega), hlow]
    · rw [List.getElem?_eraseIdx_of_lt (by omega), hhigh]
    · constructor
      · intro h
        refine Or.inr (Or.inr ⟨by omega, fun low high hl hh => ?_⟩)
        rwa [← Option.some.inj (hlow.symm.trans hl), ← Option.some.inj (hhigh.symm.trans hh)]
      · rintro (h | ⟨h, -⟩ | ⟨-, h⟩)
        · omega
        · omega
        · exact h _ _ hlow hhigh

theorem moves_down_iff (hids : DistinctIds db) (hrow : (dayList db today now)[i]? = some row)
    (hitem : row.item? = some item) :
    MovesTo db today now item .down i (min (i + 1) ((dayList db today now).length - 1)) ↔
      CanMoveDown db today now i row := by
  obtain ⟨hi, hget⟩ := List.getElem?_eq_some_iff.mp hrow
  have hlen : ((dayList db today now).map effectiveKey).length = (dayList db today now).length :=
    List.length_map _
  rcases lt_trichotomy (i + 2) (dayList db today now).length with hmid | hlast | hend
  · have hlow : (dayList db today now)[i + 1]? = some (dayList db today now)[i + 1] :=
      List.getElem?_eq_getElem _
    have hhigh : (dayList db today now)[i + 2]? = some (dayList db today now)[i + 2] :=
      List.getElem?_eq_getElem _
    have hkey : newKey ((dayList db today now).map effectiveKey) i .down =
        some ((effectiveKey (dayList db today now)[i + 1] +
          effectiveKey (dayList db today now)[i + 2]) / 2) := by
      rw [newKey, if_neg (by omega), if_neg (by omega), List.getElem?_map, List.getElem?_map,
        hlow, hhigh]
      rfl
    rw [min_eq_left (by omega)]
    refine (movesTo_between_iff hids hrow hitem (n := i) (by omega) (by omega) ?_ ?_ hkey).trans ?_
    · rw [List.getElem?_eraseIdx_of_ge (le_refl i), hlow]
    · rw [List.getElem?_eraseIdx_of_ge (by omega), hhigh]
    · constructor
      · intro h
        refine Or.inr (Or.inr ⟨hmid, fun low high hl hh => ?_⟩)
        rwa [← Option.some.inj (hlow.symm.trans hl), ← Option.some.inj (hhigh.symm.trans hh)]
      · rintro (h | ⟨h, -⟩ | ⟨-, h⟩)
        · omega
        · omega
        · exact h _ _ hlow hhigh
  · have hlast_get : (dayList db today now)[i + 1]? = some (dayList db today now)[i + 1] :=
      List.getElem?_eq_getElem _
    have hkey : newKey ((dayList db today now).map effectiveKey) i .down =
        some (effectiveKey (dayList db today now)[i + 1] + keyGap) := by
      rw [newKey, if_neg (by omega), if_pos (by omega), List.getLast?_eq_getElem?, hlen,
        List.getElem?_map, show (dayList db today now).length - 1 = i + 1 by omega, hlast_get]
      rfl
    have hat : ((dayList db today now).eraseIdx i)[i]? = some (dayList db today now)[i + 1] := by
      rw [List.getElem?_eraseIdx_of_ge (le_refl i), hlast_get]
    have hnone : ((dayList db today now).eraseIdx i)[i + 1]? = none := by
      rw [List.getElem?_eraseIdx_of_ge (by omega)]
      exact List.getElem?_eq_none (by omega)
    rw [min_eq_left (by omega)]
    refine (movesTo_iff hids hrow hitem hkey (n := i + 1) (by omega) (by omega)).trans ⟨?_, ?_⟩
    · rintro ⟨hfits, -, -⟩
      refine Or.inr (Or.inl ⟨hlast, fun last h => ?_⟩)
      rw [← Option.some.inj (hlast_get.symm.trans h)]
      unfold FitsInteger at hfits
      omega
    · rintro (h | ⟨-, h⟩ | ⟨h, -⟩)
      · omega
      · have hrange := h _ hlast_get
        refine ⟨by unfold FitsInteger; omega, fun low _ hlow => ?_, fun high hhigh => ?_⟩
        · rw [← Option.some.inj (hat.symm.trans hlow)]
          exact Or.inl (lt_add_of_pos_right _ keyGap_pos)
        · exact absurd (hnone.symm.trans hhigh) (by simp)
      · omega
  · have hkey : newKey ((dayList db today now).map effectiveKey) i .down =
        some (effectiveKey row) := by
      rw [newKey, if_pos (by omega), List.getLast?_eq_getElem?, hlen, List.getElem?_map,
        show (dayList db today now).length - 1 = i by omega, hrow, Option.map_some]
    rw [min_eq_right (by omega), show (dayList db today now).length - 1 = i by omega]
    exact iff_of_true (movesTo_self hids hrow hitem hkey) (Or.inl (by omega))

/-- **Move up and Move down go by one place** exactly when there is room between the keys of the
two rows that the row is to stand between.  At the end of the list they change nothing. -/
theorem moves_by_one_iff (hids : DistinctIds db) (hrow : (dayList db today now)[i]? = some row)
    (hitem : row.item? = some item) :
    (MovesTo db today now item .up i (i - 1) ↔ CanMoveUp db today now i row) ∧
    (MovesTo db today now item .down i (min (i + 1) ((dayList db today now).length - 1)) ↔
      CanMoveDown db today now i row) :=
  ⟨moves_up_iff hids hrow hitem, moves_down_iff hids hrow hitem⟩

end

/-- A task without a time, planned for 2026-01-06. -/
def errand (id : ℕ) : Task :=
  { id := id, name := "errand", scheduledFor := some 739622, lastUserInteractionAt := 0,
    createdAt := 0 }

/-- The row of an errand on that day. -/
def errandRow (id : ℕ) : Row := .task (taskCtx (errand id) 739622 0)

/-- Three errands, added one after another. -/
def threeErrands : Database := { tasks := [errand 1, errand 2, errand 3] }

theorem distinctIds_threeErrands : DistinctIds threeErrands :=
  ⟨by decide, by decide, by decide⟩

theorem dayList_threeErrands :
    dayList threeErrands 739622 0 = [errandRow 1, errandRow 2, errandRow 3] := by decide

theorem moves_by_one_iff_secondErrand :
    MovesTo threeErrands 739622 0 (.task 2) .up 1 0 ∧
      MovesTo threeErrands 739622 0 (.task 2) .down 1 2 := by
  have hrow : (dayList threeErrands 739622 0)[1]? = some (errandRow 2) := by
    rw [dayList_threeErrands]
    rfl
  have hitem : (errandRow 2).item? = some (.task 2) := rfl
  have h := moves_by_one_iff distinctIds_threeErrands hrow hitem
  rw [dayList_threeErrands] at h
  refine ⟨h.1.mpr (Or.inr (Or.inl ⟨rfl, fun first hfirst => ?_⟩)),
    h.2.mpr (Or.inr (Or.inl ⟨?_, fun last hlast => ?_⟩))⟩
  · rw [dayList_threeErrands] at hfirst
    rw [← Option.some.inj hfirst]
    decide
  · rw [dayList_threeErrands]
    rfl
  · rw [dayList_threeErrands] at hlast
    rw [← Option.some.inj hlast]
    decide

/-- "Move down one" on the first of the three does nothing: its neighbours to be have the keys
40002 and 40003, and it is given 40002. -/
theorem move_down_fails_firstErrand :
    (dayList threeErrands 739622 0)[0]? = some (errandRow 1) ∧
      dayOrder (afterMove (.task 1) .down 739622 0 threeErrands) 739622 0 =
        dayOrder threeErrands 739622 0 ∧
      ¬ MovesTo threeErrands 739622 0 (.task 1) .down 0 1 := by
  have hrow : (dayList threeErrands 739622 0)[0]? = some (errandRow 1) := by
    rw [dayList_threeErrands]
    rfl
  have hitem : (errandRow 1).item? = some (.task 1) := rfl
  have hkey : newKey ((dayList threeErrands 739622 0).map effectiveKey) 0 .down = some 40002 := by
    decide
  have hmove : moveItem (Item.text (.task 1)) (Direction.text .down) 739622 0 threeErrands =
      .ok (threeErrands.setSortOrder (.task 1) (some 40002)) :=
    moveItem_eq distinctIds_threeErrands hrow hitem hkey
  rw [MovesTo, afterMove, hmove]
  exact ⟨hrow, by decide, by decide⟩

end EpsCloud

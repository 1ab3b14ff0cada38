import Mathlib

/-!
# Stable sorting by a key

`list.sort(key=f)` is a stable sort, so its result is determined by the list and
the keys.  It is Mathlib's insertion sort at the order of the keys.

* `sortByKey_perm`: sorting rearranges.
* `map_sortByKey`: sorting commutes with a map that keeps the keys in order.
* `map_sortByKey_congr`: two lists with the same keys and the same views are the
  same view when sorted.
* `filter_sortByKey`: a part of a sorted list is the sorted part.
* `filter_items_sortByKey`: the same for the items that sorted rows show.
* `sortByKey_eq_cons_of_first`, `sortByKey_eq_append_of_last`: where the element with
  the least or the greatest key stands.
* `Before`, `eq_sortByKey_iff`: in a list without duplicates the sorted list is the
  one that is ordered by the key and, between equal keys, by the place in the list.
* `pairwise_sortByKey_stable`: rows of one key keep their order.
* `pairwise_sortByKey_le_iff`: when a list sorted by one key is sorted by another.
* `moveTo`, `sortByKey_eq_moveTo_iff`: where an element goes when only its key changes.
-/

namespace KeySort

variable {α β κ : Type*} [LinearOrder κ]

/-- Sort a list by a key, keeping the order of rows with equal keys. -/
def sortByKey (key : α → κ) (l : List α) : List α := l.insertionSort fun a b => key a ≤ key b

theorem sortByKey_perm (key : α → κ) (l : List α) : (sortByKey key l).Perm l :=
  List.perm_insertionSort _ l

theorem pairwise_sortByKey (key : α → κ) (l : List α) :
    (sortByKey key l).Pairwise fun a b => key a ≤ key b := by
  have : Std.Total fun a b : α => key a ≤ key b := ⟨fun a b => le_total _ _⟩
  have : IsTrans α fun a b => key a ≤ key b := ⟨fun _ _ _ => le_trans⟩
  exact List.pairwise_insertionSort _ l

@[simp] theorem mem_sortByKey {key : α → κ} {l : List α} {a : α} :
    a ∈ sortByKey key l ↔ a ∈ l :=
  (sortByKey_perm key l).mem_iff

@[simp] theorem length_sortByKey (key : α → κ) (l : List α) :
    (sortByKey key l).length = l.length :=
  (sortByKey_perm key l).length_eq

theorem nodup_sortByKey {key : α → κ} {l : List α} (hl : l.Nodup) : (sortByKey key l).Nodup :=
  (sortByKey_perm key l).nodup_iff.mpr hl

/-- **Sorting sees the keys only.** -/
theorem map_sortByKey (key : α → κ) (key' : β → κ) {f : α → β} {l : List α}
    (h : ∀ a ∈ l, key' (f a) = key a) :
    (sortByKey key l).map f = sortByKey key' (l.map f) := by
  refine List.map_insertionSort _ _ f l fun a ha b hb => ?_
  show key a ≤ key b ↔ key' (f a) ≤ key' (f b)
  rw [h a ha, h b hb]

/-- **What is shown of a sorted list** depends on the keys and on what is shown of the list. -/
theorem map_sortByKey_congr {γ : Type*} {key : α → κ} {shown : α → γ} {l l' : List α}
    (h : l.map (fun a => (key a, shown a)) = l'.map fun a => (key a, shown a)) :
    (sortByKey key l).map shown = (sortByKey key l').map shown := by
  have hsplit : ∀ l : List α, (sortByKey key l).map shown =
      (sortByKey Prod.fst (l.map fun a => (key a, shown a))).map Prod.snd := by
    intro l
    rw [← map_sortByKey key Prod.fst fun a _ => rfl, List.map_map]
    rfl
  rw [hsplit, hsplit, h]

/-- Two keys that agree on the list sort it alike. -/
theorem sortByKey_congr {key key' : α → κ} {l : List α} (h : ∀ a ∈ l, key a = key' a) :
    sortByKey key l = sortByKey key' l := by
  have hmap := map_sortByKey key key' (f := id) fun a ha => (h a ha).symm
  rwa [List.map_id, List.map_id] at hmap

/-- A key that is read through a strictly increasing function sorts alike. -/
theorem sortByKey_strictMono {κ' : Type*} [LinearOrder κ'] {e : κ → κ'} (he : StrictMono e)
    (key : α → κ) (l : List α) : sortByKey (fun a => e (key a)) l = sortByKey key l := by
  have hmap := List.map_insertionSort (fun a b => e (key a) ≤ e (key b))
    (fun a b => key a ≤ key b) id l fun a _ b _ => he.le_iff_le
  rwa [List.map_id, List.map_id] at hmap

/-! ## Parts of a sorted list -/

theorem orderedInsert_of_forall_le {r : α → α → Prop} [DecidableRel r] {a : α} {l : List α}
    (h : ∀ b ∈ l, r a b) : l.orderedInsert r a = a :: l := by
  cases l with
  | nil => rfl
  | cons b l => exact List.orderedInsert_cons_of_le _ l (h b List.mem_cons_self)

theorem filter_orderedInsert {r : α → α → Prop} [DecidableRel r] [IsTrans α r] (p : α → Bool)
    (a : α) {l : List α} (hl : l.Pairwise r) :
    (l.orderedInsert r a).filter p =
      if p a then (l.filter p).orderedInsert r a else l.filter p := by
  induction l with
  | nil => cases h : p a <;> simp [h]
  | cons b l ih =>
    rw [List.pairwise_cons] at hl
    by_cases hab : r a b
    · rw [List.orderedInsert_cons_of_le _ l hab]
      have hall : ∀ c ∈ (b :: l).filter p, r a c := fun c hc =>
        (List.mem_cons.mp (List.mem_filter.mp hc).1).elim (fun heq => heq ▸ hab)
          fun hmem => IsTrans.trans _ _ _ hab (hl.1 c hmem)
      rw [orderedInsert_of_forall_le hall, List.filter_cons]
    · rw [List.orderedInsert_of_not_le _ l hab, List.filter_cons, ih hl.2, List.filter_cons]
      split_ifs with hb ha
      · rw [List.orderedInsert_of_not_le _ _ hab]
      · rfl
      · rfl
      · rfl

theorem sortByKey_cons (key : α → κ) (a : α) (l : List α) :
    sortByKey key (a :: l) = (sortByKey key l).orderedInsert (fun a b => key a ≤ key b) a := rfl

/-- **A part of a sorted list is the sorted part.** -/
theorem filter_sortByKey (key : α → κ) (p : α → Bool) (l : List α) :
    (sortByKey key l).filter p = sortByKey key (l.filter p) := by
  have : IsTrans α fun a b => key a ≤ key b := ⟨fun _ _ _ => le_trans⟩
  induction l with
  | nil => rfl
  | cons a l ih =>
    rw [sortByKey_cons, filter_orderedInsert p a (pairwise_sortByKey key l), ih, List.filter_cons]
    split_ifs
    · rw [sortByKey_cons]
    · rfl

/-- **The items that a sorted list of rows shows**, of those with a property: they are sorted by
the keys of their rows. -/
theorem filter_items_sortByKey {ρ : Type*} {key : ρ → κ} {item? : ρ → Option α} {p : α → Bool}
    {base : List ρ} {l : List α} (row : α → ρ)
    (hbase : base.filter (fun r => (item? r).any p) = (l.filter p).map row)
    (hitem : ∀ a, item? (row a) = some a) :
    ((sortByKey key base).filterMap item?).filter p =
      sortByKey (fun a => key (row a)) (l.filter p) := by
  have hsplit : ∀ rows : List ρ, (rows.filterMap item?).filter p =
      (rows.filter fun r => (item? r).any p).filterMap item? := by
    intro rows
    rw [List.filter_filterMap, List.filterMap_filter]
    refine List.filterMap_congr fun r _ => ?_
    cases hr : item? r with
    | none => simp
    | some a => cases hp : p a <;> simp [hp]
  rw [hsplit, filter_sortByKey, hbase, ← map_sortByKey _ key fun a _ => rfl, List.filterMap_map]
  refine (List.filterMap_congr fun a _ => hitem a).trans ?_
  exact List.filterMap_some

/-! ## The order of a sorted list -/

/-- Two elements of a list stand in one order or the other. -/
theorem or_of_pairwise {r : α → α → Prop} {l : List α} (h : l.Pairwise r) {a b : α} (ha : a ∈ l)
    (hb : b ∈ l) (hne : a ≠ b) : r a b ∨ r b a := by
  have : Std.Symm fun a b => r a b ∨ r b a := ⟨fun _ _ => Or.symm⟩
  exact (h.imp Or.inl : l.Pairwise fun a b => r a b ∨ r b a).forall ha hb hne

/-- **Sorting is stable.** -/
theorem pairwise_sortByKey_stable (key : α → κ) {r : α → α → Prop} {l : List α}
    (h : l.Pairwise r) :
    (sortByKey key l).Pairwise fun a b => key a < key b ∨ (key a = key b ∧ r a b) := by
  refine List.pairwise_iff_forall_sublist.mpr fun {a b} hab => ?_
  have hle : key a ≤ key b := List.pairwise_iff_forall_sublist.mp (pairwise_sortByKey key l) hab
  refine hle.lt_or_eq.imp_right fun heq => ⟨heq, ?_⟩
  -- the rows of this key are left as they were
  have hsame : (l.filter fun c => key c = key b).Pairwise fun c c' => key c ≤ key c' :=
    List.pairwise_of_forall_mem_list fun c hc c' hc' => by
      have hkey := of_decide_eq_true (List.mem_filter.mp hc).2
      have hkey' := of_decide_eq_true (List.mem_filter.mp hc').2
      rw [hkey, hkey']
  have hfilter := hab.filter fun c => key c = key b
  rw [filter_sortByKey, sortByKey, hsame.insertionSort_eq,
    List.filter_eq_self.mpr (by simp [heq])] at hfilter
  exact List.pairwise_iff_forall_sublist.mp h (hfilter.trans List.filter_sublist)

theorem key_head_le {key : α → κ} {l : List α} {first : α}
    (h : (sortByKey key l).head? = some first) {a : α} (ha : a ∈ l) : key first ≤ key a := by
  obtain ⟨rest, hsplit⟩ := List.head?_eq_some_iff.mp h
  have hsorted := hsplit ▸ pairwise_sortByKey key l
  have hmem : a ∈ first :: rest := hsplit ▸ mem_sortByKey.mpr ha
  rcases List.mem_cons.mp hmem with rfl | hrest
  · exact le_rfl
  · exact (List.pairwise_cons.mp hsorted).1 a hrest

theorem key_le_last {key : α → κ} {l : List α} {last : α}
    (h : (sortByKey key l).getLast? = some last) {a : α} (ha : a ∈ l) : key a ≤ key last := by
  obtain ⟨rest, hsplit⟩ := List.getLast?_eq_some_iff.mp h
  have hsorted := hsplit ▸ pairwise_sortByKey key l
  have hmem : a ∈ rest ++ [last] := hsplit ▸ mem_sortByKey.mpr ha
  rcases List.mem_append.mp hmem with hrest | hlast
  · exact (List.pairwise_append.mp hsorted).2.2 a hrest last List.mem_cons_self
  · rw [List.mem_singleton.mp hlast]

/-- What stands before and after an element of a sorted list. -/
theorem sortByKey_split (key : α → κ) {l : List α} (hl : l.Nodup) {x : α} (hx : x ∈ l) :
    ∃ before after, sortByKey key l = before ++ x :: after ∧
      (∀ a ∈ before, a ∈ l ∧ a ≠ x ∧ key a ≤ key x) ∧
      ∀ a ∈ after, a ∈ l ∧ a ≠ x ∧ key x ≤ key a := by
  obtain ⟨before, after, hsplit⟩ := List.append_of_mem (mem_sortByKey.mpr hx : x ∈ sortByKey key l)
  have hnodup : (before ++ x :: after).Nodup := hsplit ▸ nodup_sortByKey hl
  have hsorted := hsplit ▸ pairwise_sortByKey key l
  have hmem : ∀ a ∈ before ++ x :: after, a ∈ l := fun a ha => mem_sortByKey.mp (hsplit ▸ ha)
  rw [List.nodup_append, List.nodup_cons] at hnodup
  rw [List.pairwise_append, List.pairwise_cons] at hsorted
  refine ⟨before, after, hsplit, fun a ha => ⟨hmem a (List.mem_append_left _ ha), ?_, ?_⟩,
    fun a ha => ⟨hmem a (by simp [ha]), ?_, hsorted.2.1.1 a ha⟩⟩
  · exact hnodup.2.2 a ha x List.mem_cons_self
  · exact hsorted.2.2 a ha x List.mem_cons_self
  · rintro rfl
    exact hnodup.2.1.1 ha

/-- An element whose key is below all others comes first. -/
theorem sortByKey_eq_cons_of_first (key : α → κ) {l : List α} (hl : l.Nodup) {x : α} (hx : x ∈ l)
    (hfirst : ∀ a ∈ l, a ≠ x → key x < key a) :
    ∃ rest, sortByKey key l = x :: rest ∧ ∀ a ∈ rest, key x < key a := by
  obtain ⟨before, after, hsplit, hbefore, hafter⟩ := sortByKey_split key hl hx
  obtain rfl : before = [] := List.eq_nil_iff_forall_not_mem.mpr fun a ha =>
    (hbefore a ha).2.2.not_gt (hfirst a (hbefore a ha).1 (hbefore a ha).2.1)
  exact ⟨after, hsplit, fun a ha => hfirst a (hafter a ha).1 (hafter a ha).2.1⟩

/-- An element whose key is above all others comes last. -/
theorem sortByKey_eq_append_of_last (key : α → κ) {l : List α} (hl : l.Nodup) {x : α} (hx : x ∈ l)
    (hlast : ∀ a ∈ l, a ≠ x → key a < key x) :
    ∃ rest, sortByKey key l = rest ++ [x] ∧ ∀ a ∈ rest, key a < key x := by
  obtain ⟨before, after, hsplit, hbefore, hafter⟩ := sortByKey_split key hl hx
  obtain rfl : after = [] := List.eq_nil_iff_forall_not_mem.mpr fun a ha =>
    (hafter a ha).2.2.not_gt (hlast a (hafter a ha).1 (hafter a ha).2.1)
  exact ⟨before, hsplit, fun a ha => hlast a (hbefore a ha).1 (hbefore a ha).2.1⟩

section Before

variable [DecidableEq α] {key : α → κ} {l : List α}

/-- One element sorts before another: its key is smaller, or the keys are equal and it comes first
in the list. -/
def Before (key : α → κ) (l : List α) (a b : α) : Prop :=
  key a < key b ∨ (key a = key b ∧ l.idxOf a < l.idxOf b)

instance (a b : α) : Decidable (Before key l a b) := inferInstanceAs (Decidable (_ ∨ _))

theorem Before.asymm {a b : α} (h : Before key l a b) : ¬ Before key l b a := by
  rintro (hba | ⟨heq, hba⟩)
  · rcases h with hab | ⟨heq, -⟩
    · exact hab.asymm hba
    · exact hba.ne heq.symm
  · rcases h with hab | ⟨-, hab⟩
    · exact hab.ne heq.symm
    · exact hab.asymm hba

theorem Before.trans {a b c : α} (hab : Before key l a b) (hbc : Before key l b c) :
    Before key l a c := by
  rcases hab with hab | ⟨hab, hab'⟩
  · rcases hbc with hbc | ⟨hbc, -⟩
    · exact Or.inl (hab.trans hbc)
    · exact Or.inl (hab.trans_eq hbc)
  · rcases hbc with hbc | ⟨hbc, hbc'⟩
    · exact Or.inl (hab.trans_lt hbc)
    · exact Or.inr ⟨hab.trans hbc, hab'.trans hbc'⟩

theorem pairwise_idxOf (hl : l.Nodup) : l.Pairwise fun a b => l.idxOf a < l.idxOf b := by
  rw [List.pairwise_iff_getElem]
  intro i j hi hj hij
  rw [hl.idxOf_getElem i hi, hl.idxOf_getElem j hj]
  exact hij

/-- Before whatever comes later, as a relation on the sorted list. -/
theorem pairwise_before (hl : l.Nodup) : (sortByKey key l).Pairwise (Before key l) :=
  pairwise_sortByKey_stable key (pairwise_idxOf hl)

/-- **What the sorted list is**, for a list without duplicates. -/
theorem eq_sortByKey_iff (hl : l.Nodup) {s : List α} :
    s = sortByKey key l ↔ s.Perm l ∧ s.Pairwise (Before key l) := by
  constructor
  · rintro rfl
    exact ⟨sortByKey_perm key l, pairwise_before hl⟩
  · rintro ⟨hperm, hs⟩
    exact List.Perm.eq_of_pairwise (fun a b _ _ hab hba => absurd hba hab.asymm) hs
      (pairwise_before hl) (hperm.trans (sortByKey_perm key l).symm)

theorem before_or_before {a b : α} (ha : a ∈ l) (hne : a ≠ b) :
    Before key l a b ∨ Before key l b a := by
  rcases lt_trichotomy (key a) (key b) with hlt | heq | hgt
  · exact Or.inl (Or.inl hlt)
  · have hplace : l.idxOf a ≠ l.idxOf b := fun h => hne ((List.idxOf_inj ha).mp h)
    exact (Nat.lt_or_gt_of_ne hplace).imp (fun h => Or.inr ⟨heq, h⟩) fun h => Or.inr ⟨heq.symm, h⟩
  · exact Or.inr (Or.inl hgt)

/-- **When a list sorted by one key is also sorted by another**: exactly when elements that differ
in the other key come in its order. -/
theorem pairwise_sortByKey_le_iff {γ : Type*} [LinearOrder γ] {other : α → γ} (hl : l.Nodup) :
    (sortByKey key l).Pairwise (fun a b => other a ≤ other b) ↔
      ∀ a ∈ l, ∀ b ∈ l, other a < other b → Before key l a b := by
  constructor
  · intro h a ha b hb hlt
    refine (before_or_before ha (fun heq => hlt.ne (congrArg other heq))).resolve_right ?_
    intro hba
    -- the two stand in one of the two orders, and both keys say in which
    have heither : (sortByKey key l).Pairwise fun x y =>
        (Before key l x y ∧ other x ≤ other y) ∨ (Before key l y x ∧ other y ≤ other x) :=
      ((pairwise_before hl).and h).imp Or.inl
    have : Std.Symm fun x y =>
        (Before key l x y ∧ other x ≤ other y) ∨ (Before key l y x ∧ other y ≤ other x) :=
      ⟨fun _ _ => Or.symm⟩
    rcases heither.forall (mem_sortByKey.mpr ha) (mem_sortByKey.mpr hb)
      (fun heq => hlt.ne (congrArg other heq)) with ⟨hab, -⟩ | ⟨-, hle⟩
    · exact hab.asymm hba
    · exact hle.not_gt hlt
  · intro h
    refine (pairwise_before hl).imp_of_mem fun {a b} ha hb hab => ?_
    refine le_of_not_gt fun hlt => hab.asymm ?_
    exact h b (mem_sortByKey.mp hb) a (mem_sortByKey.mp ha) hlt

end Before

/-! ## Changing one key -/

theorem insertIdx_eq_take_append {l : List α} {n : ℕ} (h : n ≤ l.length) (a : α) :
    l.insertIdx n a = l.take n ++ a :: l.drop n := by
  induction n generalizing l with
  | zero => rfl
  | succ n ih =>
    cases l with
    | nil => exact absurd h (by simp)
    | cons b l =>
      rw [List.insertIdx_succ_cons, ih (Nat.le_of_succ_le_succ h)]
      rfl

/-- Where an element can be inserted into an ordered list: its neighbours decide. -/
theorem pairwise_insertIdx_iff {r : α → α → Prop} (htrans : ∀ {a b c}, r a b → r b c → r a c)
    {s : List α} (hs : s.Pairwise r) {n : ℕ} (hn : n ≤ s.length) (x : α) :
    (s.insertIdx n x).Pairwise r ↔
      (∀ a, 0 < n → s[n - 1]? = some a → r a x) ∧ ∀ a, s[n]? = some a → r x a := by
  have hget := List.pairwise_iff_getElem.mp hs
  rw [insertIdx_eq_take_append hn, List.pairwise_append, List.pairwise_cons]
  constructor
  · rintro ⟨-, ⟨hafter, -⟩, hbefore⟩
    refine ⟨fun a hpos ha => hbefore a ?_ x List.mem_cons_self, fun a ha => hafter a ?_⟩
    · obtain ⟨hlt, rfl⟩ := List.getElem?_eq_some_iff.mp ha
      exact List.mem_take_iff_getElem.mpr ⟨n - 1, by omega, rfl⟩
    · obtain ⟨hlt, rfl⟩ := List.getElem?_eq_some_iff.mp ha
      exact List.mem_drop_iff_getElem.mpr ⟨0, by omega, by simp⟩
  · rintro ⟨hbefore, hafter⟩
    have htake : ∀ a ∈ s.take n, r a x := by
      intro a ha
      obtain ⟨j, hj, rfl⟩ := List.mem_take_iff_getElem.mp ha
      have hlast := hbefore s[n - 1] (by omega) (List.getElem?_eq_getElem _)
      rcases Nat.lt_or_ge j (n - 1) with hlt | hge
      · exact htrans (hget j (n - 1) (by omega) (by omega) hlt) hlast
      · obtain rfl : j = n - 1 := by omega
        exact hlast
    have hdrop : ∀ a ∈ s.drop n, r x a := by
      intro a ha
      obtain ⟨j, hj, rfl⟩ := List.mem_drop_iff_getElem.mp ha
      have hfirst := hafter s[n] (List.getElem?_eq_getElem _)
      rcases Nat.eq_zero_or_pos j with rfl | hpos
      · exact hfirst
      · exact htrans hfirst (hget n (n + j) (by omega) (by omega) (by omega))
    have hcross := List.pairwise_append.mp ((List.take_append_drop n s).symm ▸ hs)
    refine ⟨hcross.1, ⟨hdrop, hcross.2.1⟩, fun a ha b hb => ?_⟩
    rcases List.mem_cons.mp hb with rfl | hb
    · exact htake a ha
    · exact hcross.2.2 a ha b hb

section Move

/-- The list with the element at one place moved to another. -/
def moveTo (l : List α) (i n : ℕ) : List α :=
  match l[i]? with
  | some x => (l.eraseIdx i).insertIdx n x
  | none => l

theorem moveTo_of_getElem? {l : List α} {i : ℕ} {x : α} (h : l[i]? = some x) (n : ℕ) :
    moveTo l i n = (l.eraseIdx i).insertIdx n x := by
  rw [moveTo, h]

theorem map_moveTo (f : α → β) (l : List α) (i n : ℕ) :
    (moveTo l i n).map f = moveTo (l.map f) i n := by
  rw [moveTo, moveTo, List.getElem?_map]
  cases l[i]? with
  | none => rfl
  | some x => exact (List.map_insertIdx f _ n x).trans (by rw [List.eraseIdx_map]; rfl)

@[simp] theorem moveTo_self (l : List α) (i : ℕ) : moveTo l i i = l := by
  rw [moveTo]
  cases hx : l[i]? with
  | none => rfl
  | some x =>
    obtain ⟨hi, rfl⟩ := List.getElem?_eq_some_iff.mp hx
    exact List.insertIdx_eraseIdx_getElem hi

theorem moveTo_perm {l : List α} {n : ℕ} (hn : n < l.length) (i : ℕ) :
    (moveTo l i n).Perm l := by
  cases hx : l[i]? with
  | none => rw [moveTo, hx]
  | some x =>
    obtain ⟨hi, rfl⟩ := List.getElem?_eq_some_iff.mp hx
    rw [moveTo_of_getElem? hx]
    exact (List.perm_insertIdx _ _ (by rw [List.length_eraseIdx_of_lt hi]; omega)).trans
      (List.getElem_cons_eraseIdx_perm hi)

/-- In a list without duplicates the others are others. -/
theorem notMem_eraseIdx {l : List α} (hl : l.Nodup) {i : ℕ} {x : α} (hx : l[i]? = some x) :
    x ∉ l.eraseIdx i := by
  obtain ⟨hi, rfl⟩ := List.getElem?_eq_some_iff.mp hx
  exact (List.nodup_cons.mp ((List.getElem_cons_eraseIdx_perm hi).nodup_iff.mpr hl)).1

/-- A list is known by what a map shows of it, when the map tells its elements apart. -/
theorem eq_of_map_eq {f : α → β} {l l' : List α} (h : ∀ a ∈ l, ∀ b ∈ l', f a = f b → a = b)
    (heq : l.map f = l'.map f) : l = l' := by
  induction l generalizing l' with
  | nil => exact (List.map_eq_nil_iff.mp heq.symm).symm
  | cons a l ih =>
    cases l' with
    | nil => exact absurd heq (by simp)
    | cons b l' =>
      rw [List.map_cons, List.map_cons, List.cons.injEq] at heq
      rw [h a List.mem_cons_self b List.mem_cons_self heq.1, ih (fun a ha b hb =>
        h a (List.mem_cons_of_mem _ ha) b (List.mem_cons_of_mem _ hb)) heq.2]

/-- An element that is moved elsewhere stands there. -/
theorem moveTo_ne_self {l : List α} (hl : l.Nodup) {i n : ℕ} (hi : i < l.length)
    (hn : n < l.length) (hne : n ≠ i) : moveTo l i n ≠ l := by
  intro h
  have hat : (moveTo l i n)[n]? = some l[i] := by
    rw [moveTo_of_getElem? (List.getElem?_eq_getElem hi), List.getElem?_insertIdx_self,
      if_pos (by rw [List.length_eraseIdx_of_lt hi]; omega)]
  rw [h, List.getElem?_eq_getElem hn] at hat
  exact hne (hl.getElem_inj_iff.mp (Option.some.inj hat))

variable [DecidableEq α] {key key' : α → κ} {l : List α} {x : α} {i : ℕ}

/-- **Where an element goes when only its key changes.**  The others keep their order, and the
element stands at a place among them exactly when it sorts after the one before and before the one
after. -/
theorem sortByKey_eq_moveTo_iff (hl : l.Nodup) (hx : (sortByKey key l)[i]? = some x)
    (hkey : ∀ a ∈ l, a ≠ x → key' a = key a) {n : ℕ} (hn : n < l.length) :
    sortByKey key' l = moveTo (sortByKey key l) i n ↔
      (∀ a, 0 < n → ((sortByKey key l).eraseIdx i)[n - 1]? = some a → Before key' l a x) ∧
        ∀ a, ((sortByKey key l).eraseIdx i)[n]? = some a → Before key' l x a := by
  obtain ⟨hi, rfl⟩ := List.getElem?_eq_some_iff.mp hx
  have hnodup : (sortByKey key l).Nodup := nodup_sortByKey hl
  have hlen : ((sortByKey key l).eraseIdx i).length + 1 = l.length := by
    rw [List.length_eraseIdx_of_lt hi, length_sortByKey]
    rw [length_sortByKey] at hi
    omega
  have hnotin : (sortByKey key l)[i] ∉ (sortByKey key l).eraseIdx i :=
    notMem_eraseIdx hnodup hx
  have hsame : ∀ a ∈ (sortByKey key l).eraseIdx i, key' a = key a := fun a ha =>
    hkey a (mem_sortByKey.mp ((List.eraseIdx_sublist _ _).subset ha)) fun heq => hnotin (heq ▸ ha)
  -- the keys of the others are the same, so they are still in order
  have hothers : ((sortByKey key l).eraseIdx i).Pairwise (Before key' l) := by
    refine ((pairwise_before hl).sublist (List.eraseIdx_sublist _ _)).imp_of_mem ?_
    intro a b ha hb hab
    rw [Before, hsame a ha, hsame b hb]
    exact hab
  have hperm : (moveTo (sortByKey key l) i n).Perm l :=
    (moveTo_perm (by rwa [length_sortByKey]) i).trans (sortByKey_perm key l)
  rw [eq_comm, eq_sortByKey_iff hl, and_iff_right hperm, moveTo_of_getElem? hx,
    pairwise_insertIdx_iff Before.trans hothers (by omega)]

end Move

end KeySort

import Mathlib

/-!
# Dictionaries in insertion order

A dictionary lists its entries in the order in which their keys came, no key twice.
Setting a key that is there keeps its place, and setting a new one puts it last.

* `get?_set`, `get?_erase`, `get?_mapWithKey`: reading after a change.
* `keys_set`, `keys_erase`, `keys_mapWithKey`: the keys after a change, in order.
* `ext_get?`: a dictionary is determined by its keys and by what is read at each.
-/

/-- Entries in insertion order, with distinct keys. -/
@[ext]
structure Dict (κ α : Type) where
  entries : List (κ × α)
  nodup : (entries.map Prod.fst).Nodup

namespace Dict

variable {κ α β : Type}

def keys (d : Dict κ α) : List κ := d.entries.map Prod.fst

/-- Change every value. -/
def mapWithKey (f : κ → α → β) (d : Dict κ α) : Dict κ β where
  entries := d.entries.map fun e => (e.1, f e.1 e.2)
  nodup := by
    rw [List.map_map]
    exact d.nodup

/-- The dictionary with the given keys and the value of each. -/
def tabulate (ks : List κ) (h : ks.Nodup) (f : κ → α) : Dict κ α where
  entries := ks.map fun k => (k, f k)
  nodup := by
    rw [List.map_map]
    exact (List.map_id ks).symm ▸ h

def empty : Dict κ α where
  entries := []
  nodup := List.nodup_nil

@[simp] theorem keys_tabulate (ks : List κ) (h : ks.Nodup) (f : κ → α) :
    (tabulate ks h f).keys = ks := by
  rw [keys, tabulate, List.map_map]
  exact List.map_id ks

@[simp] theorem keys_mapWithKey (f : κ → α → β) (d : Dict κ α) :
    (d.mapWithKey f).keys = d.keys := by
  rw [keys, mapWithKey, List.map_map]
  rfl

variable [DecidableEq κ]

instance [DecidableEq α] : DecidableEq (Dict κ α) := fun d d' =>
  decidable_of_iff (d.entries = d'.entries) Dict.ext_iff.symm

/-- The value of a key. -/
def get? (d : Dict κ α) (k : κ) : Option α := d.entries.lookup k

/-- Remove a key. -/
def erase (d : Dict κ α) (k : κ) : Dict κ α where
  entries := d.entries.filter fun e => e.1 ≠ k
  nodup := d.nodup.sublist (List.filter_sublist.map Prod.fst)

/-- Set the value of a key. -/
def set (d : Dict κ α) (k : κ) (v : α) : Dict κ α :=
  if h : k ∈ d.keys then d.mapWithKey fun k' v' => if k' = k then v else v'
  else
    { entries := d.entries ++ [(k, v)]
      nodup := by
        rw [List.map_append, List.map_singleton]
        exact d.nodup.append (List.nodup_singleton k) (List.disjoint_singleton.mpr h) }

/-! ## Keys -/

theorem keys_erase (d : Dict κ α) (k : κ) : (d.erase k).keys = d.keys.filter (· ≠ k) := by
  rw [keys, keys, erase, List.filter_map]
  rfl

theorem keys_set (d : Dict κ α) (k : κ) (v : α) :
    (d.set k v).keys = if k ∈ d.keys then d.keys else d.keys ++ [k] := by
  unfold set
  split_ifs with h
  · rw [keys_mapWithKey]
  · rw [keys, List.map_append]
    rfl

theorem lookup_eq_none_iff_notMem {l : List (κ × α)} {k : κ} :
    l.lookup k = none ↔ k ∉ l.map Prod.fst := by
  rw [List.lookup_eq_none_iff, List.mem_map]
  constructor
  · rintro h ⟨e, he, rfl⟩
    simpa using h e he
  · intro h e he
    simpa using fun heq : k = e.1 => h ⟨e, he, heq.symm⟩

theorem get?_eq_none {d : Dict κ α} {k : κ} : d.get? k = none ↔ k ∉ d.keys :=
  lookup_eq_none_iff_notMem

theorem isSome_get?_iff {d : Dict κ α} {k : κ} : (d.get? k).isSome ↔ k ∈ d.keys := by
  rw [← not_iff_not, ← get?_eq_none, Bool.not_eq_true, Option.isSome_eq_false_iff,
    Option.isNone_iff_eq_none]

theorem mem_entries_of_get? {d : Dict κ α} {k : κ} {v : α} (h : d.get? k = some v) :
    (k, v) ∈ d.entries := by
  obtain ⟨l, l', heq, -⟩ := List.lookup_eq_some_iff.mp h
  rw [heq]
  exact List.mem_append_right l List.mem_cons_self

/-! ## Reading -/

theorem get?_mapWithKey (f : κ → α → β) (d : Dict κ α) (k : κ) :
    (d.mapWithKey f).get? k = (d.get? k).map (f k) := by
  unfold get? mapWithKey
  dsimp only
  induction d.entries with
  | nil => rfl
  | cons e l ih =>
    rw [List.map_cons, List.lookup_cons, List.lookup_cons]
    by_cases h : k = e.1
    · subst h
      simp
    · rw [beq_false_of_ne h]
      exact ih

theorem get?_tabulate (ks : List κ) (h : ks.Nodup) (f : κ → α) (k : κ) :
    (tabulate ks h f).get? k = if k ∈ ks then some (f k) else none := by
  unfold get? tabulate
  dsimp only
  clear h
  induction ks with
  | nil => rfl
  | cons k' ks ih =>
    rw [List.map_cons, List.lookup_cons]
    by_cases hk : k = k'
    · subst hk
      simp
    · rw [beq_false_of_ne hk, ih]
      simp [hk]

theorem get?_erase (d : Dict κ α) (k k' : κ) :
    (d.erase k).get? k' = if k' = k then none else d.get? k' := by
  unfold get? erase
  dsimp only
  induction d.entries with
  | nil => exact (ite_self _).symm
  | cons e l ih =>
    rw [List.filter_cons, List.lookup_cons]
    by_cases hk : e.1 = k
    · rw [if_neg (by simpa using hk), ih]
      by_cases hk' : k' = k
      · rw [if_pos hk', if_pos hk']
      · rw [if_neg hk', if_neg hk', beq_false_of_ne (hk ▸ hk')]
    · rw [if_pos (by simpa using hk), List.lookup_cons]
      by_cases he : k' = e.1
      · rw [he, if_neg hk, beq_self_eq_true]
      · rw [beq_false_of_ne he]
        exact ih

theorem get?_set (d : Dict κ α) (k k' : κ) (v : α) :
    (d.set k v).get? k' = if k' = k then some v else d.get? k' := by
  unfold set
  split_ifs with h hk hk
  · subst hk
    obtain ⟨v', hv'⟩ := Option.isSome_iff_exists.mp (isSome_get?_iff.mpr h)
    rw [get?_mapWithKey, hv', Option.map_some, if_pos rfl]
  · rw [get?_mapWithKey]
    cases d.get? k' with
    | none => rfl
    | some v' => rw [Option.map_some, if_neg hk]
  · subst hk
    have hnone : d.entries.lookup k' = none := get?_eq_none.mpr h
    rw [get?, List.lookup_append, hnone, Option.none_or, List.lookup_cons_self]
  · rw [get?, List.lookup_append, List.lookup_cons, beq_false_of_ne hk]
    exact Option.or_none

/-- **A dictionary is determined by its keys and its values.** -/
theorem ext_get? {d d' : Dict κ α} (hkeys : d.keys = d'.keys) (h : ∀ k, d.get? k = d'.get? k) :
    d = d' := by
  obtain ⟨l, hl⟩ := d
  obtain ⟨l', hl'⟩ := d'
  unfold keys get? at *
  refine Dict.ext ?_
  dsimp only at *
  induction l generalizing l' with
  | nil => exact (List.map_eq_nil_iff.mp hkeys.symm).symm
  | cons e l ih =>
    cases l' with
    | nil => exact absurd hkeys (by simp)
    | cons e' l' =>
      obtain ⟨k, v⟩ := e
      obtain ⟨k', v'⟩ := e'
      obtain ⟨rfl, htail⟩ := List.cons.inj hkeys
      obtain ⟨hk, hl⟩ := List.nodup_cons.mp hl
      obtain ⟨hk', hl'⟩ := List.nodup_cons.mp hl'
      have hv : v = v' := by
        have := h k
        rw [List.lookup_cons_self, List.lookup_cons_self] at this
        exact Option.some.inj this
      rw [hv, ih hl l' hl' htail fun k'' => ?_]
      rcases eq_or_ne k'' k with rfl | hne
      · rw [lookup_eq_none_iff_notMem.mpr hk, lookup_eq_none_iff_notMem.mpr hk']
      · have := h k''
        rwa [List.lookup_cons, List.lookup_cons, beq_false_of_ne hne] at this

end Dict

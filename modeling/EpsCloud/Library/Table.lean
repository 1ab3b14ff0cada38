import Mathlib

/-!
# Keyed tables

A table maps each key to at most one row.  It is Mathlib's `AList`, whose field
carries the primary-key invariant.  `put` writes or removes the row of one key,
`rows` lists the table the way a query reads it, and `upsert` changes the row of a
key after adding it where there is none.
-/

/-- A table with primary key `κ` and rows `ρ`. -/
abbrev Table (κ ρ : Type) := AList fun _ : κ => ρ

namespace Table

variable {κ ρ : Type}

/-- The rows of a table, each with its key. -/
def rows (t : Table κ ρ) : List (κ × ρ) := t.entries.map fun e => (e.1, e.2)

theorem nodup_keys_rows (t : Table κ ρ) : (t.rows.map Prod.fst).Nodup := by
  have h : t.rows.map Prod.fst = t.entries.map Sigma.fst := by
    rw [rows, List.map_map]
    rfl
  rw [h]
  exact t.nodupKeys

variable [DecidableEq κ]

/-- Write the row of a key, or remove it. -/
def put (t : Table κ ρ) (k : κ) : Option ρ → Table κ ρ
  | some r => t.insert k r
  | none => t.erase k

@[simp] theorem lookup_put (t : Table κ ρ) (k k' : κ) (r : Option ρ) :
    (t.put k r).lookup k' = if k' = k then r else t.lookup k' := by
  by_cases h : k' = k
  · subst h
    rw [if_pos rfl]
    cases r with
    | none => exact AList.lookup_erase _ _
    | some r => exact AList.lookup_insert _
  · rw [if_neg h]
    cases r with
    | none => exact AList.lookup_erase_ne h
    | some r => exact AList.lookup_insert_ne h

theorem lookup_put_self (t : Table κ ρ) (k : κ) (r : Option ρ) : (t.put k r).lookup k = r := by
  rw [lookup_put, if_pos rfl]

theorem lookup_put_ne (t : Table κ ρ) {k k' : κ} (r : Option ρ) (h : k' ≠ k) :
    (t.put k r).lookup k' = t.lookup k' := by
  rw [lookup_put, if_neg h]

/-- Removing the row of a key that has none changes nothing. -/
theorem put_none_of_lookup_eq_none {t : Table κ ρ} {k : κ} (h : t.lookup k = none) :
    t.put k none = t := by
  refine AList.ext ?_
  exact List.kerase_of_notMem_keys (AList.lookup_eq_none.mp h)

theorem mem_rows {t : Table κ ρ} {k : κ} {r : ρ} : (k, r) ∈ t.rows ↔ t.lookup k = some r := by
  have h : (k, r) ∈ t.rows ↔ (⟨k, r⟩ : Sigma fun _ : κ => ρ) ∈ t.entries := by
    rw [rows, List.mem_map]
    constructor
    · rintro ⟨⟨k', r'⟩, hmem, heq⟩
      obtain ⟨rfl, rfl⟩ := Prod.mk.inj heq
      exact hmem
    · intro hmem
      exact ⟨⟨k, r⟩, hmem, rfl⟩
  rw [h, ← AList.mem_lookup_iff]
  exact Iff.rfl

/-- Every row of the table is in the other one. -/
def Within (t t' : Table κ ρ) : Prop := ∀ k r, t.lookup k = some r → t'.lookup k = some r

theorem within_refl (t : Table κ ρ) : t.Within t := fun _ _ => id

theorem Within.trans {t t' t'' : Table κ ρ} (h : t.Within t') (h' : t'.Within t'') :
    t.Within t'' :=
  fun k r hr => h' k r (h k r hr)

theorem Within.isSome {t t' : Table κ ρ} (h : t.Within t') {k : κ} (hk : (t.lookup k).isSome) :
    (t'.lookup k).isSome := by
  obtain ⟨r, hr⟩ := Option.isSome_iff_exists.mp hk
  rw [h k r hr]
  rfl

/-- A row with a new key leaves the others. -/
theorem within_insert {t : Table κ ρ} {k : κ} (h : t.lookup k = none) (r : ρ) :
    Within t (t.insert k r) := by
  intro k' r' hr'
  have hne : k' ≠ k := by
    rintro rfl
    rw [h] at hr'
    exact absurd hr' (by simp)
  rw [AList.lookup_insert_ne hne, hr']

/-- Change the row of a key, starting from `new` if there is none. -/
def upsert (t : Table κ ρ) (k : κ) (new : ρ) (f : ρ → ρ) : Table κ ρ :=
  t.insert k (f ((t.lookup k).getD new))

theorem getD_lookup_upsert (t : Table κ ρ) (k k' : κ) (new : ρ) (f : ρ → ρ) :
    ((t.upsert k new f).lookup k').getD new =
      if k' = k then f ((t.lookup k').getD new) else (t.lookup k').getD new := by
  rw [upsert]
  by_cases h : k' = k
  · subst h
    rw [AList.lookup_insert, Option.getD_some, if_pos rfl]
  · rw [AList.lookup_insert_ne h, if_neg h]

/-- **Accumulating rows by key.**  A row ends up with the changes that have its key. -/
theorem getD_lookup_foldl_upsert {α : Type} (key : α → κ) (new : ρ) (f : α → ρ → ρ) (xs : List α)
    (t : Table κ ρ) (k : κ) :
    ((xs.foldl (fun t x => t.upsert (key x) new (f x)) t).lookup k).getD new =
      (xs.filter fun x => key x = k).foldl (fun r x => f x r) ((t.lookup k).getD new) := by
  induction xs generalizing t with
  | nil => rfl
  | cons x xs ih =>
    rw [List.foldl_cons, ih, getD_lookup_upsert]
    by_cases h : key x = k
    · rw [if_pos h.symm, List.filter_cons_of_pos (by simpa using h), List.foldl_cons]
    · rw [if_neg fun h' => h h'.symm, List.filter_cons_of_neg (by simpa using h)]

end Table

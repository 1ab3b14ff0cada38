import Mathlib

/-!
# Rows with generated ids

A table whose ids come from a sequence: no two rows share one, and the next one is
above them all.  `findOrAddAll` looks a list of rows up, each by a property, and
adds those that are not there.

* `rows_prefix_findOrAddAll`: rows are only added, at the end.
* `findOrAddAll_again`: looked up again later, the rows are the same, and none is added.
* `nodup_ids_findOrAddAll`: rows that are looked up by properties that exclude each
  other have different ids.
-/

/-- Rows with ids from a sequence. -/
structure Sequenced (ρ : Type) (id : ρ → ℕ) where
  rows : List ρ
  next : ℕ
  nodup : (rows.map id).Nodup
  below : ∀ r ∈ rows, id r < next

namespace Sequenced

variable {ρ α : Type} {id : ρ → ℕ}

/-- A table without rows. -/
def empty (ρ : Type) (id : ρ → ℕ) : Sequenced ρ id where
  rows := []
  next := 1
  nodup := List.nodup_nil
  below _ hr := absurd hr List.not_mem_nil

theorem nodup_append (t : Sequenced ρ id) {r : ρ} (hr : id r = t.next) :
    ((t.rows ++ [r]).map id).Nodup := by
  rw [List.map_append, List.nodup_append]
  refine ⟨t.nodup, List.nodup_singleton _, ?_⟩
  intro a ha b hb
  obtain ⟨r', hr', rfl⟩ := List.mem_map.mp ha
  obtain rfl := List.mem_singleton.mp hb
  exact (hr ▸ t.below r' hr').ne

theorem below_append (t : Sequenced ρ id) {r : ρ} (hr : id r = t.next) :
    ∀ r' ∈ t.rows ++ [r], id r' < t.next + 1 := by
  intro r' hr'
  rcases List.mem_append.mp hr' with h | h
  · exact (t.below r' h).trans (Nat.lt_succ_self _)
  · rw [List.mem_singleton.mp h, hr]
    exact Nat.lt_succ_self _

/-- Add a row, which has the next id. -/
def add (t : Sequenced ρ id) (r : ρ) (hr : id r = t.next) : Sequenced ρ id where
  rows := t.rows ++ [r]
  next := t.next + 1
  nodup := t.nodup_append hr
  below := t.below_append hr

variable (is : α → ρ → Bool) (new : α → ℕ → ρ) (hnew : ∀ a n, id (new a n) = n)

/-- The first row with the property, or a new one. -/
def findOrAdd (a : α) (t : Sequenced ρ id) : ρ × Sequenced ρ id :=
  match t.rows.find? (is a) with
  | some r => (r, t)
  | none => (new a t.next, t.add (new a t.next) (hnew a t.next))

/-- The rows with the properties of a list. -/
def findOrAddAll : List α → Sequenced ρ id → List ρ × Sequenced ρ id
  | [], t => ([], t)
  | a :: l, t =>
    let p := findOrAdd is new hnew a t
    let q := findOrAddAll l p.2
    (p.1 :: q.1, q.2)

variable {is new hnew}

theorem rows_prefix_findOrAdd (a : α) (t : Sequenced ρ id) :
    t.rows <+: (findOrAdd is new hnew a t).2.rows := by
  rw [findOrAdd]
  split
  · exact List.prefix_rfl
  · exact List.prefix_append _ _

theorem rows_prefix_findOrAddAll (l : List α) (t : Sequenced ρ id) :
    t.rows <+: (findOrAddAll is new hnew l t).2.rows := by
  induction l generalizing t with
  | nil => exact List.prefix_rfl
  | cons a l ih => exact (rows_prefix_findOrAdd a t).trans (ih _)

/-- Each row that was looked up has one of the properties. -/
theorem exists_of_mem {β : Type} {R : α → β → Prop} {l : List α} {m : List β} (h : l.Forall₂ R m)
    {b : β} (hb : b ∈ m) : ∃ a ∈ l, R a b := by
  induction h with
  | nil => exact absurd hb List.not_mem_nil
  | @cons a b' l m hab _ ih =>
    rcases List.mem_cons.mp hb with rfl | hb
    · exact ⟨a, List.mem_cons_self, hab⟩
    · obtain ⟨a', ha', hR⟩ := ih hb
      exact ⟨a', List.mem_cons_of_mem _ ha', hR⟩

section Named

variable (his : ∀ a n, is a (new a n) = true)
include his

/-- The row is the first one with the property then. -/
theorem find?_findOrAdd (a : α) (t : Sequenced ρ id) :
    (findOrAdd is new hnew a t).2.rows.find? (is a) = some (findOrAdd is new hnew a t).1 := by
  rw [findOrAdd]
  rcases hfind : t.rows.find? (is a) with _ | r
  · dsimp only
    rw [add, List.find?_append, hfind, Option.none_or, List.find?_singleton, if_pos (his _ _)]
  · exact hfind

theorem find?_findOrAddAll (l : List α) (t : Sequenced ρ id) :
    l.Forall₂ (fun a r => (findOrAddAll is new hnew l t).2.rows.find? (is a) = some r)
      (findOrAddAll is new hnew l t).1 := by
  induction l generalizing t with
  | nil => exact List.Forall₂.nil
  | cons a l ih =>
    refine List.Forall₂.cons ?_ (ih _)
    exact (rows_prefix_findOrAddAll l _).find?_eq_some (find?_findOrAdd his a t)

/-- There is one row for each property. -/
theorem length_findOrAddAll (l : List α) (t : Sequenced ρ id) :
    (findOrAddAll is new hnew l t).1.length = l.length :=
  (find?_findOrAddAll his l t).length_eq.symm

omit his in
/-- Rows that are there are found. -/
theorem findOrAddAll_of_forall₂ {l : List α} {t : Sequenced ρ id} {rs : List ρ}
    (h : l.Forall₂ (fun a r => t.rows.find? (is a) = some r) rs) :
    findOrAddAll is new hnew l t = (rs, t) := by
  induction h with
  | nil => rfl
  | cons hr _ ih => rw [findOrAddAll, findOrAdd, hr, ih]

/-- **Looked up again** after rows were added, the rows are the same. -/
theorem findOrAddAll_again (l : List α) (t : Sequenced ρ id) {t' : Sequenced ρ id}
    (h : (findOrAddAll is new hnew l t).2.rows <+: t'.rows) :
    findOrAddAll is new hnew l t' = ((findOrAddAll is new hnew l t).1, t') :=
  findOrAddAll_of_forall₂ ((find?_findOrAddAll his l t).imp fun _ _ => h.find?_eq_some)

omit his in
/-- Rows with properties that exclude each other have different ids. -/
theorem nodup_ids_of_forall₂ {l : List α} {t : Sequenced ρ id} {rs : List ρ}
    (hl : l.Pairwise fun a b => ∀ r, ¬ (is a r = true ∧ is b r = true))
    (h : l.Forall₂ (fun a r => t.rows.find? (is a) = some r) rs) : (rs.map id).Nodup := by
  induction h with
  | nil => exact List.nodup_nil
  | @cons a r l rs hr hrs ih =>
    obtain ⟨ha, hl⟩ := List.pairwise_cons.mp hl
    rw [List.map_cons, List.nodup_cons]
    refine ⟨?_, ih hl⟩
    intro hmem
    obtain ⟨r', hr', hid⟩ := List.mem_map.mp hmem
    obtain ⟨b, hb, hfind⟩ := exists_of_mem hrs hr'
    obtain rfl : r' = r := List.inj_on_of_nodup_map t.nodup (List.mem_of_find?_eq_some hfind)
      (List.mem_of_find?_eq_some hr) hid
    exact ha b hb r' ⟨List.find?_some hr, List.find?_some hfind⟩

/-- **The ids differ** where the properties exclude each other. -/
theorem nodup_ids_findOrAddAll {l : List α} (t : Sequenced ρ id)
    (hl : l.Pairwise fun a b => ∀ r, ¬ (is a r = true ∧ is b r = true)) :
    ((findOrAddAll is new hnew l t).1.map id).Nodup :=
  nodup_ids_of_forall₂ hl (find?_findOrAddAll his l t)

end Named

end Sequenced

import Mathlib

/-!
# Rows selected from a list

A loop that builds a row from some of the items of a list, each row carrying the
item it was built from.  Selecting then loses and repeats nothing but the items
that it passes over.

* `map_filterMap_eq_filter`: the items of the selected rows, in order.
* `count_map_filterMap`: in a list without repetitions, an item is carried by one
  row if it was selected, and by none otherwise.
* `filter_filterMap_eq_map`: the rows of the items with a property, if each of them is selected.
* `map_filterMap_sublist`: what the selected rows show of their items, in the order of
  the list.
-/

namespace Selection

variable {α β : Type*} {select : α → Option β} {item : β → α}

/-- Every selected row carries the item it was built from. -/
def Carries (select : α → Option β) (item : β → α) : Prop :=
  ∀ a, ∀ b ∈ select a, item b = a

theorem map_filterMap_eq_filter (h : Carries select item) (l : List α) :
    (l.filterMap select).map item = l.filter fun a => (select a).isSome := by
  induction l with
  | nil => rfl
  | cons a l ih =>
    cases hrow : select a with
    | none =>
      rw [List.filterMap_cons_none hrow, List.filter_cons_of_neg (by simp [hrow]), ih]
    | some b =>
      rw [List.filterMap_cons_some hrow, List.filter_cons_of_pos (by simp [hrow]), List.map_cons,
        h a b hrow, ih]

theorem mem_map_filterMap (h : Carries select item) {l : List α} {a : α} :
    a ∈ (l.filterMap select).map item ↔ a ∈ l ∧ (select a).isSome := by
  rw [map_filterMap_eq_filter h, List.mem_filter]

/-- The rows of the items with a property, if a row is built from each of them. -/
theorem filter_filterMap_eq_map {item? : β → Option α} {p : α → Bool} (row : α → β) {l : List α}
    (hcarries : ∀ a, ∀ b ∈ select a, item? b = some a)
    (hrow : ∀ a ∈ l, p a → select a = some (row a)) :
    (l.filterMap select).filter (fun b => (item? b).any p) = (l.filter p).map row := by
  induction l with
  | nil => rfl
  | cons a l ih =>
    rw [List.forall_mem_cons] at hrow
    cases hp : p a with
    | true =>
      have hitem : (item? (row a)).any p := by
        rw [hcarries a (row a) (hrow.1 hp), Option.any_some, hp]
      rw [List.filterMap_cons_some (hrow.1 hp),
        List.filter_cons_of_pos (p := fun b => (item? b).any p) hitem, List.filter_cons_of_pos hp,
        List.map_cons, ih hrow.2]
    | false =>
      rw [List.filter_cons_of_neg (by simp [hp]), ← ih hrow.2]
      cases hselect : select a with
      | none => rw [List.filterMap_cons_none hselect]
      | some b =>
        rw [List.filterMap_cons_some hselect,
          List.filter_cons_of_neg (by simp [hcarries a b hselect, hp])]

/-- **A selected item is carried by one row.** -/
theorem count_map_filterMap [DecidableEq α] (h : Carries select item) {l : List α} (hl : l.Nodup)
    {a : α} (ha : a ∈ l) :
    ((l.filterMap select).map item).count a = if (select a).isSome then 1 else 0 := by
  rw [map_filterMap_eq_filter h]
  split_ifs with hsome
  · rw [List.count_filter (p := fun a => (select a).isSome) hsome, List.count_eq_one_of_mem hl ha]
  · exact List.count_eq_zero.mpr fun hmem => hsome (List.mem_filter.mp hmem).2

/-- What is read of the selected rows is part of what is read of the items. -/
theorem map_filterMap_sublist {γ : Type*} {shown : β → γ} {name : α → γ}
    (h : ∀ a, ∀ b ∈ select a, shown b = name a) (l : List α) :
    ((l.filterMap select).map shown).Sublist (l.map name) := by
  induction l with
  | nil => exact List.Sublist.slnil
  | cons a l ih =>
    rw [List.map_cons]
    cases hrow : select a with
    | none =>
      rw [List.filterMap_cons_none hrow]
      exact ih.cons _
    | some b =>
      rw [List.filterMap_cons_some hrow, List.map_cons, h a b hrow]
      exact ih.cons_cons _

end Selection

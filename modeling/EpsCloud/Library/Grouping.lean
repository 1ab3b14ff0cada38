import Mathlib

/-!
# Grouping by a key

`groups.setdefault(key, []).append(value)`, once for each pair of a list: a
dictionary from the keys, in the order of their first appearance, to the values
of each key in the order of the list.

* `mem_collect_iff`: a group holds exactly the values of its key, in order.
* `nodup_keys_collect`, `filter_collect`: each key has one group.
* `flatMap_collect_perm`: the groups together hold every value as often as the
  list does.
-/

namespace Grouping

variable {κ α : Type*} [DecidableEq κ]

/-- `groups.setdefault(k, []).append(a)`. -/
def appendTo (k : κ) (a : α) : List (κ × List α) → List (κ × List α)
  | [] => [(k, [a])]
  | (k', as) :: gs => if k' = k then (k', as ++ [a]) :: gs else (k', as) :: appendTo k a gs

/-- The dictionary after every pair of a list. -/
def collect (pairs : List (κ × α)) : List (κ × List α) :=
  pairs.foldl (fun gs p => appendTo p.1 p.2 gs) []

/-- The values of a key, in the order of the list. -/
def valuesOf (k : κ) (pairs : List (κ × α)) : List α :=
  (pairs.filter fun p => p.1 = k).map Prod.snd

theorem collect_concat (pairs : List (κ × α)) (p : κ × α) :
    collect (pairs ++ [p]) = appendTo p.1 p.2 (collect pairs) := by
  rw [collect, List.foldl_append]
  rfl

theorem flatMap_appendTo_perm (k : κ) (a : α) (gs : List (κ × List α)) :
    ((appendTo k a gs).flatMap Prod.snd).Perm (gs.flatMap Prod.snd ++ [a]) := by
  induction gs with
  | nil => exact List.Perm.refl _
  | cons g gs ih =>
    obtain ⟨k', as⟩ := g
    rw [appendTo]
    split_ifs with h
    · rw [List.flatMap_cons, List.flatMap_cons, List.append_assoc, List.append_assoc]
      exact List.Perm.append_left as List.perm_append_comm
    · rw [List.flatMap_cons, List.flatMap_cons, List.append_assoc]
      exact ih.append_left as

/-- **Grouping loses and repeats nothing.** -/
theorem flatMap_collect_perm (pairs : List (κ × α)) :
    ((collect pairs).flatMap Prod.snd).Perm (pairs.map Prod.snd) := by
  induction pairs using List.reverseRecOn with
  | nil => exact List.Perm.refl _
  | append_singleton pairs p ih =>
    rw [collect_concat, List.map_append]
    exact (flatMap_appendTo_perm p.1 p.2 _).trans (ih.append_right _)

theorem keys_appendTo (k : κ) (a : α) (gs : List (κ × List α)) :
    (appendTo k a gs).map Prod.fst =
      if k ∈ gs.map Prod.fst then gs.map Prod.fst else gs.map Prod.fst ++ [k] := by
  induction gs with
  | nil => rfl
  | cons g gs ih =>
    obtain ⟨k', as⟩ := g
    rw [appendTo]
    by_cases h : k' = k
    · rw [if_pos h, List.map_cons, List.map_cons, if_pos (by rw [h]; exact List.mem_cons_self)]
    · rw [if_neg h, List.map_cons, List.map_cons, ih]
      by_cases hk : k ∈ gs.map Prod.fst
      · rw [if_pos hk, if_pos (List.mem_cons_of_mem _ hk)]
      · rw [if_neg hk, if_neg fun hmem => (List.mem_cons.mp hmem).elim (fun e => h e.symm) hk]
        rfl

/-- **Each key has one group.** -/
theorem nodup_keys_collect (pairs : List (κ × α)) : ((collect pairs).map Prod.fst).Nodup := by
  induction pairs using List.reverseRecOn with
  | nil => exact List.nodup_nil
  | append_singleton pairs p ih =>
    rw [collect_concat, keys_appendTo]
    split_ifs with h
    · exact ih
    · refine List.nodup_append.mpr ⟨ih, List.nodup_singleton _, fun x hx y hy hxy => ?_⟩
      rw [List.mem_singleton] at hy
      exact h (by rw [← hy, ← hxy]; exact hx)

theorem mem_appendTo_iff {k k' : κ} {a : α} {as : List α} {gs : List (κ × List α)}
    (hgs : (gs.map Prod.fst).Nodup) :
    (k', as) ∈ appendTo k a gs ↔
      (k' ≠ k ∧ (k', as) ∈ gs) ∨
      (k' = k ∧ ((k ∉ gs.map Prod.fst ∧ as = [a]) ∨ ∃ bs, (k, bs) ∈ gs ∧ as = bs ++ [a])) := by
  induction gs with
  | nil =>
    simp only [appendTo, List.mem_singleton, Prod.mk.injEq, List.not_mem_nil, and_false,
      List.map_nil, not_false_eq_true, true_and, false_and, exists_false, or_false, false_or]
  | cons g gs ih =>
    obtain ⟨k₀, bs⟩ := g
    rw [List.map_cons, List.nodup_cons] at hgs
    rw [appendTo]
    by_cases h : k₀ = k
    · subst h
      have hnot : ∀ cs, (k₀, cs) ∉ gs := fun cs hcs =>
        hgs.1 (List.mem_map.mpr ⟨(k₀, cs), hcs, rfl⟩)
      rw [if_pos rfl]
      simp only [List.mem_cons, Prod.mk.injEq, List.map_cons, true_or, not_true_eq_false, false_and,
        false_or, true_and]
      constructor
      · rintro (⟨rfl, rfl⟩ | hmem)
        · exact Or.inr ⟨rfl, bs, Or.inl rfl, rfl⟩
        · exact Or.inl ⟨fun e => hnot as (by rw [← e]; exact hmem), Or.inr hmem⟩
      · rintro (⟨hne, ⟨rfl, -⟩ | hmem⟩ | ⟨rfl, cs, rfl | hcs, rfl⟩)
        · exact absurd rfl hne
        · exact Or.inr hmem
        · exact Or.inl ⟨rfl, rfl⟩
        · exact absurd hcs (hnot cs)
    · rw [if_neg h]
      simp only [List.mem_cons, Prod.mk.injEq, List.map_cons, ih hgs.2]
      constructor
      · rintro (⟨rfl, rfl⟩ | ⟨hne, hmem⟩ | ⟨rfl, ⟨hk, rfl⟩ | ⟨cs, hcs, rfl⟩⟩)
        · exact Or.inl ⟨h, Or.inl ⟨rfl, rfl⟩⟩
        · exact Or.inl ⟨hne, Or.inr hmem⟩
        · exact Or.inr ⟨rfl, Or.inl ⟨fun hk' => hk'.elim (fun e => h e.symm) hk, rfl⟩⟩
        · exact Or.inr ⟨rfl, Or.inr ⟨cs, Or.inr hcs, rfl⟩⟩
      · rintro (⟨hne, ⟨rfl, rfl⟩ | hmem⟩ | ⟨rfl, ⟨hk, rfl⟩ | ⟨cs, ⟨rfl, rfl⟩ | hcs, rfl⟩⟩)
        · exact Or.inl ⟨rfl, rfl⟩
        · exact Or.inr (Or.inl ⟨hne, hmem⟩)
        · exact Or.inr (Or.inr ⟨rfl, Or.inl ⟨fun hk' => hk (Or.inr hk'), rfl⟩⟩)
        · exact absurd rfl h
        · exact Or.inr (Or.inr ⟨rfl, Or.inr ⟨cs, hcs, rfl⟩⟩)

theorem valuesOf_concat (k : κ) (pairs : List (κ × α)) (p : κ × α) :
    valuesOf k (pairs ++ [p]) =
      if p.1 = k then valuesOf k pairs ++ [p.2] else valuesOf k pairs := by
  rw [valuesOf, List.filter_append, List.map_append]
  by_cases h : p.1 = k
  · rw [if_pos h, List.filter_cons_of_pos (by simpa using h)]
    rfl
  · rw [if_neg h, List.filter_cons_of_neg (by simpa using h)]
    exact List.append_nil _

/-- **A group holds exactly the values of its key, in order.** -/
theorem mem_collect_iff {k : κ} {as : List α} {pairs : List (κ × α)} :
    (k, as) ∈ collect pairs ↔ as = valuesOf k pairs ∧ as ≠ [] := by
  induction pairs using List.reverseRecOn generalizing k as with
  | nil =>
    constructor
    · intro h
      exact absurd h List.not_mem_nil
    · rintro ⟨rfl, h⟩
      exact absurd rfl h
  | append_singleton pairs p ih =>
    have hmem : ∀ k, k ∈ (collect pairs).map Prod.fst ↔ valuesOf k pairs ≠ [] := by
      intro k
      rw [List.mem_map]
      constructor
      · rintro ⟨⟨k', cs⟩, hcs, rfl⟩
        obtain ⟨rfl, hne⟩ := ih.mp hcs
        exact hne
      · intro hne
        exact ⟨(k, valuesOf k pairs), ih.mpr ⟨rfl, hne⟩, rfl⟩
    rw [collect_concat, mem_appendTo_iff (nodup_keys_collect pairs), valuesOf_concat]
    by_cases h : p.1 = k
    · subst h
      rw [if_pos rfl]
      constructor
      · rintro (⟨hne, -⟩ | ⟨-, ⟨hk, rfl⟩ | ⟨bs, hbs, rfl⟩⟩)
        · exact absurd rfl hne
        · have hnil : valuesOf p.1 pairs = [] := not_not.mp fun hv => hk ((hmem p.1).mpr hv)
          rw [hnil]
          exact ⟨rfl, List.cons_ne_nil _ _⟩
        · obtain ⟨rfl, -⟩ := ih.mp hbs
          exact ⟨rfl, by simp⟩
      · rintro ⟨rfl, -⟩
        refine Or.inr ⟨rfl, ?_⟩
        by_cases hv : valuesOf p.1 pairs = []
        · exact Or.inl ⟨fun hk => (hmem p.1).mp hk hv, by rw [hv]; rfl⟩
        · exact Or.inr ⟨valuesOf p.1 pairs, ih.mpr ⟨rfl, hv⟩, rfl⟩
    · rw [if_neg h, ih]
      constructor
      · rintro (⟨-, hg⟩ | ⟨rfl, -⟩)
        · exact hg
        · exact absurd rfl h
      · intro hg
        exact Or.inl ⟨fun e => h e.symm, hg⟩

/-- The group of a key, where there is one. -/
theorem filter_collect (k : κ) (pairs : List (κ × α)) :
    (collect pairs).filter (fun g => g.1 = k) =
      if valuesOf k pairs = [] then [] else [(k, valuesOf k pairs)] := by
  have hgroup : ∀ g ∈ (collect pairs).filter (fun g => g.1 = k), g = (k, valuesOf k pairs) := by
    rintro ⟨k', as⟩ hg
    rw [List.mem_filter, decide_eq_true_eq] at hg
    obtain ⟨hmem, rfl⟩ := hg
    rw [(mem_collect_iff.mp hmem).1]
  have hnodup : ((collect pairs).filter fun g => g.1 = k).Nodup :=
    (nodup_keys_collect pairs).of_map.filter _
  split_ifs with hnil
  · refine List.eq_nil_iff_forall_not_mem.mpr fun g hg => ?_
    have hmem := (List.mem_filter.mp hg).1
    rw [hgroup g hg] at hmem
    exact (mem_collect_iff.mp hmem).2 hnil
  · refine List.perm_singleton.mp ((List.perm_ext_iff_of_nodup hnodup
      (List.nodup_singleton _)).mpr fun g => ?_)
    rw [List.mem_singleton]
    refine ⟨hgroup g, ?_⟩
    rintro rfl
    exact List.mem_filter.mpr ⟨mem_collect_iff.mpr ⟨rfl, hnil⟩, decide_eq_true rfl⟩

end Grouping

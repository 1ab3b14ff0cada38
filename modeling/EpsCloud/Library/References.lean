import EpsCloud.Library.Sequenced
import EpsCloud.Library.Table

/-!
# Rows that refer to other rows

A parent table has ids from a sequence, and the rows of other tables refer to its rows by
id.  Deleting a parent row goes with deleting what refers to it.

* `InSequence`: no two rows share an id, and the next id is above them all.
* `Refers`: every row of a keyed table refers to one of some ids.
* `Refers.removeAll`: what refers to an id is removed with it.
-/

/-- The ids come from a sequence whose next value is `next`. -/
structure InSequence {ρ : Type} (id : ρ → ℕ) (rows : List ρ) (next : ℕ) : Prop where
  nodup : (rows.map id).Nodup
  below : ∀ r ∈ rows, id r < next

namespace InSequence

variable {ρ : Type} {id : ρ → ℕ} {rows : List ρ} {next : ℕ}

theorem nil (id : ρ → ℕ) : InSequence id [] 1 :=
  ⟨(Sequenced.empty ρ id).nodup, (Sequenced.empty ρ id).below⟩

/-- A new row takes the next id. -/
theorem append (h : InSequence id rows next) {r : ρ} (hr : id r = next) :
    InSequence id (rows ++ [r]) (next + 1) :=
  let t : Sequenced ρ id := ⟨rows, next, h.nodup, h.below⟩
  ⟨t.nodup_append hr, t.below_append hr⟩

/-- Rows that keep their ids. -/
theorem map (h : InSequence id rows next) {f : ρ → ρ} (hf : ∀ r ∈ rows, id (f r) = id r) :
    InSequence id (rows.map f) next := by
  have hids : (rows.map f).map id = rows.map id := by
    rw [List.map_map]
    exact List.map_congr_left hf
  refine ⟨hids ▸ h.nodup, fun r hr => ?_⟩
  obtain ⟨r', hr', rfl⟩ := List.mem_map.mp hr
  rw [hf r' hr']
  exact h.below r' hr'

theorem filter (h : InSequence id rows next) (p : ρ → Bool) :
    InSequence id (rows.filter p) next :=
  ⟨(List.filter_sublist.map id).nodup h.nodup, fun r hr => h.below r (List.mem_of_mem_filter hr)⟩

end InSequence

/-- An id of one of the rows. -/
abbrev IdIn {ρ : Type} (id : ρ → ℕ) (rows : List ρ) (k : ℕ) : Prop := ∃ r ∈ rows, id r = k

section

variable {ρ : Type} {id : ρ → ℕ} {rows : List ρ} {k : ℕ}

theorem idIn_append_left (h : IdIn id rows k) (r : ρ) : IdIn id (rows ++ [r]) k := by
  obtain ⟨r', hr', hk⟩ := h
  exact ⟨r', List.mem_append_left _ hr', hk⟩

theorem idIn_append_self (id : ρ → ℕ) (rows : List ρ) (r : ρ) : IdIn id (rows ++ [r]) (id r) :=
  ⟨r, List.mem_append_right _ (List.mem_singleton_self r), rfl⟩

theorem idIn_append_iff {r : ρ} : IdIn id (rows ++ [r]) k ↔ IdIn id rows k ∨ id r = k := by
  constructor
  · rintro ⟨r', hr', rfl⟩
    rcases List.mem_append.mp hr' with hr' | hr'
    · exact .inl ⟨r', hr', rfl⟩
    · exact .inr (congrArg id (List.mem_singleton.mp hr').symm)
  · rintro (h | rfl)
    · exact idIn_append_left h r
    · exact idIn_append_self id rows r

theorem idIn_map_iff {f : ρ → ρ} (hf : ∀ r ∈ rows, id (f r) = id r) :
    IdIn id (rows.map f) k ↔ IdIn id rows k := by
  constructor
  · rintro ⟨r, hr, rfl⟩
    obtain ⟨r', hr', rfl⟩ := List.mem_map.mp hr
    exact ⟨r', hr', (hf r' hr').symm⟩
  · rintro ⟨r, hr, rfl⟩
    exact ⟨f r, List.mem_map_of_mem hr, hf r hr⟩

/-- The ids that are left when the rows of one id are deleted. -/
theorem idIn_delete_iff {d : ℕ} :
    IdIn id (rows.filter fun r => id r ≠ d) k ↔ IdIn id rows k ∧ k ≠ d := by
  constructor
  · rintro ⟨r, hr, rfl⟩
    obtain ⟨hr, hne⟩ := List.mem_filter.mp hr
    exact ⟨⟨r, hr, rfl⟩, of_decide_eq_true hne⟩
  · rintro ⟨⟨r, hr, rfl⟩, hne⟩
    exact ⟨r, List.mem_filter.mpr ⟨hr, decide_eq_true hne⟩, rfl⟩

/-- No row has an id that the sequence has not given yet. -/
theorem InSequence.not_idIn {next : ℕ} (h : InSequence id rows next) (hk : next ≤ k) :
    ¬ IdIn id rows k := by
  rintro ⟨r, hr, rfl⟩
  exact absurd (h.below r hr) (not_lt.mpr hk)

end

/-! ## What is new has a new id -/

/-- Rows that are there now but were not before have ids that the sequence had not given then. -/
structure NewIds {ρ : Type} (id : ρ → ℕ) (rows : List ρ) (next : ℕ) (rows' : List ρ) (next' : ℕ) :
    Prop where
  mem : ∀ k, IdIn id rows' k → IdIn id rows k ∨ next ≤ k
  le : next ≤ next'

namespace NewIds

variable {ρ : Type} {id : ρ → ℕ} {rows rows' : List ρ} {next next' : ℕ}

theorem refl (id : ρ → ℕ) (rows : List ρ) (next : ℕ) : NewIds id rows next rows next :=
  ⟨fun _ => .inl, le_rfl⟩

theorem append (h : NewIds id rows next rows' next') {r : ρ} (hr : id r = next') :
    NewIds id rows next (rows' ++ [r]) (next' + 1) := by
  refine ⟨fun k hk => ?_, h.le.trans (Nat.le_succ _)⟩
  rcases idIn_append_iff.mp hk with hk | rfl
  · exact h.mem k hk
  · exact .inr (hr ▸ h.le)

theorem map (h : NewIds id rows next rows' next') {f : ρ → ρ}
    (hf : ∀ r ∈ rows', id (f r) = id r) : NewIds id rows next (rows'.map f) next' :=
  ⟨fun k hk => h.mem k ((idIn_map_iff hf).mp hk), h.le⟩

theorem filter (h : NewIds id rows next rows' next') (p : ρ → Bool) :
    NewIds id rows next (rows'.filter p) next' := by
  refine ⟨fun k hk => ?_, h.le⟩
  obtain ⟨r, hr, hid⟩ := hk
  exact h.mem k ⟨r, List.mem_of_mem_filter hr, hid⟩

/-- An id that was given and whose row is gone does not come back. -/
theorem not_idIn (h : NewIds id rows next rows' next') {k : ℕ} (hk : k < next)
    (hnot : ¬ IdIn id rows k) : ¬ IdIn id rows' k := fun hin =>
  (h.mem k hin).elim hnot fun hle => absurd hk (not_lt.mpr hle)

end NewIds

/-! ## Keyed tables that refer -/

namespace Table

variable {κ ρ : Type} [DecidableEq κ]

/-- Remove the rows of some keys, one after the other. -/
theorem lookup_foldl_remove (t : Table κ ρ) (rows : List (κ × ρ)) (k : κ) :
    (rows.foldl (fun t e => t.put e.1 none) t).lookup k =
      if k ∈ rows.map Prod.fst then none else t.lookup k := by
  induction rows generalizing t with
  | nil => rfl
  | cons e rows ih =>
    rw [List.foldl_cons, ih, lookup_put, List.map_cons]
    by_cases hrest : k ∈ rows.map Prod.fst
    · rw [if_pos hrest, if_pos (List.mem_cons_of_mem _ hrest)]
    · by_cases hhead : k = e.1
      · rw [if_neg hrest, if_pos hhead, if_pos (hhead ▸ List.mem_cons_self)]
      · rw [if_neg hrest, if_neg hhead, if_neg fun h => (List.mem_cons.mp h).elim hhead hrest]

/-- Remove the rows whose key has a property. -/
theorem lookup_removeWhere (t : Table κ ρ) (P : κ → Prop) [DecidablePred P] (k : κ) :
    ((t.rows.filter fun e => P e.1).foldl (fun t e => t.put e.1 none) t).lookup k =
      if P k then none else t.lookup k := by
  rw [lookup_foldl_remove]
  by_cases hP : P k
  · rw [if_pos hP]
    split_ifs with hmem
    · rfl
    · cases hrow : t.lookup k with
      | none => rfl
      | some r =>
        refine absurd (List.mem_map.mpr ⟨(k, r), ?_, rfl⟩) hmem
        exact List.mem_filter.mpr ⟨mem_rows.mpr hrow, decide_eq_true hP⟩
  · rw [if_neg hP, if_neg]
    intro hmem
    obtain ⟨e, he, rfl⟩ := List.mem_map.mp hmem
    exact hP (of_decide_eq_true (List.mem_filter.mp he).2)

end Table

/-- Every row of the table refers to an id with the property. -/
def Refers {κ ρ : Type} [DecidableEq κ] (t : Table κ ρ) (ref : κ → ℕ) (P : ℕ → Prop) : Prop :=
  ∀ k, (t.lookup k).isSome → P (ref k)

namespace Refers

variable {κ ρ : Type} [DecidableEq κ] {t : Table κ ρ} {ref : κ → ℕ} {P Q : ℕ → Prop}

theorem empty (ref : κ → ℕ) (P : ℕ → Prop) : Refers (∅ : Table κ ρ) ref P := by
  intro k hk
  rw [AList.lookup_empty] at hk
  cases hk

theorem mono (h : Refers t ref P) (hPQ : ∀ k, P k → Q k) : Refers t ref Q :=
  fun k hk => hPQ _ (h k hk)

/-- A row is written whose parent is there, or removed. -/
theorem put (h : Refers t ref P) {k : κ} (hk : P (ref k)) (r : Option ρ) :
    Refers (t.put k r) ref P := by
  intro k' hk'
  by_cases heq : k' = k
  · rwa [heq]
  · rw [Table.lookup_put_ne t r heq] at hk'
    exact h k' hk'

theorem insert (h : Refers t ref P) {k : κ} (hk : P (ref k)) (r : ρ) :
    Refers (t.insert k r) ref P := h.put hk (some r)

/-- **What refers to an id is removed with it.** -/
theorem removeAll (h : Refers t ref P) (d : ℕ) :
    Refers ((t.rows.filter fun e => ref e.1 = d).foldl (fun t e => t.put e.1 none) t) ref
      fun k => P k ∧ k ≠ d := by
  intro k hk
  rw [Table.lookup_removeWhere t (fun k => ref k = d)] at hk
  split_ifs at hk with hd
  · cases hk
  · exact ⟨h k hk, hd⟩

end Refers

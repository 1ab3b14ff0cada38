import EpsCloud.Deploy.PullSecrets

/-!
# What merging in place does

`merge` changes the mappings of its left side in place, along the keys that both sides
have.  Where no mapping that it changes is stored at a second place, the left side
becomes the two documents merged key by key; where one is, the other place changes too.

* `MergedSoFar`: what a mapping is when some keys of the right side have been visited.
* `merge_holds`: an unaliased document is merged key by key.
-/

namespace EpsCloud

open Doc (Step Same keysOf)

variable {κ σ : Type}

/-- How many calls of `merge` are open at most, for the right document. -/
def nesting {ι : Type} : Doc ι κ σ → ℕ
  | .dict _ ks _ c => 1 + (ks.map fun k => nesting (c k)).sum
  | .scalar _ => 0
  | .list _ _ => 0

theorem nesting_child_lt {ι : Type} {o : ι} {ks : List κ} {hks : ks.Nodup} {c : κ → Doc ι κ σ}
    {k : κ} (hk : k ∈ ks) : nesting (c k) < nesting (.dict o ks hks c) := by
  have hle := List.le_sum_of_mem (List.mem_map_of_mem (f := fun k => nesting (c k)) hk)
  rw [nesting]
  omega

theorem slot_eq_ref_iff {t : Doc (Address κ) κ σ} {o : Address κ} :
    t.slot = .ref o ↔ ∃ ks, ∃ hks : ks.Nodup, ∃ c, t = .dict o ks hks c := by
  constructor
  · intro h
    cases t with
    | scalar s => cases h
    | list n c => cases h
    | dict o' ks hks c =>
      cases h
      exact ⟨ks, hks, c, rfl⟩
  · rintro ⟨ks, hks, c, rfl⟩
    rfl

theorem slot_of_isDict {t : Doc (Address κ) κ σ} (h : t.isDict) : ∃ o, t.slot = .ref o := by
  obtain ⟨o, ks, hks, c, rfl⟩ := Doc.isDict_iff.mp h
  exact ⟨o, rfl⟩

variable [DecidableEq κ]

/-! ## The run -/

/-- The mapping `o`, with the keys `done` of the right side merged into the left side. -/
structure MergedSoFar (h : Heap κ σ) (o : Address κ) (ks : List κ)
    (c c' : κ → Doc (Address κ) κ σ) (done : List κ) : Prop where
  keys : (h.get o).keys = ks ++ done.filter (· ∉ ks)
  merged : ∀ k ∈ done, k ∈ ks →
    (h.get o).get? k = some ((c k).deepMerge (c' k)).slot ∧ h.Holds ((c k).deepMerge (c' k))
  taken : ∀ k ∈ done, k ∉ ks → (h.get o).get? k = some (c' k).slot ∧ h.Holds (c' k)
  left : ∀ k ∈ ks, k ∉ done → (h.get o).get? k = some (c k).slot ∧ h.Holds (c k)

theorem mergedSoFar_nil {h : Heap κ σ} {o : Address κ} {ks : List κ} {hks : ks.Nodup}
    {c c' : κ → Doc (Address κ) κ σ} (hold : h.Holds (.dict o ks hks c)) :
    MergedSoFar h o ks c c' [] where
  keys := hold.1.trans (List.append_nil ks).symm
  merged _ hk := absurd hk List.not_mem_nil
  taken _ hk := absurd hk List.not_mem_nil
  left k hk _ := hold.2 k hk

theorem MergedSoFar.holds {h : Heap κ σ} {o o' : Address κ} {ks ks' : List κ} {hks : ks.Nodup}
    {hks' : ks'.Nodup} {c c' : κ → Doc (Address κ) κ σ} (hm : MergedSoFar h o ks c c' ks') :
    h.Holds ((Doc.dict o ks hks c).deepMerge (.dict o' ks' hks' c')) := by
  rw [Doc.deepMerge_dict]
  refine ⟨hm.keys, fun k hk => ?_⟩
  dsimp only
  split_ifs with hk' hk₁
  · exact hm.merged k hk' hk₁
  · exact hm.taken k hk' hk₁
  · exact hm.left k ((Doc.mem_append_filter.mp hk).resolve_right hk') hk'

/-- One key is taken over, when what is under the other keys is left alone. -/
theorem MergedSoFar.step {h h' : Heap κ σ} {o : Address κ} {ks done : List κ}
    {c c' : κ → Doc (Address κ) κ σ} (hm : MergedSoFar h o ks c c' done) {k : κ} (hk : k ∉ done)
    (hkeys : (h'.get o).keys = if k ∈ ks then (h.get o).keys else (h.get o).keys ++ [k])
    (hothers : ∀ j ≠ k, (h'.get o).get? j = (h.get o).get? j)
    (hsame : ∀ j ≠ k, (j ∈ ks → ∀ x ∈ (c j).labels, h'.get x = h.get x) ∧
      (j ∈ done → ∀ x ∈ (c' j).labels, h'.get x = h.get x))
    (hnew : if k ∈ ks then (h'.get o).get? k = some ((c k).deepMerge (c' k)).slot ∧
        h'.Holds ((c k).deepMerge (c' k))
      else (h'.get o).get? k = some (c' k).slot ∧ h'.Holds (c' k)) :
    MergedSoFar h' o ks c c' (done ++ [k]) where
  keys := by
    rw [hkeys, hm.keys, List.filter_append]
    split_ifs with hks <;> simp [hks]
  merged j hj hjks := by
    rcases eq_or_ne j k with rfl | hjk
    · rwa [if_pos hjks] at hnew
    · have hjd : j ∈ done := by simpa [hjk] using hj
      refine ⟨(hothers j hjk).trans (hm.merged j hjd hjks).1,
        (hm.merged j hjd hjks).2.congr fun x hx => ?_⟩
      rcases Doc.labels_deepMerge _ _ hx with hx | hx
      · exact (hsame j hjk).1 hjks x hx
      · exact (hsame j hjk).2 hjd x hx
  taken j hj hjks := by
    rcases eq_or_ne j k with rfl | hjk
    · rwa [if_neg hjks] at hnew
    · have hjd : j ∈ done := by simpa [hjk] using hj
      exact ⟨(hothers j hjk).trans (hm.taken j hjd hjks).1,
        (hm.taken j hjd hjks).2.congr ((hsame j hjk).2 hjd)⟩
  left j hj hjd := by
    rw [List.mem_append, List.mem_singleton, not_or] at hjd
    exact ⟨(hothers j hjd.2).trans (hm.left j hj hjd.1).1,
      (hm.left j hj hjd.1).2.congr ((hsame j hjd.2).1 hj)⟩

/-- The left document has become the two merged, and no object that it does not reach
through keys has changed. -/
structure MergedInto (h h' : Heap κ σ) (left right : Doc (Address κ) κ σ) : Prop where
  holds : h'.Holds (left.deepMerge right)
  documents : h'.documents = h.documents
  frame : ∀ x ∉ left.keyLabels, h'.get x = h.get x

theorem slot_deepMerge {t u : Doc (Address κ) κ σ} (h : t.isDict ∧ u.isDict) :
    (t.deepMerge u).slot = t.slot := by
  obtain ⟨o, ks, hks, c, rfl⟩ := Doc.isDict_iff.mp h.1
  obtain ⟨o', ks', hks', c', rfl⟩ := Doc.isDict_iff.mp h.2
  rfl

/-- Two mappings are merged in place, and anything else is stored. -/
theorem mergeItem_eq {again : Heap κ σ → Address κ → Address κ → Option (Heap κ σ)}
    {h : Heap κ σ} {left : Address κ} {k : κ} {t u : Doc (Address κ) κ σ}
    (ht : (h.get left).get? k = some t.slot) (hdict : ¬ (t.isDict ∧ u.isDict)) :
    mergeItem again left h k u.slot = some (h.setKey left k u.slot) := by
  unfold mergeItem
  rw [ht]
  cases u with
  | scalar s => rfl
  | list n c => rfl
  | dict o ks hks c =>
    cases t with
    | scalar s => rfl
    | list n c => rfl
    | dict o' ks' hks' c' => exact absurd ⟨rfl, rfl⟩ hdict

theorem mergeItem_refs {again : Heap κ σ → Address κ → Address κ → Option (Heap κ σ)}
    {h : Heap κ σ} {left l r : Address κ} {k : κ} (hk : (h.get left).get? k = some (.ref l)) :
    mergeItem again left h k (.ref r) = again h l r := by
  unfold mergeItem
  rw [hk]

theorem mergeItem_of_none {again : Heap κ σ → Address κ → Address κ → Option (Heap κ σ)}
    {h : Heap κ σ} {left : Address κ} {k : κ} {v : Slot κ σ} (hk : (h.get left).get? k = none) :
    mergeItem again left h k v = some (h.setKey left k v) := by
  unfold mergeItem
  rw [hk]
  cases v <;> rfl

section

variable {h h₁ : Heap κ σ} {l r : Address κ} {ks ks' done : List κ} {hks : ks.Nodup}
  {hks' : ks'.Nodup} {c c' : κ → Doc (Address κ) κ σ} {k : κ}

/-- Storing what the right side has is a step, where the two are not both mappings. -/
theorem MergedSoFar.store (hm : MergedSoFar h₁ l ks c c' done) (hkd : k ∉ done)
    (hdict : k ∈ ks → ¬ ((c k).isDict ∧ (c' k).isDict)) (hnew : h₁.Holds (c' k))
    (hl : ∀ j ∈ ks, l ∉ (c j).labels) (hl' : ∀ j, j = k ∨ j ∈ done → l ∉ (c' j).labels) :
    MergedSoFar (h₁.setKey l k (c' k).slot) l ks c c' (done ++ [k]) := by
  have hother {t : Doc (Address κ) κ σ} (ht : l ∉ t.labels) :
      ∀ x ∈ t.labels, (h₁.setKey l k (c' k).slot).get x = h₁.get x :=
    fun x hx => Heap.get_setKey fun heq => ht (heq ▸ hx)
  have hput : ((h₁.setKey l k (c' k).slot).get l).get? k = some (c' k).slot ∧
      (h₁.setKey l k (c' k).slot).Holds (c' k) := by
    refine ⟨?_, hnew.congr (hother (hl' k (.inl rfl)))⟩
    rw [Heap.get_setKey_self, Dict.get?_set, if_pos rfl]
  refine hm.step hkd ?_ (fun j hj => ?_) (fun j hj => ⟨fun h => hother (hl j h),
    fun h => hother (hl' j (.inr h))⟩) ?_
  · rw [Heap.get_setKey_self, Dict.keys_set, hm.keys]
    refine if_congr ?_ rfl rfl
    rw [Doc.mem_append_filter]
    tauto
  · rw [Heap.get_setKey_self, Dict.get?_set, if_neg hj]
  · split_ifs with hkks
    · rwa [Doc.deepMerge_of_not]
      rw [← Bool.not_eq_true, ← Bool.not_eq_true]
      exact not_and_or.mp (hdict hkks)
    · exact hput

/-- Merging two mappings in place is a step. -/
theorem MergedSoFar.descend {h₂ : Heap κ σ} (hm : MergedSoFar h₁ l ks c c' done) (hkd : k ∉ done)
    (hkks : k ∈ ks) (hdict : (c k).isDict ∧ (c' k).isDict)
    (hmerge : MergedInto h₁ h₂ (c k) (c' k)) (hu : (Doc.dict l ks hks c).Unaliased)
    (hdis : ∀ j ∈ done, ∀ x ∈ (c k).keyLabels, x ∉ (c' j).labels) :
    MergedSoFar h₂ l ks c c' (done ++ [k]) := by
  have hroot : h₂.get l = h₁.get l :=
    hmerge.frame l fun hl => hu.root_notMem hkks (Doc.keyLabels_subset _ hl)
  refine hm.step hkd ?_ (fun j _ => by rw [hroot]) (fun j hj => ⟨fun hjks x hx => ?_,
    fun hjd x hx => ?_⟩) ?_
  · rw [hroot, if_pos hkks]
  · exact hmerge.frame x fun hx' => hu.notMem hkks hjks hj hx' hx
  · exact hmerge.frame x fun hx' => hdis j hjd x hx' hx
  · rw [if_pos hkks, hroot, slot_deepMerge hdict]
    exact ⟨(hm.left k hkks hkd).1, hmerge.holds⟩

end

/-- What has been merged when the keys `done` of the right mapping have been visited. -/
structure MergeRun (h h₁ : Heap κ σ) (l : Address κ) (ks : List κ)
    (c c' : κ → Doc (Address κ) κ σ) (U : Set (Address κ)) (done : List κ) : Prop where
  soFar : MergedSoFar h₁ l ks c c' done
  documents : h₁.documents = h.documents
  frame : ∀ x ∉ U, h₁.get x = h.get x

/-- One visit of the loop, where `again` merges the mappings under the key. -/
theorem MergeRun.visit {h h₁ : Heap κ σ} {l o' : Address κ} {ks ks' done : List κ}
    {hks : ks.Nodup} {hks' : ks'.Nodup} {c c' : κ → Doc (Address κ) κ σ} {k : κ}
    {again : Heap κ σ → Address κ → Address κ → Option (Heap κ σ)}
    (hrun : MergeRun h h₁ l ks c c' (Doc.dict l ks hks c).keyLabels done)
    (hright : h.Holds (.dict o' ks' hks' c')) (hu : (Doc.dict l ks hks c).Unaliased)
    (hdis : ∀ x ∈ (Doc.dict l ks hks c).keyLabels, x ∉ (Doc.dict o' ks' hks' c').labels)
    (hdone : ∀ j ∈ done, j ∈ ks') (hk : k ∈ ks') (hkd : k ∉ done)
    (hagain : ∀ l₁ r₁, (c k).slot = .ref l₁ → (c' k).slot = .ref r₁ → k ∈ ks →
      h₁.Holds (c k) → h₁.Holds (c' k) →
      ∃ h₂, again h₁ l₁ r₁ = some h₂ ∧ MergedInto h₁ h₂ (c k) (c' k)) :
    ∃ v h₂, (h₁.get o').get? k = some v ∧ mergeItem again l h₁ k v = some h₂ ∧
      (h₂.get o').keys = ks' ∧
      MergeRun h h₂ l ks c c' (Doc.dict l ks hks c).keyLabels (done ++ [k]) := by
  have hkept : ∀ x ∈ (Doc.dict o' ks' hks' c').labels, h₁.get x = h.get x :=
    fun x hx => hrun.frame x fun hx' => hdis x hx' hx
  have hright₁ : h₁.Holds (.dict o' ks' hks' c') := hright.congr hkept
  have hlabels {j : κ} (hj : j ∈ ks') {x : Address κ} (hx : x ∈ (c' j).labels) :
      x ∈ (Doc.dict o' ks' hks' c').labels := Doc.mem_labels_dict.mpr (.inr ⟨j, hj, hx⟩)
  have hl : l ∈ (Doc.dict l ks hks c).keyLabels := Doc.mem_keyLabels_dict.mpr (.inl rfl)
  have ho' : o' ∈ (Doc.dict o' ks' hks' c').labels := Doc.mem_labels_dict.mpr (.inl rfl)
  have hne : o' ≠ l := fun heq => hdis l hl (heq ▸ ho')
  by_cases hdict : k ∈ ks ∧ (c k).isDict ∧ (c' k).isDict
  · obtain ⟨l₁, hl₁⟩ := slot_of_isDict hdict.2.1
    obtain ⟨r₁, hr₁⟩ := slot_of_isDict hdict.2.2
    obtain ⟨hget, hold⟩ := hrun.soFar.left k hdict.1 hkd
    obtain ⟨h₂, hmerge, hinto⟩ := hagain l₁ r₁ hl₁ hr₁ hdict.1 hold (hright₁.2 k hk).2
    have hsub : (c k).keyLabels ⊆ (Doc.dict l ks hks c).keyLabels :=
      fun x hx => Doc.mem_keyLabels_dict.mpr (.inr ⟨k, hdict.1, hx⟩)
    refine ⟨_, h₂, (hright₁.2 k hk).1, ?_, ?_, ?_, ?_, ?_⟩
    · rw [hr₁, mergeItem_refs (hl₁ ▸ hget), hmerge]
    · rw [hinto.frame o' fun hx => hdis o' (hsub hx) ho', hright₁.1]
    · exact hrun.soFar.descend hkd hdict.1 hdict.2 hinto hu
        fun j hj x hx hx' => hdis x (hsub hx) (hlabels (hdone j hj) hx')
    · exact hinto.documents.trans hrun.documents
    · exact fun x hx => (hinto.frame x fun hx' => hx (hsub hx')).trans (hrun.frame x hx)
  · refine ⟨_, h₁.setKey l k (c' k).slot, (hright₁.2 k hk).1, ?_, ?_, ?_, hrun.documents, ?_⟩
    · by_cases hkks : k ∈ ks
      · exact mergeItem_eq (hrun.soFar.left k hkks hkd).1 fun h => hdict ⟨hkks, h⟩
      · refine mergeItem_of_none (Dict.get?_eq_none.mpr ?_)
        rw [hrun.soFar.keys, Doc.mem_append_filter]
        tauto
    · rw [Heap.get_setKey hne, hright₁.1]
    · refine hrun.soFar.store hkd (fun hkks h => hdict ⟨hkks, h⟩) (hright₁.2 k hk).2
        (fun j hj => hu.root_notMem hj) ?_
      rintro j (rfl | hj) hx
      · exact hdis l hl (hlabels hk hx)
      · exact hdis l hl (hlabels (hdone j hj) hx)
    · exact fun x hx => (Heap.get_setKey (ne_of_mem_of_not_mem hl hx).symm).trans (hrun.frame x hx)

/-- **An unaliased document is merged key by key.** -/
theorem merge_holds {left right : Doc (Address κ) κ σ} {h : Heap κ σ} {depth : ℕ}
    {l r : Address κ} (hl : left.slot = .ref l) (hr : right.slot = .ref r)
    (hleft : h.Holds left) (hright : h.Holds right) (hu : left.Unaliased)
    (hdis : ∀ x ∈ left.keyLabels, x ∉ right.labels) (hdepth : nesting right ≤ depth) :
    ∃ h', merge depth h l r = some h' ∧ MergedInto h h' left right := by
  induction right generalizing left h depth l r with
  | scalar s => cases hr
  | list n c => cases hr
  | dict o' ks' hks' c' ih =>
    cases hr
    obtain ⟨ks, hks, c, rfl⟩ := slot_eq_ref_iff.mp hl
    obtain ⟨d, rfl⟩ := Nat.exists_eq_add_one_of_ne_zero
      (n := depth) (by rw [nesting] at hdepth; omega)
    have hstart : MergeRun h h l ks c c' (Doc.dict l ks hks c).keyLabels [] :=
      ⟨mergedSoFar_nil hleft, rfl, fun _ _ => rfl⟩
    have hvisit : ∀ done k h₁, done ++ [k] <+: (h.get o').keys →
        MergeRun h h₁ l ks c c' (Doc.dict l ks hks c).keyLabels done →
        ∃ v h₂, (h₁.get o').get? k = some v ∧ mergeItem (merge d) l h₁ k v = some h₂ ∧
          (h₂.get o').keys = (h.get o').keys ∧
          MergeRun h h₂ l ks c c' (Doc.dict l ks hks c).keyLabels (done ++ [k]) := by
      intro done k h₁ hpre hsoFar
      rw [hright.1] at hpre ⊢
      have hkd : k ∉ done := fun hk =>
        (List.nodup_append.mp (hpre.sublist.nodup hks')).2.2 k hk k List.mem_cons_self rfl
      have hk : k ∈ ks' := hpre.subset (List.mem_append_right done List.mem_cons_self)
      refine hsoFar.visit hright hu hdis (fun j hj => hpre.subset (List.mem_append_left _ hj)) hk
        hkd fun l₁ r₁ hl₁ hr₁ hkks hold hold' => ?_
      refine ih k hl₁ hr₁ hold hold' (hu.child hkks) (fun x hx hx' => ?_) ?_
      · exact hdis x (Doc.mem_keyLabels_dict.mpr (.inr ⟨k, hkks, hx⟩))
          (Doc.mem_labels_dict.mpr (.inr ⟨k, hk, hx'⟩))
      · have : nesting (c' k) < nesting (.dict o' ks' hks' c') := nesting_child_lt hk
        omega
    obtain ⟨h', hrun, hend⟩ := Heap.forItems_of_step hstart hvisit
    rw [hright.1] at hend
    exact ⟨h', hrun, hend.soFar.holds, hend.documents, hend.frame⟩

end EpsCloud

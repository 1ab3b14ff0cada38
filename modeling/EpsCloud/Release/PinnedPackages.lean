import EpsCloud.Release.ScopedNames

/-!
# The pass over the components

The loop over the components of the copied document sets the version of each pinned Debian
package and collects what its package URL is replaced by.  A package that comes twice is
refused, so a pass that succeeds has found each package once at most.

* `pinComponent_step`: what one turn does.
* `pinComponents_run`: what a pass has done to the document, and what it has collected.
-/

namespace EpsCloud

open Doc (Head Step Same)

variable {ι : Type} (quote : Text → Text) (pins : Pins)

/-- The name, the pinned version and the package URL of a document that is patched. -/
def docPinned (t : Doc ι String Atom) : Option (Text × Text × Text) :=
  (pinnedAs pins (docView t)).getD none

/-- The component with its pinned version, if it is patched. -/
def patched (t : Doc ι String Atom) : Doc ι String Atom :=
  match docPinned pins t with
  | none => t
  | some (_, version, _) => t.setKey "version" (.scalar (.text version))

variable {pins}

theorem labelAt_patched {t : Doc ι String Atom} {p : List (Step String)} {o : ι}
    (h : (patched pins t).labelAt p = some o) : t.labelAt p = some o := by
  unfold patched at h
  split at h
  · exact h
  · exact Doc.labelAt_setKey_scalar h

theorem labels_patched (t : Doc ι String Atom) : (patched pins t).labels ⊆ t.labels :=
  fun _ ⟨p, hp⟩ => ⟨p, labelAt_patched hp⟩

theorem slot_patched (t : Doc (Address String) String Atom) :
    (patched pins t).slot = t.slot := by
  unfold patched
  split
  · rfl
  · exact Heap.slot_setKey ..

variable {quote}

/-- What one turn of the loop does with a component. -/
inductive PinStep (quote : Text → Text) (pins : Pins) (s s' : PinState)
    (t : Doc (Address String) String Atom) : Prop
  | skip (hpinned : docPinned pins t = none) (heq : s' = s)
  | pin (name version purl new : Text) (hpinned : docPinned pins t = some (name, version, purl))
      (hfresh : name ∉ s.found) (hnew : repinned quote purl version = some new)
      (hfound : s'.found = s.found ++ [name]) (hrefs : s'.references = s.references.set purl new)
      (hchange : Heap.Changed s.heap s'.heap t
        (t.setKey "version" (.scalar (.text version))))

theorem pinComponent_step {s s' : PinState} {t : Doc (Address String) String Atom}
    (hold : s.heap.Holds t) (hsep : t.Separate)
    (hrun : pinComponent quote pins s t.slot = some s') : PinStep quote pins s s' t := by
  cases t with
  | scalar a => cases hrun
  | list n c => cases hrun
  | dict o ks hks c =>
    rw [Doc.slot, pinComponent, view_eq_docView hold] at hrun
    cases hpinned : pinnedAs pins (docView (.dict o ks hks c)) with
    | none => rw [hpinned] at hrun; cases hrun
    | some found =>
      have hdoc : docPinned pins (.dict o ks hks c) = found := by
        rw [docPinned, hpinned, Option.getD_some]
      rw [hpinned] at hrun
      cases found with
      | none => exact .skip hdoc (Option.some.inj hrun).symm
      | some p =>
        obtain ⟨name, version, purl⟩ := p
        dsimp only at hrun
        split_ifs at hrun with hfresh
        obtain ⟨new, hnew, rfl⟩ := Option.map_eq_some_iff.mp hrun
        exact .pin name version purl new hdoc hfresh hnew rfl rfl
          (Heap.setKey_changed hold rfl hsep "version" (.text version))

theorem PinStep.changed {s s' : PinState} {t : Doc (Address String) String Atom}
    (h : PinStep quote pins s s' t) (hold : s.heap.Holds t) :
    Heap.Changed s.heap s'.heap t (patched pins t) := by
  cases h with
  | skip hpinned heq =>
    rw [heq, patched, hpinned]
    exact .refl hold
  | pin name version purl new hpinned hfresh hnew hfound hrefs hchange =>
    rw [patched, hpinned]
    exact hchange

/-- What the pass has found in the components `done`. -/
structure PinRun (quote : Text → Text) (pins : Pins) (h : Heap String Atom) (n : ℕ)
    (c : ℕ → Doc (Address String) String Atom) (done : List ℕ) (s : PinState) : Prop where
  visited : Heap.Visited h s.heap (List.range n) c (fun i => patched pins (c i)) done
  found : s.found = done.filterMap fun i => (docPinned pins (c i)).map Prod.fst
  nodup : s.found.Nodup
  /-- A text that is replaced is the package URL of a patched component. -/
  replaced : ∀ x x', s.references.get? x = some x' →
    ∃ i ∈ done, ∃ name version, docPinned pins (c i) = some (name, version, x) ∧
      repinned quote x version = some x'
  /-- The package URL of a patched component is replaced. -/
  complete : ∀ i ∈ done, ∀ name version purl, docPinned pins (c i) = some (name, version, purl) →
    (s.references.get? purl).isSome

theorem PinRun.step {h : Heap String Atom} {n : ℕ} {c : ℕ → Doc (Address String) String Atom}
    {done : List ℕ} {s s' : PinState} {i : ℕ} (hr : PinRun quote pins h n c done s)
    (hpre : done ++ [i] <+: List.range n) (hsep : (Doc.list n c).Separate)
    (hstep : PinStep quote pins s s' (c i)) (hold : s.heap.Holds (c i)) :
    PinRun quote pins h n c (done ++ [i]) s' where
  visited := by
    have hchild {j : ℕ} (hj : j ∈ List.range n) : (Doc.list n c).child? (.index j) = some (c j) :=
      if_pos (List.mem_range.mp hj)
    have hi : i ∈ List.range n := hpre.subset (List.mem_append_right done List.mem_cons_self)
    exact hr.visited.visit hpre List.nodup_range (hstep.changed hold)
      (fun j => labels_patched (c j)) fun j hj hne x hx =>
        hsep.notMem (hchild hi) (hchild hj) (fun heq => hne (Step.index.inj heq).symm) hx
  found := by
    rw [List.filterMap_append, ← hr.found]
    cases hstep with
    | skip hpinned heq => simp [hpinned, heq]
    | pin name version purl new hpinned hfresh hnew hfound hrefs hchange => simp [hpinned, hfound]
  nodup := by
    cases hstep with
    | skip hpinned heq => exact heq ▸ hr.nodup
    | pin name version purl new hpinned hfresh hnew hfound hrefs hchange =>
      rw [hfound]
      exact hr.nodup.append (List.nodup_singleton name) (List.disjoint_singleton.mpr hfresh)
  replaced x x' hx := by
    have hlift {j : ℕ} (hj : j ∈ done) : j ∈ done ++ [i] := List.mem_append_left _ hj
    cases hstep with
    | skip hpinned heq =>
      obtain ⟨j, hj, hrest⟩ := hr.replaced x x' (heq ▸ hx)
      exact ⟨j, hlift hj, hrest⟩
    | pin name version purl new hpinned hfresh hnew hfound hrefs hchange =>
      rw [hrefs, Dict.get?_set] at hx
      split_ifs at hx with heq
      · rw [heq, ← Option.some.inj hx]
        exact ⟨i, List.mem_append_right _ List.mem_cons_self, name, version, hpinned, hnew⟩
      · obtain ⟨j, hj, hrest⟩ := hr.replaced x x' hx
        exact ⟨j, hlift hj, hrest⟩
  complete j hj name' version' purl' hj' := by
    cases hstep with
    | skip hpinned heq =>
      rcases List.mem_append.mp hj with hj | hj
      · exact heq ▸ hr.complete j hj name' version' purl' hj'
      · rw [List.mem_singleton.mp hj, hpinned] at hj'
        cases hj'
    | pin name version purl new hpinned hfresh hnew hfound hrefs hchange =>
      rw [hrefs, Dict.get?_set]
      split_ifs with heq
      · rfl
      · rcases List.mem_append.mp hj with hj | hj
        · exact hr.complete j hj name' version' purl' hj'
        · rw [List.mem_singleton.mp hj, hpinned] at hj'
          cases hj'
          exact absurd rfl heq

/-- **What a pass that succeeds has done, and what it has collected.** -/
theorem pinComponents_run {h : Heap String Atom} {n : ℕ}
    {c : ℕ → Doc (Address String) String Atom} {s : PinState} (hold : h.Holds (.list n c))
    (hsep : (Doc.list n c).Separate)
    (hrun : ((List.range n).map fun i => (c i).slot).foldlM (pinComponent quote pins)
      ⟨h, Dict.empty, []⟩ = some s) : PinRun quote pins h n c (List.range n) s := by
  rw [List.foldlM_map] at hrun
  refine Fallible.foldlM_induct (P := PinRun quote pins h n c) hrun ?_ ?_
  · exact ⟨Heap.visited_nil fun i hi => hold i (List.mem_range.mp hi), rfl, List.nodup_nil,
      fun _ _ hx => absurd hx (Option.some_ne_none _).symm,
      fun i hi => absurd hi List.not_mem_nil⟩
  · intro done i s₁ s₂ hpre hr hone
    have hi : i ∈ List.range n := hpre.subset (List.mem_append_right done List.mem_cons_self)
    have hid : i ∉ done := fun hid => (List.nodup_append.mp
      (hpre.sublist.nodup List.nodup_range)).2.2 i hid i List.mem_cons_self rfl
    have hold₁ := hr.visited.old i hi hid
    have hsep₁ : (c i).Separate := hsep.child (s := .index i) (if_pos (List.mem_range.mp hi))
    exact hr.step hpre hsep (pinComponent_step hold₁ hsep₁ hone) hold₁

end EpsCloud

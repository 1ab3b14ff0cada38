import EpsCloud.Library.Objects

/-!
# Changing documents in place

A program that walks a document in memory and changes its mappings one by one leaves the
changed document, when no object of it is at two places: what one step changes, no other
step reads.

* `Visited.visit`: one document more is changed.
* `forItems_visited`, `foldlM_visited`: a loop over a mapping, or over a list, changes the
  document item by item, or fails where one item does.
-/

namespace Heap

variable {κ σ : Type} [DecidableEq κ]

/-- The document has been changed in place, and no object of another one has. -/
structure Changed (h h' : Heap κ σ) (t t' : Doc (Address κ) κ σ) : Prop where
  holds : h'.Holds t'
  documents : h'.documents = h.documents
  frame : ∀ o ∉ t.labels, h'.get o = h.get o

theorem Changed.refl {h : Heap κ σ} {t : Doc (Address κ) κ σ} (hold : h.Holds t) :
    Changed h h t t := ⟨hold, rfl, fun _ _ => rfl⟩

theorem Changed.trans {h h₁ h₂ : Heap κ σ} {t t₁ t₂ : Doc (Address κ) κ σ}
    (hfirst : Changed h h₁ t t₁) (hsecond : Changed h₁ h₂ t₁ t₂) (hsub : t₁.labels ⊆ t.labels) :
    Changed h h₂ t t₂ where
  holds := hsecond.holds
  documents := hsecond.documents.trans hfirst.documents
  frame o ho := (hsecond.frame o fun ho' => ho (hsub ho')).trans (hfirst.frame o ho)

/-- What shares no object with a document that is changed, stays in memory. -/
theorem Changed.inMemory {h h' : Heap κ σ} {t t' u : Doc (Address κ) κ σ} {v : Slot κ σ}
    (hchange : Changed h h' t t') (hv : h.InMemory v u) (hapart : ∀ o ∈ u.labels, o ∉ t.labels) :
    h'.InMemory v u where
  slot := hv.slot
  holds := hv.holds.congr fun o ho => hchange.frame o (hapart o ho)
  made o ho := hchange.documents ▸ hv.made o ho

/-- Setting a key of a mapping to a scalar. -/
theorem setKey_changed {h : Heap κ σ} {t : Doc (Address κ) κ σ} {o : Address κ} (hold : h.Holds t)
    (ho : t.slot = .ref o) (hsep : t.Separate) (k : κ) (a : σ) :
    Changed h (h.setKey o k (.scalar a)) t (t.setKey k (.scalar a)) := by
  cases t with
  | scalar s => cases ho
  | list n c => cases ho
  | dict o' ks hks c =>
    cases ho
    refine ⟨?_, rfl, fun x hx => get_setKey fun heq => ?_⟩
    · refine hold.setKey (v := .scalar a) trivial (fun j hj => ?_) ?_ k
      · exact hsep.root_notMem rfl (s := .key j) (if_pos hj)
      · rw [Doc.labels_scalar]
        exact Set.notMem_empty o
    · exact hx (Doc.mem_labels_dict.mpr (.inl heq))

/-- The documents of the items in `done` have been changed in place. -/
structure Visited {α : Type} (h₀ h : Heap κ σ) (items : List α)
    (doc new : α → Doc (Address κ) κ σ) (done : List α) : Prop where
  new : ∀ x ∈ done, h.Holds (new x)
  old : ∀ x ∈ items, x ∉ done → h.Holds (doc x)
  documents : h.documents = h₀.documents
  frame : ∀ o, (∀ x ∈ items, o ∉ (doc x).labels) → h.get o = h₀.get o

section

variable {α : Type} {h₀ h h' : Heap κ σ} {items done : List α}
  {doc new : α → Doc (Address κ) κ σ}

theorem visited_nil (hold : ∀ x ∈ items, h.Holds (doc x)) : Visited h h items doc new [] where
  new _ hx := absurd hx List.not_mem_nil
  old x hx _ := hold x hx
  documents := rfl
  frame _ _ := rfl

/-- One document more is changed, when it has no object in common with the others. -/
theorem Visited.visit (hv : Visited h₀ h items doc new done) {x : α}
    (hpre : done ++ [x] <+: items) (hnodup : items.Nodup)
    (hchange : Changed h h' (doc x) (new x)) (hsub : ∀ y, (new y).labels ⊆ (doc y).labels)
    (hapart : ∀ y ∈ items, y ≠ x → ∀ o ∈ (doc x).labels, o ∉ (doc y).labels) :
    Visited h₀ h' items doc new (done ++ [x]) where
  new y hy := by
    rcases List.mem_append.mp hy with hyd | hyx
    · have hne : y ≠ x := fun heq => (List.nodup_append.mp (hpre.sublist.nodup hnodup)).2.2 y hyd x
        List.mem_cons_self heq
      refine (hv.new y hyd).congr fun o ho => hchange.frame o fun ho' => ?_
      exact hapart y (hpre.subset hy) hne o ho' (hsub y ho)
    · rw [List.mem_singleton.mp hyx]
      exact hchange.holds
  old y hy hyd := by
    rw [List.mem_append, List.mem_singleton, not_or] at hyd
    exact (hv.old y hy hyd.1).congr fun o ho =>
      hchange.frame o fun ho' => hapart y hy hyd.2 o ho' ho
  documents := hchange.documents.trans hv.documents
  frame o ho := (hchange.frame o (ho x (hpre.subset (List.mem_append_right _
    List.mem_cons_self)))).trans (hv.frame o ho)

end

/-! ## Loops -/

/-- The run changes the document in place if `ok`, and fails otherwise. -/
def Does (run : Option (Heap κ σ)) (h : Heap κ σ) (ok : Bool) (t t' : Doc (Address κ) κ σ) :
    Prop :=
  if ok then ∃ h', run = some h' ∧ Changed h h' t t' else run = none

section

variable {α : Type} {h : Heap κ σ} {items : List α} {doc new : α → Doc (Address κ) κ σ}
  {ok : α → Bool} {step : Heap κ σ → α → Option (Heap κ σ)}

theorem Does.of_ok {run : Option (Heap κ σ)} {t t' : Doc (Address κ) κ σ}
    (hdoes : Does run h true t t') : ∃ h', run = some h' ∧ Changed h h' t t' := hdoes

theorem Does.of_some {run : Option (Heap κ σ)} {t t' : Doc (Address κ) κ σ} {ok : Bool}
    {h' : Heap κ σ} (hdoes : Does run h ok t t') (hrun : run = some h') :
    ok ∧ Changed h h' t t' := by
  cases ok with
  | false => exact absurd (hdoes.symm.trans hrun) (Option.some_ne_none h').symm
  | true =>
    obtain ⟨h₁, hrun₁, hchange⟩ := hdoes.of_ok
    cases Option.some.inj (hrun.symm.trans hrun₁)
    exact ⟨rfl, hchange⟩

/-- A run that starts after a change. -/
theorem Does.after {h₁ : Heap κ σ} {run : Option (Heap κ σ)} {ok : Bool}
    {t t₁ t₂ : Doc (Address κ) κ σ} (hchange : Changed h h₁ t t₁) (hdoes : Does run h₁ ok t₁ t₂)
    (hsub : t₁.labels ⊆ t.labels) : Does run h ok t t₂ := by
  unfold Does at hdoes ⊢
  split_ifs at hdoes ⊢ with hok
  · obtain ⟨h₂, hrun, hchange₂⟩ := hdoes
    exact ⟨h₂, hrun, hchange.trans hchange₂ hsub⟩
  · exact hdoes

/-- **A loop over documents that share nothing changes them all, or fails where one step does.** -/
theorem foldlM_visited (hnodup : items.Nodup) (hold : ∀ x ∈ items, h.Holds (doc x))
    (hsub : ∀ x, (new x).labels ⊆ (doc x).labels)
    (hapart : ∀ x ∈ items, ∀ y ∈ items, y ≠ x → ∀ o ∈ (doc x).labels, o ∉ (doc y).labels)
    (hstep : ∀ x ∈ items, ∀ h₁, (∀ o, (∀ y ∈ items, o ∉ (doc y).labels) → h₁.get o = h.get o) →
      h₁.Holds (doc x) → Does (step h₁ x) h₁ (ok x) (doc x) (new x)) :
    if items.all ok then ∃ h', items.foldlM step h = some h' ∧ Visited h h' items doc new items
    else items.foldlM step h = none := by
  have hnext {done : List α} {x : α} {h₁ : Heap κ σ} (hpre : done ++ [x] <+: items)
      (hv : Visited h h₁ items doc new done) :
      x ∈ items ∧ Does (step h₁ x) h₁ (ok x) (doc x) (new x) := by
    have hx : x ∈ items := hpre.subset (List.mem_append_right done List.mem_cons_self)
    have hxd : x ∉ done := fun hxd =>
      (List.nodup_append.mp (hpre.sublist.nodup hnodup)).2.2 x hxd x List.mem_cons_self rfl
    exact ⟨hx, hstep x hx h₁ hv.frame (hv.old x hx hxd)⟩
  split_ifs with hall
  · refine Fallible.foldlM_of_step (P := fun done h₁ => Visited h h₁ items doc new done)
      (visited_nil hold) fun done x h₁ hpre hv => ?_
    obtain ⟨hx, hdoes⟩ := hnext hpre hv
    rw [List.all_eq_true.mp hall x hx] at hdoes
    obtain ⟨h₂, hrun, hchange⟩ := hdoes.of_ok
    exact ⟨h₂, hrun, hv.visit hpre hnodup hchange hsub (hapart x hx)⟩
  · refine Option.eq_none_iff_forall_ne_some.mpr fun h' hrun => hall ?_
    have hend := Fallible.foldlM_induct (P := fun done h₁ =>
      Visited h h₁ items doc new done ∧ ∀ x ∈ done, ok x) hrun
      ⟨visited_nil hold, fun x hx => absurd hx List.not_mem_nil⟩ fun done x h₁ h₂ hpre hv hone => by
        obtain ⟨hx, hdoes⟩ := hnext hpre hv.1
        obtain ⟨hok, hchange⟩ := hdoes.of_some hone
        refine ⟨hv.1.visit hpre hnodup hchange hsub (hapart x hx), fun y hy => ?_⟩
        rcases List.mem_append.mp hy with hy | hy
        · exact hv.2 y hy
        · exact List.mem_singleton.mp hy ▸ hok
    exact List.all_eq_true.mpr hend.2

end

section

variable {h : Heap κ σ} {o : Address κ} {ks : List κ} {hks : ks.Nodup}
  {c new : κ → Doc (Address κ) κ σ} {ok : κ → Bool}
  {body : Heap κ σ → κ → Slot κ σ → Option (Heap κ σ)}

/-- **A loop over the items of a mapping changes them all, or fails where one step does.** -/
theorem forItems_visited (hold : h.Holds (.dict o ks hks c)) (hsep : (Doc.dict o ks hks c).Separate)
    (hsub : ∀ k, (new k).labels ⊆ (c k).labels) (hslot : ∀ k, (new k).slot = (c k).slot)
    (hbody : ∀ k ∈ ks, ∀ h₁, h₁.Holds (c k) →
      Does (body h₁ k (c k).slot) h₁ (ok k) (c k) (new k)) :
    Does (h.forItems body o) h (ks.all ok) (.dict o ks hks c) (.dict o ks hks new) := by
  have hchild {k : κ} (hk : k ∈ ks) : (Doc.dict o ks hks c).child? (.key k) = some (c k) :=
    if_pos hk
  have hroot {k : κ} (hk : k ∈ ks) : o ∉ (c k).labels := hsep.root_notMem rfl (hchild hk)
  have hapart : ∀ k ∈ ks, ∀ j ∈ ks, j ≠ k → ∀ x ∈ (c k).labels, x ∉ (c j).labels :=
    fun k hk j hj hne x hx => hsep.notMem (hchild hk) (hchild hj)
      (fun heq => hne (Doc.Step.key.inj heq).symm) hx
  have hrun : if ks.all ok then
      ∃ h', ks.foldlM (fun h₁ k => ((h₁.get o).get? k).bind fun v => (body h₁ k v).bind fun h₂ =>
        if (h₂.get o).keys = (h.get o).keys then some h₂ else none) h = some h' ∧
          Visited h h' ks c new ks
      else ks.foldlM (fun h₁ k => ((h₁.get o).get? k).bind fun v => (body h₁ k v).bind fun h₂ =>
        if (h₂.get o).keys = (h.get o).keys then some h₂ else none) h = none :=
    foldlM_visited hks (fun k hk => (hold.2 k hk).2) hsub hapart fun k hk h₁ hframe hold₁ => by
        have hsame : h₁.get o = h.get o := hframe o fun j hj => hroot hj
        have hget : (h₁.get o).get? k = some (c k).slot := hsame ▸ (hold.2 k hk).1
        have hdoes := hbody k hk h₁ hold₁
        unfold Does at hdoes ⊢
        rw [hget, Option.bind_some]
        split_ifs at hdoes ⊢ with hok
        · obtain ⟨h₂, hrun, hchange⟩ := hdoes
          refine ⟨h₂, ?_, hchange⟩
          rw [hrun, Option.bind_some, if_pos]
          rw [hchange.frame o (hroot hk), hsame]
        · rw [hdoes, Option.bind_none]
  unfold Does forItems
  dsimp only
  rw [hold.1] at hrun ⊢
  split_ifs at hrun ⊢ with hall
  · obtain ⟨h', hrun, hv⟩ := hrun
    have hsame : h'.get o = h.get o := hv.frame o fun k hk => hroot hk
    refine ⟨h', hrun, ⟨?_, fun k hk => ⟨?_, hv.new k hk⟩⟩, hv.documents, fun x hx => ?_⟩
    · rw [hsame, hold.1]
    · rw [hsame, (hold.2 k hk).1, hslot]
    · exact hv.frame x fun k hk hxk => hx (Doc.mem_labels_dict.mpr (.inr ⟨k, hk, hxk⟩))
  · exact hrun

end

section

variable {h : Heap κ σ} {n : ℕ} {c new : ℕ → Doc (Address κ) κ σ} {ok : ℕ → Bool}
  {body : Heap κ σ → ℕ → Option (Heap κ σ)}

/-- **A loop over the items of a list changes them all, or fails where one step does.** -/
theorem foldlM_range_visited (hold : h.Holds (.list n c)) (hsep : (Doc.list n c).Separate)
    (hsub : ∀ i, (new i).labels ⊆ (c i).labels)
    (hbody : ∀ i < n, ∀ h₁, h₁.Holds (c i) → Does (body h₁ i) h₁ (ok i) (c i) (new i)) :
    Does ((List.range n).foldlM body h) h ((List.range n).all ok) (.list n c)
      (.list n new) := by
  have hchild {i : ℕ} (hi : i < n) : (Doc.list n c).child? (.index i) = some (c i) := if_pos hi
  have hapart : ∀ i ∈ List.range n, ∀ j ∈ List.range n, j ≠ i → ∀ x ∈ (c i).labels,
      x ∉ (c j).labels := fun i hi j hj hne x hx =>
    hsep.notMem (hchild (List.mem_range.mp hi)) (hchild (List.mem_range.mp hj))
      (fun heq => hne (Doc.Step.index.inj heq).symm) hx
  have hrun : if (List.range n).all ok then
      ∃ h', (List.range n).foldlM body h = some h' ∧
        Visited h h' (List.range n) c new (List.range n)
      else (List.range n).foldlM body h = none :=
    foldlM_visited List.nodup_range (fun i hi => hold i (List.mem_range.mp hi)) hsub hapart
    fun i hi h₁ _ hold₁ => hbody i (List.mem_range.mp hi) h₁ hold₁
  unfold Does
  split_ifs at hrun ⊢ with hall
  · obtain ⟨h', hrun, hv⟩ := hrun
    refine ⟨h', hrun, fun i hi => hv.new i (List.mem_range.mpr hi), hv.documents, fun x hx => ?_⟩
    exact hv.frame x fun i hi hxi =>
      hx (Doc.mem_labels_list.mpr ⟨i, List.mem_range.mp hi, hxi⟩)
  · exact hrun

end

end Heap

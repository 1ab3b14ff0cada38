import EpsCloud.Release.PatchedDocument

/-!
# What the derived inventory changes

A statement that `derived_inventory` accepts names the reviewed platform digest and has
each pinned package once.  The inventory is the predicate with three things changed: the
scoped npm names, the versions of the pinned packages, and every text that is the package
URL of one of these.

* `stages_of_run`: the run, taken apart.
* `Stages.isDerived`: the inventory, place by place.
-/

namespace EpsCloud

open Doc (Head Step Same)

variable {ι : Type} {quote unquote : Text → Text} {pins : Pins}

/-! ## The run -/

/-- What the pass over the components has found in the document. -/
structure PassFacts (quote : Text → Text) (pins : Pins) (t : Doc ι String Atom)
    (references : Dict Text Text) (found : List Text) : Prop where
  found : ∀ name ∈ found, ∃ i version purl, IsPatched pins t i name version purl
  unique : ∀ i j name version version' purl purl', IsPatched pins t i name version purl →
    IsPatched pins t j name version' purl' → i = j
  replaced : ∀ x x', references.get? x = some x' →
    ∃ i name version, IsPatched pins t i name version x ∧ repinned quote x version = some x'
  complete : ∀ i name version purl, IsPatched pins t i name version purl →
    (references.get? purl).isSome

theorem eq_of_filterMap_nodup {α β : Type} {f : α → Option β} {l : List α} {a a' : α} {b : β}
    (h : (l.filterMap f).Nodup) (ha : a ∈ l) (ha' : a' ∈ l) (hf : f a = some b)
    (hf' : f a' = some b) : a = a' := by
  by_contra hne
  have hpair := List.pairwise_filterMap.mp h
  have hsymm : Std.Symm fun a a' => ∀ b, f a = some b → ∀ b', f a' = some b' → b ≠ b' :=
    ⟨fun _ _ hr b hb b' hb' => (hr b' hb' b hb).symm⟩
  exact hpair.forall ha ha' hne b hf b hf' rfl

/-- The pass over a list of components. -/
theorem passFacts_of_pinRun {h : Heap String Atom} {t : Doc (Address String) String Atom} {n : ℕ}
    {c : ℕ → Doc (Address String) String Atom} {s : PinState}
    (hu : t.child? (.key "components") = some (.list n c))
    (hr : PinRun quote pins h n c (List.range n) s) :
    PassFacts quote pins t s.references s.found := by
  have hchild {i : ℕ} (hi : i < n) : (Doc.list n c).child? (.index i) = some (c i) := if_pos hi
  have hlt {i : ℕ} {name version purl : Text} (h : IsPatched pins t i name version purl) :
      i < n ∧ docPinned pins (c i) = some (name, version, purl) := by
    obtain ⟨u, d, hu', hd⟩ := h.exists_component
    cases Option.some.inj (hu.symm.trans hu')
    obtain ⟨hi, -⟩ := Option.ite_none_right_eq_some.mp hd
    exact ⟨hi, (isPatched_iff hu (hchild hi)).mp h⟩
  refine ⟨fun name hname => ?_, fun i j name version version' purl purl' hi hj => ?_,
    fun x x' hx => ?_, fun i name version purl hi => ?_⟩
  · rw [hr.found, List.mem_filterMap] at hname
    obtain ⟨i, hi, hname⟩ := hname
    obtain ⟨⟨name', version, purl⟩, hpinned, rfl⟩ := Option.map_eq_some_iff.mp hname
    exact ⟨i, version, purl, (isPatched_iff hu (hchild (List.mem_range.mp hi))).mpr hpinned⟩
  · have hnodup := hr.nodup
    rw [hr.found] at hnodup
    refine eq_of_filterMap_nodup hnodup (List.mem_range.mpr (hlt hi).1)
      (List.mem_range.mpr (hlt hj).1) (b := name) ?_ ?_
    · rw [(hlt hi).2]
      rfl
    · rw [(hlt hj).2]
      rfl
  · obtain ⟨i, hi, name, version, hpinned, hnew⟩ := hr.replaced x x' hx
    exact ⟨i, name, version,
      (isPatched_iff hu (hchild (List.mem_range.mp hi))).mpr hpinned, hnew⟩
  · exact hr.complete i (List.mem_range.mpr (hlt hi).1) name version purl (hlt hi).2

/-- A document without components to visit. -/
theorem passFacts_of_empty {t u : Doc ι String Atom} (hu : t.child? (.key "components") = some u)
    (hnone : ∀ s, u.child? s = none) : PassFacts quote pins t Dict.empty [] := by
  have hpatched {i : ℕ} {name version purl : Text} : ¬ IsPatched pins t i name version purl := by
    intro h
    obtain ⟨u', c, hu', hc⟩ := h.exists_component
    cases Option.some.inj (hu.symm.trans hu')
    exact Option.some_ne_none c (hc.symm.trans (hnone _))
  exact ⟨fun name hname => absurd hname List.not_mem_nil, fun _ _ _ _ _ _ _ h => absurd h hpatched,
    fun x x' hx => absurd hx (Option.some_ne_none x').symm, fun _ _ _ _ h => absurd h hpatched⟩

/-- **The pass over the components**: what it has found, and the document that it leaves. -/
theorem pass_of_run {h : Heap String Atom} {t u : Doc (Address String) String Atom}
    {slots : List (Slot String Atom)} {s : PinState} (hold : h.Holds t) (hsep : t.Separate)
    (hu : t.child? (.key "components") = some u) (hslots : componentSlots h u.slot = some slots)
    (hrun : slots.foldlM (pinComponent quote pins) ⟨h, Dict.empty, []⟩ = some s) :
    PassFacts quote pins t s.references s.found ∧
      Heap.Changed h s.heap t (withComponents pins t u) ∧ ∀ k, u.child? (.key k) = none := by
  -- A value without items leaves the memory as it is.
  have hempty (hs : some ⟨h, Dict.empty, []⟩ = some s) (hnone : ∀ s, u.child? s = none)
      (hnew : h.Holds (u.mapItems (patched pins))) :
      PassFacts quote pins t s.references s.found ∧
        Heap.Changed h s.heap t (withComponents pins t u) ∧ ∀ k, u.child? (.key k) = none := by
    cases Option.some.inj hs
    exact ⟨passFacts_of_empty hu hnone,
      ⟨holds_withComponents hold hsep hu hnew fun _ _ => rfl, rfl, fun _ _ => rfl⟩,
      fun k => hnone _⟩
  cases u with
  | scalar a =>
    obtain rfl : slots = [] := by
      cases a with
      | text x => exact (Option.some.inj (Option.ite_none_right_eq_some.mp hslots).2).symm
      | null => cases hslots
      | bool b => cases hslots
      | number l => cases hslots
    exact hempty hrun (fun _ => rfl) trivial
  | dict o ks hks c =>
    obtain ⟨hkeys, hnil⟩ := Option.ite_none_right_eq_some.mp hslots
    cases Option.some.inj hnil
    have hks' : ks = [] := (hold.child hu).1.symm.trans hkeys
    subst hks'
    refine hempty hrun (fun s => ?_) ⟨hkeys, fun k hk => absurd hk List.not_mem_nil⟩
    cases s with
    | key k => rfl
    | index i => rfl
  | list n c =>
    rw [Doc.slot, componentSlots, Option.some.injEq] at hslots
    rw [← hslots] at hrun
    have hr := pinComponents_run (hold.child hu) (hsep.child hu) hrun
    have hframe (o : Address String) (ho : o ∉ (Doc.list n c).labels) :
        s.heap.get o = h.get o :=
      hr.visited.frame o fun i hi hoi =>
        ho (Doc.mem_labels_list.mpr ⟨i, List.mem_range.mp hi, hoi⟩)
    have hnew : s.heap.Holds ((Doc.list n c).mapItems (patched pins)) := fun i hi =>
      hr.visited.new i (List.mem_range.mpr hi)
    exact ⟨passFacts_of_pinRun hu hr,
      ⟨holds_withComponents hold hsep hu hnew hframe, hr.visited.documents,
        fun o ho => hframe o fun ho' => ho (Doc.labels_child hu ho')⟩, fun k => rfl⟩

/-- The predicate that the attestation has, as a document in memory. -/
theorem predicate_inMemory {h : Heap String Atom} {v predicate : Slot String Atom}
    {t : Doc (Address String) String Atom} {statement : Dict String (Slot String Atom)}
    (hv : h.InMemory v t) (hdict : h.dict? v = some statement)
    (hpredicate : statement.get? "predicate" = some predicate) :
    ∃ p, t.child? (.key "predicate") = some p ∧ h.InMemory predicate p := by
  obtain ⟨o, rfl, rfl⟩ : ∃ o, v = .ref o ∧ h.get o = statement := by
    cases v with
    | scalar a => cases hdict
    | list n c => cases hdict
    | ref o => exact ⟨o, rfl, Option.some.inj hdict⟩
  have hstep := Heap.step_slot hv.holds (.key "predicate")
  rw [hv.slot, Heap.step, hpredicate] at hstep
  obtain ⟨p, hp, rfl⟩ := Option.map_eq_some_iff.mp hstep.symm
  exact ⟨p, hp, hv.child hp⟩

/-- The stages of a derivation from the predicate `p`: its scoped names are restored, its
components are patched, and every text is looked up in `references`. -/
structure Stages (quote unquote : Text → Text) (pins : Pins) (p : Doc ι String Atom)
    (references : Dict Text Text) (r : Doc Unit String Atom) : Prop where
  pass : ∃ found, PassFacts quote pins p references found ∧
    ∀ name ∈ pins.packages.keys, name ∈ found
  rebuilt : ∃ u, (normalized unquote p).child? (.key "components") = some u ∧
    (∀ k, u.child? (.key k) = none) ∧
    Same r ((withComponents pins (normalized unquote p) u).mapScalar (replaceAtom references))

theorem PassFacts.of_normalized {t : Doc ι String Atom} {references : Dict Text Text}
    {found : List Text} (hpass : PassFacts quote pins (normalized unquote t) references found) :
    PassFacts quote pins t references found := by
  obtain ⟨hfound, hunique, hreplaced, hcomplete⟩ := hpass
  simp only [isPatched_normalized] at hfound hunique hreplaced hcomplete
  exact ⟨hfound, hunique, hreplaced, hcomplete⟩

/-- **The run, taken apart**: it goes through the stages for a copy of the predicate, and leaves
what was in memory. -/
theorem stages_of_run {h h' : Heap String Atom} {v : Slot String Atom} {limit : ℕ}
    {t : Doc (Address String) String Atom} {r : Doc Unit String Atom} (hv : h.InMemory v t)
    (hrun : derivedInventory quote unquote limit h v pins = some (h', r)) :
    ∃ (p p' : Doc (Address String) String Atom) (references : Dict Text Text),
      t.child? (.key "predicate") = some p ∧ Same p' p ∧
        Stages quote unquote pins p' references r ∧ h'.InMemory v t := by
  obtain ⟨statement, hstatement, hrun⟩ := Option.bind_eq_some_iff.mp hrun
  obtain ⟨-, hrun⟩ := Option.ite_none_right_eq_some.mp hrun
  obtain ⟨predicate, hpredicate, hrun⟩ := Option.bind_eq_some_iff.mp hrun
  obtain ⟨normal, hnormal, hrun⟩ := Option.bind_eq_some_iff.mp hrun
  obtain ⟨slots, hslots, hrun⟩ := Option.bind_eq_some_iff.mp hrun
  obtain ⟨s, hs, hrun⟩ := Option.bind_eq_some_iff.mp hrun
  obtain ⟨⟨hfound, hfits⟩, hend⟩ := Option.ite_none_right_eq_some.mp hrun
  cases Option.some.inj hend
  obtain ⟨p, hp, hpm⟩ := predicate_inMemory hv hstatement hpredicate
  have hcopy := Heap.inMemory_copy hpm
  have hsep := Heap.separate_placed p h.documents []
  rw [← hcopy.slot] at hnormal hslots hfits ⊢
  obtain ⟨-, hnormal⟩ := (normalize_does limit hcopy.holds hsep).of_some hnormal
  obtain ⟨w, hw, hslots⟩ := Option.bind_eq_some_iff.mp hslots
  have hstep := Heap.step_slot hnormal.holds (.key "components")
  rw [slot_normalized, hw] at hstep
  obtain ⟨u, hu, rfl⟩ := Option.map_eq_some_iff.mp hstep.symm
  have hsep' : (normalized unquote (p.placed h.documents [])).Separate :=
    hsep.of_labelAt fun q o hq => labelAt_normalized hq
  obtain ⟨hpass, hchange, hitems⟩ := pass_of_run hnormal.holds hsep' hu hslots hs
  have hslot : (withComponents pins (normalized unquote (p.placed h.documents [])) u).slot =
      (p.placed h.documents []).slot := by
    rw [withComponents, Heap.slot_setKey, slot_normalized]
  refine ⟨p, p.placed h.documents [], s.references, hp, Heap.same_placed p h.documents [],
    ⟨⟨s.found, hpass.of_normalized, hfound⟩, u, hu, hitems, ?_⟩, ?_⟩
  · rw [← hslot] at hfits ⊢
    exact replace_same hchange.holds hfits
  · refine (hnormal.trans hchange (labels_normalized _)).inMemory (hv.copy predicate) ?_
    intro o ho ho'
    exact (hv.made o ho).ne (Heap.made_placed ho')

/-! ## Place by place -/

/-- A scalar, with its text changed if it has one. -/
def renamed (f : Text → Text) : Atom → Atom
  | .text x => .text (f x)
  | a => a

/-- The inventory `r` is the predicate `p` with the names of scoped packages restored, with the
versions of the pinned packages set, and then with every text changed by `f`. -/
structure IsDerived (quote unquote : Text → Text) (pins : Pins) (p : Doc ι String Atom)
    (f : Text → Text) (r : Doc Unit String Atom) : Prop where
  /-- Each pinned package is one component of the predicate. -/
  once : ∀ name ∈ pins.packages.keys, ∃! i, ∃ version purl, IsPatched pins p i name version purl
  /-- The package URL of a patched component gets the pinned version of such a component. -/
  moved : ∀ i name version purl, IsPatched pins p i name version purl →
    ∃ j name' version', IsPatched pins p j name' version' purl ∧
      repinned quote purl version' = some (f purl)
  /-- No other text is replaced. -/
  kept : ∀ x, (∀ i name version, ¬ IsPatched pins p i name version x) → f x = x
  /-- The version of a patched component, and what is below it. -/
  version : ∀ i name version purl, IsPatched pins p i name version purl →
    ∀ q, r.look (componentPath i ++ .key "version" :: q) =
      (.scalar (.text (f version)) : Doc Unit String Atom).look q
  /-- The names of a mapping with a scoped package URL. -/
  names : ∀ q u scope name, p.at? q = some u → scopedAt unquote u = some (scope, name) →
    ¬ IsVersion pins p q →
    r.look (q ++ [.key "group"]) = some (.scalar (.text scope)) ∧
      r.look (q ++ [.key "name"]) = some (.scalar (.text name))
  /-- Every other place. -/
  other : ∀ q, ¬ IsRestored unquote p q → ¬ IsVersion pins p q →
    r.look q = (p.look q).map (Head.map (renamed f))

theorem replaceAtom_eq_renamed (references : Dict Text Text) :
    replaceAtom references = renamed fun x => (references.get? x).getD x := by
  funext a
  cases a <;> rfl

theorem slash_mem_of_debian {x : Text} (hdebian : debianScheme <+: x) : '/' ∈ x :=
  hdebian.subset (by decide)

theorem isVersion_normalized {p : Doc ι String Atom} {q : List (Step String)} :
    IsVersion pins (normalized unquote p) q ↔ IsVersion pins p q := by
  simp only [IsVersion, isPatched_normalized]

theorem isVersion_of_append {p : Doc ι String Atom} {q : List (Step String)} {k : String}
    (hk : k ≠ "version") (h : IsVersion pins p (q ++ [.key k])) : IsVersion pins p q := by
  obtain ⟨i, name, version, purl, q', hpatched, hq⟩ := h
  rcases List.eq_nil_or_concat q' with rfl | ⟨q', s, rfl⟩
  · exact absurd (Step.key.inj (List.singleton_inj.mp (List.append_inj_right' hq rfl))) hk
  · rw [List.concat_eq_append, ← List.cons_append, ← List.append_assoc] at hq
    exact ⟨i, name, version, purl, q', hpatched, List.append_inj_left' hq rfl⟩

/-- **What the stages leave.** -/
theorem Stages.isDerived {p : Doc ι String Atom} {references : Dict Text Text}
    {r : Doc Unit String Atom} (hs : Stages quote unquote pins p references r) :
    IsDerived quote unquote pins p (fun x => (references.get? x).getD x) r := by
  obtain ⟨⟨found, hpass, hall⟩, u, hu, hitems, hsame⟩ := hs
  have hlook (q : List (Step String)) : r.look q = ((withComponents pins (normalized unquote p)
      u).look q).map (Head.map (renamed fun x => (references.get? x).getD x)) := by
    rw [hsame q, Doc.look_mapScalar, replaceAtom_eq_renamed]
  have hkept (x : Text) (hx : ∀ i name version, ¬ IsPatched pins p i name version x) :
      (references.get? x).getD x = x := by
    cases hget : references.get? x with
    | none => rfl
    | some x' =>
      obtain ⟨i, name, version, hpatched, -⟩ := hpass.replaced x x' hget
      exact absurd hpatched (hx i name version)
  have hnoSlash (x : Text) (hx : '/' ∉ x) : (references.get? x).getD x = x :=
    hkept x fun i name version h => hx (slash_mem_of_debian h.debian)
  refine ⟨fun name hname => ?_, fun i name version purl h => ?_, hkept,
    fun i name version purl h q => ?_, fun q w scope name hw hscoped hq => ?_,
    fun q hrestored hversion => ?_⟩
  · obtain ⟨i, version, purl, h⟩ := hpass.found name (hall name hname)
    exact ⟨i, ⟨version, purl, h⟩, fun j ⟨version', purl', h'⟩ =>
      hpass.unique j i name version' version purl' purl h' h⟩
  · obtain ⟨x', hx'⟩ := Option.isSome_iff_exists.mp (hpass.complete i name version purl h)
    obtain ⟨j, name', version', h', hnew⟩ := hpass.replaced purl x' hx'
    exact ⟨j, name', version', h', by rw [hnew, hx', Option.getD_some]⟩
  · rw [hlook, look_withComponents_version hu (isPatched_normalized.mpr h)]
    cases q <;> rfl
  · obtain ⟨purl, identity, -, -, hsc⟩ := exists_of_scopedAt hscoped
    obtain ⟨hgroup, hname⟩ := look_normalized_names hw hscoped
    have hother (k : String) (hk : k ≠ "version") :
        ¬ IsVersion pins (normalized unquote p) (q ++ [.key k]) := fun h =>
      hq (isVersion_of_append hk (isVersion_normalized.mp h))
    rw [hlook, hlook, look_withComponents_of_other hu hitems (hother _ (by decide)),
      look_withComponents_of_other hu hitems (hother _ (by decide)), hgroup, hname]
    simp only [Option.map_some, Head.map, renamed]
    rw [hnoSlash scope (hsc.scope_eq ▸ notMem_beforeFirst '/' _), hnoSlash name hsc.noSlash]
    exact ⟨rfl, rfl⟩
  · rw [hlook, look_withComponents_of_other hu hitems (fun h =>
      hversion (isVersion_normalized.mp h)), look_normalized_of_other hrestored]

/-- What holds of a document holds of one that is the same. -/
theorem IsDerived.congr {ι' : Type} {p : Doc ι String Atom} {p' : Doc ι' String Atom}
    {f : Text → Text} {r : Doc Unit String Atom} (hsame : Same p p')
    (h : IsDerived quote unquote pins p f r) : IsDerived quote unquote pins p' f r := by
  have hback {i : ℕ} {name version purl : Text} (h' : IsPatched pins p' i name version purl) :
      IsPatched pins p i name version purl := h'.congr hsame.symm
  refine ⟨fun name hname => ?_, fun i name version purl hi => ?_, fun x hx => ?_,
    fun i name version purl hi => h.version i name version purl (hback hi),
    fun q u scope name hu hs hq => ?_, fun q hr hv => ?_⟩
  · obtain ⟨i, ⟨version, purl, hi⟩, hunique⟩ := h.once name hname
    exact ⟨i, ⟨version, purl, hi.congr hsame⟩, fun j ⟨version', purl', hj⟩ =>
      hunique j ⟨version', purl', hback hj⟩⟩
  · obtain ⟨j, name', version', hj, hnew⟩ := h.moved i name version purl (hback hi)
    exact ⟨j, name', version', hj.congr hsame, hnew⟩
  · exact h.kept x fun i name version hi => hx i name version (hi.congr hsame)
  · obtain ⟨u', hu', hsame'⟩ := hsame.symm.exists_at hu
    exact h.names q u' scope name hu' (scopedAt_congr hsame' ▸ hs) fun hv =>
      hq (hv.congr hsame)
  · rw [h.other q (fun hr' => hr (hr'.congr hsame)) fun hv' => hv (hv'.congr hsame), hsame q]

end EpsCloud

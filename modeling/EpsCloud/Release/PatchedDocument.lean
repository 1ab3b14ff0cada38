import EpsCloud.Release.PinnedPackages

/-!
# The patched document

After the pass over its components the copied document is the normalised one with the
patched components in place, and `replace` rebuilds it with every text looked up.

* `replace_same`: the rebuilt document, when the bound on the calls is enough.
* `holds_withComponents`: the document after the pass.
* `look_withComponents_version`, `look_withComponents_of_other`: what it says, place by place.
-/

namespace EpsCloud

open Doc (Head Step Same)

variable {ι : Type} {quote : Text → Text} {pins : Pins}

/-! ## Rebuilding -/

theorem replace_same {references : Dict Text Text} {h : Heap String Atom} {depth : ℕ}
    {t : Doc (Address String) String Atom} (hold : h.Holds t) (hfits : fits h depth t.slot) :
    Same (replace references h depth t.slot) (t.mapScalar (replaceAtom references)) := by
  induction depth generalizing t with
  | zero => cases hfits
  | succ depth ih =>
    cases t with
    | scalar a => intro p; cases p <;> rfl
    | list n c =>
      rw [Doc.slot, fits, List.all_eq_true] at hfits
      exact Doc.same_list fun i hi => ih (hold i hi) (hfits i (List.mem_range.mpr hi))
    | dict o ks hks c =>
      rw [Doc.slot, fits, List.all_eq_true] at hfits
      refine Doc.same_dict (fun k => by rw [hold.1]) fun k hk => ?_
      obtain ⟨hget, hc⟩ := hold.2 k (hold.1 ▸ hk)
      rw [hget]
      exact ih hc (hfits _ (Dict.mem_entries_of_get? hget))

/-! ## The components in the document -/

/-- The document with its components patched. -/
def withComponents (pins : Pins) (t u : Doc ι String Atom) : Doc ι String Atom :=
  t.setKey "components" (u.mapItems (patched pins))

theorem slot_mapItems_patched (u : Doc (Address String) String Atom) :
    (u.mapItems (patched pins)).slot = u.slot := by
  cases u with
  | scalar a => rfl
  | list n c => exact congrArg (Slot.list n) (funext fun i => slot_patched (c i))
  | dict o ks hks c => rfl

/-- **What the pass leaves in memory**: the document with its components patched. -/
theorem holds_withComponents {h h' : Heap String Atom} {t u : Doc (Address String) String Atom}
    (hold : h.Holds t) (hsep : t.Separate) (hu : t.child? (.key "components") = some u)
    (hnew : h'.Holds (u.mapItems (patched pins))) (hframe : ∀ o ∉ u.labels, h'.get o = h.get o) :
    h'.Holds (withComponents pins t u) := by
  cases t with
  | scalar a => cases hu
  | list n c => cases hu
  | dict o ks hks c =>
    have hk : "components" ∈ ks := (Option.ite_none_right_eq_some.mp hu).1
    have hroot : h'.get o = h.get o := hframe o (hsep.root_notMem rfl hu)
    refine ⟨?_, fun k hks' => ?_⟩
    · rw [hroot, hold.1]
      simp [hk]
    · have hkks : k ∈ ks := by
        rcases Doc.mem_append_filter.mp hks' with h | h
        · exact h
        · exact List.mem_singleton.mp h ▸ hk
      rw [hroot]
      rcases eq_or_ne k "components" with rfl | hne
      · have hcu : c "components" = u :=
          Option.some.inj (Option.ite_none_right_eq_some.mp hu).2
        rw [Function.update_self, slot_mapItems_patched, ← hcu]
        exact ⟨(hold.2 _ hk).1, hcu ▸ hnew⟩
      · rw [Function.update_of_ne hne]
        refine ⟨(hold.2 k hkks).1, (hold.2 k hkks).2.congr fun x hx => hframe x fun hxu => ?_⟩
        have hck : (Doc.dict o ks hks c).child? (.key k) = some (c k) := if_pos hkks
        exact hsep.notMem hu hck (fun heq => hne (Step.key.inj heq).symm) hxu hx

/-! ## Patched components -/

/-- The place of a component. -/
def componentPath (i : ℕ) : List (Step String) := [.key "components", .index i]

/-- The component is a pinned Debian package, with this package URL. -/
structure IsPatched (pins : Pins) (t : Doc ι String Atom) (i : ℕ) (name version purl : Text) :
    Prop where
  named : t.look (componentPath i ++ [.key "name"]) = some (.scalar (.text name))
  pinned : pins.packages.get? name = some version
  located : t.look (componentPath i ++ [.key "purl"]) = some (.scalar (.text purl))
  debian : debianScheme <+: purl

theorem debian_of_purlOf {view : View} {purl : Text} (h : purlOf view = some purl)
    (hdebian : debianScheme <+: purl) :
    view "purl" = some (.scalar (.text purl)) := by
  unfold purlOf at h
  split at h
  · cases h
    exact absurd (List.prefix_nil.mp hdebian) (by decide)
  · next hview => rw [hview, Option.some.inj h]
  · cases h

theorem docPinned_eq_some_iff {c : Doc ι String Atom} {name version purl : Text} :
    docPinned pins c = some (name, version, purl) ↔
      docView c "name" = some (.scalar (.text name)) ∧ pins.packages.get? name = some version ∧
        docView c "purl" = some (.scalar (.text purl)) ∧
        debianScheme <+: purl := by
  constructor
  · intro h
    unfold docPinned pinnedAs at h
    split at h
    · cases h
    · cases h
    · next name' hname =>
      cases hversion : pins.packages.get? name' with
      | none => rw [hversion] at h; cases h
      | some version' =>
        cases hpurl : purlOf (docView c) with
        | none => rw [hversion, hpurl] at h; cases h
        | some purl' =>
          rw [hversion, hpurl] at h
          dsimp only [Option.map_some, Option.getD_some] at h
          split_ifs at h with hdebian
          cases h
          exact ⟨hname, hversion, debian_of_purlOf hpurl hdebian, hdebian⟩
    · cases h
  · rintro ⟨hname, hversion, hpurl, hdebian⟩
    have hurl : purlOf (docView c) = some purl := by rw [purlOf, hpurl]
    rw [docPinned, pinnedAs, hname]
    dsimp only
    rw [hversion, hurl]
    dsimp only [Option.map_some, Option.getD_some]
    rw [if_pos hdebian]

theorem isPatched_iff {t u c : Doc ι String Atom} {i : ℕ} {name version purl : Text}
    (hu : t.child? (.key "components") = some u) (hc : u.child? (.index i) = some c) :
    IsPatched pins t i name version purl ↔ docPinned pins c = some (name, version, purl) := by
  have hview (k : String) : t.look (componentPath i ++ [.key k]) = docView c k := by
    rw [componentPath, List.cons_append, List.cons_append, Doc.look_cons, hu, Option.bind_some,
      Doc.look_cons, hc]
    rfl
  rw [docPinned_eq_some_iff, ← hview, ← hview]
  constructor
  · exact fun h => ⟨h.named, h.pinned, h.located, h.debian⟩
  · rintro ⟨h₁, h₂, h₃, h₄⟩
    exact ⟨h₁, h₂, h₃, h₄⟩

theorem IsPatched.exists_component {t : Doc ι String Atom} {i : ℕ} {name version purl : Text}
    (h : IsPatched pins t i name version purl) :
    ∃ u c, t.child? (.key "components") = some u ∧ u.child? (.index i) = some c := by
  have hname := h.named
  rw [componentPath, List.cons_append, List.cons_append, Doc.look_cons] at hname
  obtain ⟨u, hu, hname⟩ := Option.bind_eq_some_iff.mp hname
  rw [Doc.look_cons] at hname
  obtain ⟨c, hc, -⟩ := Option.bind_eq_some_iff.mp hname
  exact ⟨u, c, hu, hc⟩

theorem IsPatched.congr {ι' : Type} {t : Doc ι String Atom} {t' : Doc ι' String Atom} {i : ℕ}
    {name version purl : Text} (hsame : Same t t') (h : IsPatched pins t i name version purl) :
    IsPatched pins t' i name version purl :=
  ⟨(hsame _).symm.trans h.named, h.pinned, (hsame _).symm.trans h.located, h.debian⟩

/-! ## Place by place -/

/-- The place is the version of a patched component, or is below it. -/
def IsVersion (pins : Pins) (t : Doc ι String Atom) (p : List (Step String)) : Prop :=
  ∃ i name version purl q, IsPatched pins t i name version purl ∧
    p = componentPath i ++ .key "version" :: q

theorem isDict_of_docPinned {c : Doc ι String Atom} {p : Text × Text × Text}
    (h : docPinned pins c = some p) : c.isDict := by
  cases c with
  | scalar a => cases h
  | list n c => cases h
  | dict o ks hks c => rfl

theorem look_patched {c : Doc ι String Atom} {name version purl : Text}
    (h : docPinned pins c = some (name, version, purl)) (s : Step String)
    (p : List (Step String)) :
    (patched pins c).look (s :: p) =
      if s = .key "version" then (.scalar (.text version) : Doc ι String Atom).look p
      else c.look (s :: p) := by
  rw [patched, h]
  dsimp only
  rw [Doc.look_cons, Doc.child?_setKey]
  simp only [isDict_of_docPinned h, true_and]
  split_ifs
  · rfl
  · rw [Doc.look_cons]

theorem look_withComponents {t u : Doc ι String Atom}
    (hu : t.child? (.key "components") = some u) (s : Step String) (p : List (Step String)) :
    (withComponents pins t u).look (s :: p) =
      if s = .key "components" then (u.mapItems (patched pins)).look p else t.look (s :: p) := by
  have hdict : t.isDict := by
    cases t with
    | scalar a => cases hu
    | list n c => cases hu
    | dict o ks hks c => rfl
  rw [withComponents, Doc.look_cons, Doc.child?_setKey]
  simp only [hdict, true_and]
  split_ifs
  · rfl
  · rw [Doc.look_cons]

/-- **The version of a patched component is the pinned one.** -/
theorem look_withComponents_version {t u : Doc ι String Atom} {i : ℕ} {name version purl : Text}
    (hu : t.child? (.key "components") = some u) (h : IsPatched pins t i name version purl)
    (q : List (Step String)) :
    (withComponents pins t u).look (componentPath i ++ .key "version" :: q) =
      (.scalar (.text version) : Doc ι String Atom).look q := by
  obtain ⟨u', c, hu', hc⟩ := h.exists_component
  cases Option.some.inj (hu.symm.trans hu')
  have hpinned := (isPatched_iff hu hc).mp h
  rw [componentPath, List.cons_append, List.cons_append, look_withComponents hu, if_pos rfl,
    Doc.look_cons, Doc.child?_mapItems, hc, Option.map_some, Option.bind_some, List.nil_append,
    look_patched hpinned, if_pos rfl]

theorem head_patched (c : Doc ι String Atom) : (patched pins c).head = c.head := by
  unfold patched
  split
  · rfl
  · exact Doc.head_setKey ..

/-- **The pass changes nothing else.** -/
theorem look_withComponents_of_other {t u : Doc ι String Atom} {p : List (Step String)}
    (hu : t.child? (.key "components") = some u) (hitems : ∀ k, u.child? (.key k) = none)
    (hp : ¬ IsVersion pins t p) : (withComponents pins t u).look p = t.look p := by
  cases p with
  | nil => rw [Doc.look_nil, Doc.look_nil, withComponents, Doc.head_setKey]
  | cons s p =>
    rw [look_withComponents hu]
    split_ifs with hs
    · rw [hs, Doc.look_cons, hu, Option.bind_some]
      cases p with
      | nil => rw [Doc.look_nil, Doc.look_nil, Doc.head_mapItems]
      | cons s' p =>
        rw [Doc.look_cons, Doc.look_cons, Doc.child?_mapItems]
        cases hc : u.child? s' with
        | none => rfl
        | some c =>
          rw [Option.map_some, Option.bind_some, Option.bind_some]
          cases s' with
          | key k => exact absurd (hc.symm.trans (hitems k)) (Option.some_ne_none c)
          | index i =>
            cases hpinned : docPinned pins c with
            | none => rw [patched, hpinned]
            | some found =>
              obtain ⟨name, version, purl⟩ := found
              cases p with
              | nil => rw [Doc.look_nil, Doc.look_nil, head_patched]
              | cons s'' p =>
                rw [look_patched hpinned, if_neg]
                rintro rfl
                refine hp ⟨i, name, version, purl, p, (isPatched_iff hu hc).mpr hpinned, ?_⟩
                rw [hs]
                rfl
    · rfl

/-! ## Normalising keeps the patched components -/

theorem head?_of_npmIdentity {unquote : Text → Text} {purl identity : Text}
    (h : npmIdentity unquote purl = some identity) : npmScheme <+: purl := by
  unfold npmIdentity at h
  split_ifs at h with hs
  exact hs

theorem not_npm_of_debian {purl : Text} (hdebian : debianScheme <+: purl) :
    ¬ npmScheme <+: purl := fun hnpm =>
  absurd (List.prefix_of_prefix_length_le hnpm hdebian (by decide)) (by decide)

/-- A mapping with the package URL of a Debian package has no scoped name. -/
theorem scopedAt_of_debian {unquote : Text → Text} {t : Doc ι String Atom} {purl : Text}
    (hpurl : docView t "purl" = some (.scalar (.text purl))) (hdebian : debianScheme <+: purl) :
    scopedAt unquote t = none := by
  cases hs : scopedAt unquote t with
  | none => rfl
  | some names =>
    obtain ⟨purl', identity, hpurl', hi, -⟩ := exists_of_scopedAt hs
    have heq : purlOf (docView t) = some purl := by rw [purlOf, hpurl]
    cases Option.some.inj (heq.symm.trans hpurl')
    exact absurd (head?_of_npmIdentity hi) (not_npm_of_debian hdebian)

theorem not_isRestored_of_last {unquote : Text → Text} {t : Doc ι String Atom}
    {q : List (Step String)} {s : Step String} (hgroup : s ≠ .key "group")
    (hname : s ≠ .key "name") : ¬ IsRestored unquote t (q ++ [s]) := by
  rintro ⟨q', u, -, -, hq | hq⟩
  · exact hgroup (List.singleton_inj.mp (List.append_inj_right' hq rfl))
  · exact hname (List.singleton_inj.mp (List.append_inj_right' hq rfl))

/-- The name of a mapping with the package URL of a Debian package is not restored. -/
theorem not_isRestored_of_debian {unquote : Text → Text} {t : Doc ι String Atom}
    {q : List (Step String)} {purl : Text}
    (hpurl : t.look (q ++ [.key "purl"]) = some (.scalar (.text purl)))
    (hdebian : debianScheme <+: purl) : ¬ IsRestored unquote t (q ++ [.key "name"]) := by
  rintro ⟨q', u, hu, hsome, hq | hq⟩
  · exact absurd (List.append_inj_right' hq rfl) (by decide)
  · rw [← List.append_inj_left' hq rfl] at hu
    rw [Doc.look_append, hu] at hpurl
    rw [scopedAt_of_debian hpurl hdebian] at hsome
    cases hsome

/-- **The patched components are those of the document before it is normalised.** -/
theorem isPatched_normalized {unquote : Text → Text} {t : Doc ι String Atom} {i : ℕ}
    {name version purl : Text} :
    IsPatched pins (normalized unquote t) i name version purl ↔
      IsPatched pins t i name version purl := by
  have hpurl : (normalized unquote t).look (componentPath i ++ [.key "purl"]) =
      t.look (componentPath i ++ [.key "purl"]) :=
    look_normalized_of_other (not_isRestored_of_last (by decide) (by decide))
  constructor
  · rintro ⟨h₁, h₂, h₃, h₄⟩
    rw [hpurl] at h₃
    rw [look_normalized_of_other (not_isRestored_of_debian h₃ h₄)] at h₁
    exact ⟨h₁, h₂, h₃, h₄⟩
  · rintro ⟨h₁, h₂, h₃, h₄⟩
    exact ⟨(look_normalized_of_other (not_isRestored_of_debian h₃ h₄)).trans h₁, h₂,
      hpurl.trans h₃, h₄⟩

/-! ## Documents that are the same -/

section

variable {ι' : Type} {unquote : Text → Text} {t : Doc ι String Atom} {t' : Doc ι' String Atom}

theorem scopedAt_congr (hsame : Same t t') : scopedAt unquote t = scopedAt unquote t' := by
  have hview : docView t = docView t' := funext fun k => hsame [.key k]
  rw [scopedAt, scopedAt, hview]

theorem IsRestored.congr {q : List (Step String)} (hsame : Same t t')
    (h : IsRestored unquote t q) : IsRestored unquote t' q := by
  obtain ⟨p, u, hu, hsome, hq⟩ := h
  obtain ⟨u', hu', hsame'⟩ := hsame.exists_at hu
  exact ⟨p, u', hu', scopedAt_congr hsame' ▸ hsome, hq⟩

theorem IsVersion.congr {q : List (Step String)} (hsame : Same t t') (h : IsVersion pins t q) :
    IsVersion pins t' q := by
  obtain ⟨i, name, version, purl, p, hpatched, hq⟩ := h
  exact ⟨i, name, version, purl, p, hpatched.congr hsame, hq⟩

end

end EpsCloud

import EpsCloud.Release.PackageUrls

/-!
# The derived inventory is exact

What `derived_inventory` returns is determined place by place.  It follows that the
components keep their order, that a pinned package is one component of the inventory, and
that references to components still name one, because a reference and a `bom-ref` are
changed alike.

* `derivedInventory_exact`: the inventory, and the attestation that it is derived from.
* `version_and_name_replaced`: a pinned version and a name that are themselves replaced.
-/

namespace EpsCloud

open Doc (Head Step Same)

variable {ι : Type} {quote unquote : Text → Text} {pins : Pins} {p : Doc ι String Atom}
  {f : Text → Text} {r : Doc Unit String Atom}

/-! ## Pinned packages in the inventory -/

/-- The component is a Debian package with this name. -/
def IsDebian (t : Doc ι String Atom) (i : ℕ) (name : Text) : Prop :=
  t.look (componentPath i ++ [.key "name"]) = some (.scalar (.text name)) ∧
    ∃ purl, t.look (componentPath i ++ [.key "purl"]) = some (.scalar (.text purl)) ∧
      debianScheme <+: purl

theorem not_isVersion_of_ne {q : List (Step String)} {i : ℕ} {k : String} (hk : k ≠ "version") :
    ¬ IsVersion pins p (componentPath i ++ .key k :: q) := by
  rintro ⟨j, name, version, purl, q', -, hq⟩
  simp only [componentPath, List.cons_append, List.nil_append, List.cons.injEq, Step.key.injEq]
    at hq
  exact hk hq.2.2.1

/-- A text that is changed is replaced by the package URL of a Debian package. -/
theorem IsDerived.debian_of_ne (h : IsDerived quote unquote pins p f r) {x : Text}
    (hx : f x ≠ x) : ∃ i name version, IsPatched pins p i name version x ∧
      debianScheme <+: f x := by
  by_contra hnone
  refine hx (h.kept x fun i name version hi => hnone ⟨i, name, version, hi, ?_⟩)
  obtain ⟨j, name', version', hj, hnew⟩ := h.moved i name version x hi
  exact debian_of_repinned hi.debian hnew

/-- A text of the inventory is the text of the predicate there, changed. -/
theorem exists_of_renamed {a : Option (Head Atom)} {y : Text}
    (hy : a.map (Head.map (renamed f)) = some (.scalar (.text y))) :
    ∃ x, a = some (.scalar (.text x)) ∧ f x = y := by
  obtain ⟨head, rfl, hy⟩ := Option.map_eq_some_iff.mp hy
  cases head with
  | list n => cases hy
  | dict => cases hy
  | scalar s =>
    cases s with
    | text x =>
      cases hy
      exact ⟨x, rfl, rfl⟩
    | null => cases hy
    | bool b => cases hy
    | number l => cases hy

/-- **A pinned package is one component of the inventory**, when its name is neither a text
that is replaced nor a replacement. -/
theorem IsDerived.once_in (h : IsDerived quote unquote pins p f r) {name : Text}
    (hname : name ∈ pins.packages.keys)
    (hplain : ∀ i m version x, IsPatched pins p i m version x → x ≠ name ∧ f x ≠ name) :
    ∃! i, IsDebian r i name := by
  have hpurl (i : ℕ) := h.other (componentPath i ++ [.key "purl"])
    (not_isRestored_of_last (by decide) (by decide)) (not_isVersion_of_ne (by decide))
  have hsame (x : Text) (hx : f x = name ∨ x = name) : f x = name ∧ x = name := by
    by_cases heq : f x = x
    · rw [heq] at hx ⊢
      exact ⟨hx.elim id id, hx.elim id id⟩
    · obtain ⟨i, m, version, hi, -⟩ := h.debian_of_ne heq
      obtain ⟨hold, hnew⟩ := hplain i m version x hi
      exact hx.elim (fun hx => absurd hx hnew) fun hx => absurd hx hold
  obtain ⟨i, ⟨version, purl, hi⟩, hunique⟩ := h.once name hname
  refine ⟨i, ⟨?_, f purl, ?_, ?_⟩, fun j hj => ?_⟩
  · rw [h.other _ (not_isRestored_of_debian hi.located hi.debian)
      (not_isVersion_of_ne (by decide)), hi.named]
    simp only [Option.map_some, Head.map, renamed, (hsame name (.inr rfl)).1]
  · rw [hpurl, hi.located]
    rfl
  · obtain ⟨j, name', version', -, hnew⟩ := h.moved i name version purl hi
    exact debian_of_repinned hi.debian hnew
  · obtain ⟨hjname, purl', hjpurl, hjdebian⟩ := hj
    rw [hpurl] at hjpurl
    obtain ⟨x, hx, hfx⟩ := exists_of_renamed hjpurl
    have hdebian : debianScheme <+: x := by
      by_cases heq : f x = x
      · rwa [← heq, hfx]
      · obtain ⟨i', m, version', hi', -⟩ := h.debian_of_ne heq
        exact hi'.debian
    rw [h.other _ (not_isRestored_of_debian hx hdebian)
      (not_isVersion_of_ne (by decide))] at hjname
    obtain ⟨y, hy, hfy⟩ := exists_of_renamed hjname
    rw [(hsame y (.inl hfy)).2] at hy
    exact hunique j ⟨version, x, hy, hi.pinned, hx, hdebian⟩

/-- The components are as many as in the predicate. -/
theorem IsDerived.look_components (h : IsDerived quote unquote pins p f r) :
    r.look [.key "components"] = p.look [.key "components"] := by
  have hversion : ¬ IsVersion pins p [.key "components"] := by
    rintro ⟨i, name, version, purl, q, -, hq⟩
    cases hq
  have hrestored : ¬ IsRestored unquote p ([] ++ [.key "components"]) :=
    not_isRestored_of_last (by decide) (by decide)
  rw [h.other [.key "components"] hrestored hversion]
  cases hlook : p.look [.key "components"] with
  | none => rfl
  | some head =>
    cases head with
    | list n => rfl
    | dict => rfl
    | scalar a =>
      cases a with
      | text x =>
        -- A predicate with a text for its components has no patched one.
        have hx : f x = x := h.kept x fun i name version hi => by
          obtain ⟨u, c, hu, hc⟩ := hi.exists_component
          rw [Doc.look_cons, hu, Option.bind_some, Doc.look_nil] at hlook
          cases u with
          | scalar s => cases hc
          | list n c => cases hlook
          | dict o ks hks c => cases hlook
        simp only [Option.map_some, Head.map, renamed, hx]
      | null => rfl
      | bool b => rfl
      | number l => rfl

/-! ## References -/

/-- The places of components: the main one, those of the document, and those of a component. -/
inductive IsComponentPath : List (Step String) → Prop
  | main : IsComponentPath [.key "metadata", .key "component"]
  | top (i : ℕ) : IsComponentPath (componentPath i)
  | nested (q : List (Step String)) (i : ℕ) (hq : IsComponentPath q) :
    IsComponentPath (q ++ componentPath i)

/-- The text is the `bom-ref` of a component. -/
def IsBomRef (t : Doc ι String Atom) (x : Text) : Prop :=
  ∃ q, IsComponentPath q ∧ t.look (q ++ [.key "bom-ref"]) = some (.scalar (.text x))

/-- The text refers to a component in the dependencies. -/
def IsReference (t : Doc ι String Atom) (x : Text) : Prop :=
  ∃ i, t.look [.key "dependencies", .index i, .key "ref"] = some (.scalar (.text x)) ∨
    ∃ j, t.look [.key "dependencies", .index i, .key "dependsOn", .index j] =
      some (.scalar (.text x))

theorem not_isVersion_of_isComponentPath {q q' : List (Step String)} {k : String}
    (hq : IsComponentPath q) (hk : k ≠ "version") : ¬ IsVersion pins p (q ++ .key k :: q') := by
  induction hq generalizing k q' with
  | main =>
    rintro ⟨i, name, version, purl, q'', -, heq⟩
    exact absurd (Step.key.inj (List.cons.inj heq).1) (by decide)
  | top i => exact not_isVersion_of_ne hk
  | nested q i hq ih =>
    rw [List.append_assoc]
    exact ih (by decide)

/-- The references in the dependencies are changed like every text. -/
theorem IsDerived.look_dependencies (h : IsDerived quote unquote pins p f r)
    (q : List (Step String)) {s : Step String} (hgroup : s ≠ .key "group")
    (hname : s ≠ .key "name") : r.look (.key "dependencies" :: q ++ [s]) =
      (p.look (.key "dependencies" :: q ++ [s])).map (Head.map (renamed f)) := by
  refine h.other _ (not_isRestored_of_last hgroup hname) ?_
  rintro ⟨j, name, version, purl, q', -, hq⟩
  exact absurd (Step.key.inj (List.cons.inj hq).1) (by decide)

/-- **The references of the inventory name components, if those of the predicate do.** -/
theorem IsDerived.closed (h : IsDerived quote unquote pins p f r)
    (hclosed : ∀ x, IsReference p x → IsBomRef p x) (y : Text) (hy : IsReference r y) :
    IsBomRef r y := by
  obtain ⟨x, hx, rfl⟩ : ∃ x, IsReference p x ∧ f x = y := by
    obtain ⟨i, hy | ⟨j, hy⟩⟩ := hy
    · have hlook := h.look_dependencies [.index i] (s := .key "ref") (by decide) (by decide)
      obtain ⟨x, hx, hfx⟩ := exists_of_renamed (hlook.symm.trans hy)
      exact ⟨x, ⟨i, .inl hx⟩, hfx⟩
    · have hlook := h.look_dependencies [.index i, .key "dependsOn"] (s := .index j)
        (by simp) (by simp)
      obtain ⟨x, hx, hfx⟩ := exists_of_renamed (hlook.symm.trans hy)
      exact ⟨x, ⟨i, .inr ⟨j, hx⟩⟩, hfx⟩
  obtain ⟨q, hq, hlook⟩ := hclosed x hx
  refine ⟨q, hq, ?_⟩
  rw [h.other _ (not_isRestored_of_last (by decide) (by decide))
    (not_isVersion_of_isComponentPath hq (by decide)), hlook]
  rfl

/-! ## The inventory -/

/-- What is one step into a document that is read into memory. -/
theorem exists_of_child?_placed {t : Doc ι String Atom} {n : ℕ}
    {u : Doc (Address String) String Atom} {s : Step String}
    (hu : (t.placed n []).child? s = some u) : ∃ u', t.child? s = some u' ∧ Same u u' := by
  have hat := Heap.at?_placed t n [] [s]
  rw [Doc.at?_cons, Doc.at?_cons, hu] at hat
  obtain ⟨u', hu', hplaced⟩ := Option.map_eq_some_iff.mp hat.symm
  obtain ⟨u'', hu'', hsome⟩ := Option.bind_eq_some_iff.mp hu'
  cases Option.some.inj hsome
  refine ⟨u', hu'', ?_⟩
  rw [← hplaced]
  exact Heap.same_placed u' n _

/-- **The derived inventory is exact.**  It is the predicate of the attestation with three
things changed (`IsDerived`): so its components are in the same order; a pinned package is one
component, with a package URL that differs in its version only, and with the pinned version
unless this is itself the package URL of a patched component; and references still name
components.  Restoring names twice is restoring them once, and the attestation is not changed. -/
theorem derivedInventory_exact (quote unquote : Text → Text) (pins : Pins) (limit : ℕ)
    (h h' : Heap String Atom) (d r : Doc Unit String Atom)
    (hrun : derivedInventory quote unquote limit (h.load d).1 (h.load d).2 pins = some (h', r)) :
    ∃ (p : Doc Unit String Atom) (f : Text → Text),
      d.child? (.key "predicate") = some p ∧ IsDerived quote unquote pins p f r ∧
      r.look [.key "components"] = p.look [.key "components"] ∧
      (∀ i name version purl, IsPatched pins p i name version purl →
        (∀ j name' version', ¬ IsPatched pins p j name' version' version) →
        r.look (componentPath i ++ [.key "version"]) = some (.scalar (.text version))) ∧
      (∀ i name version purl m v q, IsPatched pins p i name version purl →
        IsVersioned m v q purl → ∃ j name' version', IsPatched pins p j name' version' purl ∧
          r.look (componentPath i ++ [.key "purl"]) =
            some (.scalar (.text (debianScheme ++ m ++ '@' :: quote version' ++ q)))) ∧
      (∀ name ∈ pins.packages.keys,
        (∀ i m version x, IsPatched pins p i m version x → x ≠ name ∧ f x ≠ name) →
        ∃! i, IsDebian r i name) ∧
      ((∀ x, IsReference p x → IsBomRef p x) → ∀ x, IsReference r x → IsBomRef r x) ∧
      (∀ depth (g g' : Heap String Atom) (t : Doc (Address String) String Atom), g.Holds t →
        t.Separate → normalizeNpm unquote depth g t.slot = some g' →
        ∃ g'', normalizeNpm unquote depth g' t.slot = some g'' ∧
          g'.Holds (normalized unquote t) ∧ g''.Holds (normalized unquote t)) ∧
      h'.InMemory (h.load d).2 (d.placed h.documents []) := by
  obtain ⟨p₁, p₂, references, hp₁, hsame, hstages, hmemory⟩ :=
    stages_of_run (Heap.inMemory_load h d) hrun
  obtain ⟨p, hp, hsame'⟩ := exists_of_child?_placed hp₁
  have hderived := hstages.isDerived.congr (hsame.trans hsame')
  refine ⟨p, _, hp, hderived, hderived.look_components, fun i name version purl hi hversion => ?_,
    fun i name version purl m v q hi hform => ?_, fun name hname hplain => hderived.once_in hname
      hplain, hderived.closed, fun depth g g' t hold hsep hone => normalizeNpm_twice hold hsep hone,
    hmemory⟩
  · rw [hderived.version i name version purl hi, hderived.kept version hversion]
    rfl
  · obtain ⟨j, name', version', hj, hnew⟩ := hderived.moved i name version purl hi
    refine ⟨j, name', version', hj, ?_⟩
    rw [hderived.other _ (not_isRestored_of_last (by decide) (by decide))
      (not_isVersion_of_ne (by decide)), hi.located]
    rw [repinned_of_isVersioned hform] at hnew
    rw [Option.some.inj hnew]
    rfl

/-! ## An image with one component -/

theorem nodup_single (k : String) : [k].Nodup := List.nodup_singleton k

theorem nodup_name_purl : ["name", "purl"].Nodup := by decide

theorem nodup_statement : ["predicateType", "subject", "predicate"].Nodup := by decide

/-- A mapping with one key. -/
def singleDoc (k : String) (t : Doc Unit String Atom) : Doc Unit String Atom :=
  .dict () [k] (nodup_single k) fun _ => t

/-- An attestation of an image with one component. -/
def oneComponent (name purl : Text) : Doc Unit String Atom :=
  .dict () ["predicateType", "subject", "predicate"] nodup_statement fun k =>
    if k = "predicateType" then .scalar (.text "https://cyclonedx.org/bom/v1.6".toList)
    else if k = "subject" then
      .list 1 fun _ => singleDoc "digest" (singleDoc "sha256" (.scalar (.text ['d'])))
    else singleDoc "components" <| .list 1 fun _ =>
      .dict () ["name", "purl"] nodup_name_purl fun k =>
        .scalar (.text (if k = "name" then name else purl))

/-- One package of an image with the digest `d`, pinned. -/
def onePin (name version : Text) : Pins := ⟨['d'], Dict.empty.set name version⟩

def noDocuments : Heap String Atom := ⟨0, fun _ => Dict.empty⟩

/-- The package URL of the component before it is patched. -/
def donorPurl : Text := debianScheme ++ ['x', '@', '1']

/-- What `quote` makes of `donorPurl`. -/
def quotedPurl : Text := "pkg%3Adeb%2Fdebian%2Fx%401".toList

/-- The derivation for an image with one component, whose package is pinned. -/
def deriveOne (quote : Text → Text) (name version : Text) :
    Option (Heap String Atom × Doc Unit String Atom) :=
  let statement := noDocuments.load (oneComponent name donorPurl)
  derivedInventory quote id 6 statement.1 statement.2 (onePin name version)

/-- The package `x` gets the version 2. -/
theorem derivedInventory_exact_one : ∃ h' r, deriveOne id ['x'] ['2'] = some (h', r) ∧
    r.look (componentPath 0 ++ [.key "version"]) = some (.scalar (.text ['2'])) ∧
    h'.InMemory (.ref (0, [])) ((oneComponent ['x'] donorPurl).placed 0 []) := by
  have hsome : (deriveOne id ['x'] ['2']).isSome := by decide
  obtain ⟨⟨h', r⟩, hrun⟩ := Option.isSome_iff_exists.mp hsome
  obtain ⟨p, f, hp, hderived, -, hversion, -, -, -, -, hmemory⟩ :=
    derivedInventory_exact id id (onePin ['x'] ['2']) 6 noDocuments h'
      (oneComponent ['x'] donorPurl) r hrun
  refine ⟨h', r, hrun, hversion 0 ['x'] ['2'] donorPurl ?_ ?_, hmemory⟩
  · cases hp
    exact ⟨rfl, rfl, rfl, by decide⟩
  · intro j name' version' hj
    exact absurd hj.debian (by decide)

/-- **A version or a name that is the package URL of a patched package is replaced.**  The
component does not carry the pinned version, and no component has the name of the package. -/
theorem version_and_name_replaced :
    (∃ h' r, deriveOne (fun _ => quotedPurl) ['x'] donorPurl = some (h', r) ∧
      r.look (componentPath 0 ++ [.key "version"]) =
        some (.scalar (.text (debianScheme ++ ['x', '@'] ++ quotedPurl))) ∧
      debianScheme ++ ['x', '@'] ++ quotedPurl ≠ donorPurl) ∧
    ∃ h' r, deriveOne id donorPurl ['2'] = some (h', r) ∧
      r.look [.key "components"] = some (.list 1) ∧
      r.look (componentPath 0 ++ [.key "name"]) =
        some (.scalar (.text (debianScheme ++ ['x', '@', '2']))) := by
  have hversion : (deriveOne (fun _ => quotedPurl) ['x'] donorPurl).map (fun a =>
      a.2.look (componentPath 0 ++ [.key "version"])) =
        some (some (.scalar (.text (debianScheme ++ ['x', '@'] ++ quotedPurl)))) := by decide
  have hname : (deriveOne id donorPurl ['2']).map (fun a =>
      (a.2.look [.key "components"], a.2.look (componentPath 0 ++ [.key "name"]))) =
        some (some (.list 1), some (.scalar (.text (debianScheme ++ ['x', '@', '2'])))) := by
    decide
  obtain ⟨⟨h', r⟩, hrun, hlook⟩ := Option.map_eq_some_iff.mp hversion
  obtain ⟨⟨h₂, r₂⟩, hrun₂, hlook₂⟩ := Option.map_eq_some_iff.mp hname
  exact ⟨⟨h', r, hrun, hlook, by decide⟩, h₂, r₂, hrun₂, (Prod.mk.inj hlook₂).1,
    (Prod.mk.inj hlook₂).2⟩

end EpsCloud

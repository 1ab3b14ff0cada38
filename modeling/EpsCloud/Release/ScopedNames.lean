import EpsCloud.Library.InPlace
import EpsCloud.Release.Inventory

/-!
# Scoped names restored in place

`normalize_npm` walks the copied document and sets the group and the name of each mapping
whose package URL is a scoped npm one.  On a document of its own it leaves the document
with exactly these fields changed, and a second walk changes nothing.

* `normalize_does`: the walk leaves the normalised document, or raises.
* `look_normalized_names`, `look_normalized_of_other`: what is changed, place by place.
* `normalized_normalized`, `normalizable_normalized`: a second walk changes nothing.
-/

namespace EpsCloud

open Doc (Head Step Same)

variable {ι : Type} (unquote : Text → Text)

/-- What a mapping of a document has at its keys. -/
def docView (t : Doc ι String Atom) : View := fun key => t.look [.key key]

/-- The document with its group and its name set, if they are to be. -/
def named (t : Doc ι String Atom) : Option (Text × Text) → Doc ι String Atom
  | none => t
  | some (scope, name) =>
    (t.setKey "group" (.scalar (.text scope))).setKey "name" (.scalar (.text name))

/-- The scope and the name that are restored in a mapping. -/
def scopedAt (t : Doc ι String Atom) : Option (Text × Text) :=
  (restoredNames unquote (docView t)).getD none

/-- The document with every scoped name restored. -/
def normalized : Doc ι String Atom → Doc ι String Atom
  | .scalar s => .scalar s
  | .list n c => .list n fun i => normalized (c i)
  | .dict o ks h c =>
    named (.dict o ks h fun k => normalized (c k)) (scopedAt unquote (.dict o ks h c))

/-- The walk raises nowhere in the document. -/
def normalizable : ℕ → Doc ι String Atom → Bool
  | 0, _ => false
  | _ + 1, .scalar _ => true
  | depth + 1, .list n c => (List.range n).all fun i => normalizable depth (c i)
  | depth + 1, .dict o ks h c =>
    (restoredNames unquote (docView (.dict o ks h c))).isSome &&
      match named (.dict o ks h c) (scopedAt unquote (.dict o ks h c)) with
      | .dict _ ks' _ c' => ks'.all fun k => normalizable depth (c' k)
      | _ => true

variable {unquote}

/-! ## Names -/

theorem label?_named (t : Doc ι String Atom) (names : Option (Text × Text)) :
    (named t names).label? = t.label? := by
  cases names with
  | none => rfl
  | some p => rw [named, Doc.label?_setKey, Doc.label?_setKey]

theorem head_named (t : Doc ι String Atom) (names : Option (Text × Text)) :
    (named t names).head = t.head := by
  cases names with
  | none => rfl
  | some p => rw [named, Doc.head_setKey, Doc.head_setKey]

theorem labelAt_named {t : Doc ι String Atom} {names : Option (Text × Text)}
    {p : List (Step String)} {o : ι} (h : (named t names).labelAt p = some o) :
    t.labelAt p = some o := by
  cases names with
  | none => exact h
  | some _ => exact Doc.labelAt_setKey_scalar (Doc.labelAt_setKey_scalar h)

/-- What is one step into a mapping whose names are set. -/
theorem child?_named (t : Doc ι String Atom) (scope name : Text) (s : Step String) :
    (named t (some (scope, name))).child? s =
      if t.isDict ∧ s = .key "name" then some (.scalar (.text name))
      else if t.isDict ∧ s = .key "group" then some (.scalar (.text scope))
      else t.child? s := by
  rw [named, Doc.child?_setKey, Doc.child?_setKey, Doc.isDict_setKey]

theorem labels_named (t : Doc ι String Atom) (names : Option (Text × Text)) :
    (named t names).labels ⊆ t.labels := by
  rintro o ⟨p, hp⟩
  exact ⟨p, labelAt_named hp⟩

theorem scopedAt_of_not_dict {t : Doc ι String Atom} (h : t.isDict = false) :
    scopedAt unquote t = none := by
  cases t with
  | scalar s => rfl
  | list n c => rfl
  | dict o ks hks c => cases h

/-- Names are restored in the document and in everything below. -/
theorem normalized_eq (t : Doc ι String Atom) :
    normalized unquote t = (named t (scopedAt unquote t)).mapItems (normalized unquote) := by
  cases t with
  | scalar s => rfl
  | list n c => rfl
  | dict o ks h c =>
    rw [normalized]
    cases scopedAt unquote (.dict o ks h c) with
    | none => rfl
    | some names =>
      rw [named, named, Doc.mapItems_setKey, Doc.mapItems_setKey]
      rfl

theorem child?_normalized (t : Doc ι String Atom) (s : Step String) :
    (normalized unquote t).child? s =
      ((named t (scopedAt unquote t)).child? s).map (normalized unquote) := by
  rw [normalized_eq, Doc.child?_mapItems]

theorem head_normalized (t : Doc ι String Atom) : (normalized unquote t).head = t.head := by
  rw [normalized_eq, Doc.head_mapItems, head_named]

theorem label?_normalized (t : Doc ι String Atom) :
    (normalized unquote t).label? = t.label? := by
  rw [normalized_eq, ← label?_named t (scopedAt unquote t)]
  cases named t (scopedAt unquote t) <;> rfl

theorem slot_normalized (t : Doc (Address String) String Atom) :
    (normalized unquote t).slot = t.slot := by
  induction t with
  | scalar s => rfl
  | list n c ih => exact congrArg (Slot.list n) (funext ih)
  | dict o ks h c =>
    rw [normalized]
    cases scopedAt unquote (.dict o ks h c) <;> rfl

theorem labelAt_normalized {t : Doc ι String Atom} {p : List (Step String)} {o : ι}
    (h : (normalized unquote t).labelAt p = some o) : t.labelAt p = some o := by
  induction p generalizing t with
  | nil => exact (label?_normalized t).symm.trans h
  | cons s p ih =>
    rw [Doc.labelAt_cons, child?_normalized] at h
    obtain ⟨u, hu, hp⟩ := Option.bind_eq_some_iff.mp h
    obtain ⟨u', hu', rfl⟩ := Option.map_eq_some_iff.mp hu
    have hn : (named t (scopedAt unquote t)).labelAt (s :: p) = some o := by
      rw [Doc.labelAt_cons, hu', Option.bind_some, ih hp]
    exact labelAt_named hn

theorem labels_normalized (t : Doc ι String Atom) : (normalized unquote t).labels ⊆ t.labels :=
  fun _ ⟨p, hp⟩ => ⟨p, labelAt_normalized hp⟩

/-! ## The walk -/

theorem view_eq_docView {h : Heap String Atom} {o : Address String} {ks : List String}
    {hks : ks.Nodup} {c : String → Doc (Address String) String Atom}
    (hold : h.Holds (.dict o ks hks c)) : h.view o = docView (.dict o ks hks c) :=
  funext fun k => Heap.view_eq hold k

/-- Setting the names of an object sets them in the document. -/
theorem setNames_changed {h : Heap String Atom} {o : Address String}
    {t : Doc (Address String) String Atom} (hold : h.Holds t) (ho : t.slot = .ref o)
    (hsep : t.Separate) (names : Option (Text × Text)) :
    Heap.Changed h (setNames h o names) t (named t names) := by
  cases names with
  | none => exact .refl hold
  | some p =>
    have hgroup := Heap.setKey_changed hold ho hsep "group" (.text p.1)
    refine hgroup.trans (Heap.setKey_changed hgroup.holds ?_ ?_ "name" (.text p.2))
      (Doc.labels_setKey_scalar t _ _)
    · rw [Heap.slot_setKey, ho]
    · exact hsep.of_labelAt fun p x hp => Doc.labelAt_setKey_scalar hp

/-- **The walk leaves the normalised document, or raises.** -/
theorem normalize_does (depth : ℕ) {h : Heap String Atom} {t : Doc (Address String) String Atom}
    (hold : h.Holds t) (hsep : t.Separate) :
    Heap.Does (normalizeNpm unquote depth h t.slot) h (normalizable unquote depth t) t
      (normalized unquote t) := by
  induction depth generalizing h t with
  | zero => rfl
  | succ depth ih =>
    cases t with
    | scalar s => exact ⟨h, rfl, hold, rfl, fun _ _ => rfl⟩
    | list n c =>
      exact Heap.foldlM_range_visited hold hsep (fun i => labels_normalized (c i))
        fun i hi h₁ hold₁ => ih hold₁ (hsep.child (s := .index i) (if_pos hi))
    | dict o ks hks c =>
      rw [Doc.slot, normalizeNpm, view_eq_docView hold, normalizable]
      cases hnames : restoredNames unquote (docView (.dict o ks hks c)) with
      | none => rfl
      | some names =>
        have hscoped : scopedAt unquote (.dict o ks hks c) = names := by
          rw [scopedAt, hnames, Option.getD_some]
        have hset := setNames_changed hold rfl hsep names
        have hsep' : (named (.dict o ks hks c) names).Separate :=
          hsep.of_labelAt fun p x hp => labelAt_named hp
        rw [Option.bind_some, Option.isSome_some, Bool.true_and, normalized_eq, hscoped]
        have hlabel := label?_named (.dict o ks hks c) names
        cases hdoc : named (.dict o ks hks c) names with
        | scalar s => rw [hdoc] at hlabel; cases hlabel
        | list n c' => rw [hdoc] at hlabel; cases hlabel
        | dict o' ks' hks' c' =>
          rw [hdoc] at hset hsep' hlabel
          cases Option.some.inj hlabel
          refine Heap.Does.after hset ?_ (hdoc ▸ labels_named (.dict o ks hks c) names)
          exact Heap.forItems_visited hset.holds hsep' (fun k => labels_normalized (c' k))
            (fun k => slot_normalized (c' k)) fun k hk h₁ hold₁ =>
              ih hold₁ (hsep'.child (s := .key k) (if_pos hk))

/-! ## Twice -/

theorem notMem_beforeFirst (c : Char) (s : Text) : c ∉ beforeFirst c s := fun h => by
  simpa using List.mem_takeWhile_imp h

/-- What the checks of a scoped name have found. -/
structure IsScoped (view : View) (identity scope name : Text) : Prop where
  parsed : '@' ∈ identity ∧ '/' ∈ beforeLast '@' identity ∧ name ≠ []
  scope_eq : scope = beforeFirst '/' (beforeLast '@' identity)
  name_eq : name = afterFirst '/' (beforeLast '@' identity)
  noSlash : '/' ∉ name
  version : view "version" = some (.scalar (.text (afterLast '@' identity)))
  name : view "name" = some (.scalar (.text name)) ∨
    view "name" = some (.scalar (.text (beforeLast '@' identity)))
  group : view "group" = none ∨ view "group" = some (.scalar .null) ∨
    view "group" = some (.scalar (.text [])) ∨ view "group" = some (.scalar (.text scope))

theorem scopedNames_eq_some_iff {view : View} {identity scope name : Text} :
    scopedNames view identity = some (scope, name) ↔ IsScoped view identity scope name := by
  unfold scopedNames
  dsimp only
  rw [Option.ite_none_right_eq_some, Option.some.injEq, Prod.mk.injEq]
  constructor
  · rintro ⟨⟨h₁, h₂, h₃, h₄, h₅, h₆, h₇⟩, rfl, rfl⟩
    exact ⟨⟨h₁, h₂, h₃⟩, rfl, rfl, h₄, h₅, h₆, h₇⟩
  · rintro ⟨⟨h₁, h₂, h₃⟩, rfl, rfl, h₄, h₅, h₆, h₇⟩
    exact ⟨⟨h₁, h₂, h₃, h₄, h₅, h₆, h₇⟩, rfl, rfl⟩

theorem exists_of_scopedAt {t : Doc ι String Atom} {scope name : Text}
    (h : scopedAt unquote t = some (scope, name)) :
    ∃ purl identity, purlOf (docView t) = some purl ∧ npmIdentity unquote purl = some identity ∧
      IsScoped (docView t) identity scope name := by
  unfold scopedAt restoredNames at h
  cases hp : purlOf (docView t) with
  | none => simp [hp] at h
  | some purl =>
    rw [hp, Option.bind_some] at h
    cases hi : npmIdentity unquote purl with
    | none => simp [hi] at h
    | some identity =>
      refine ⟨purl, identity, rfl, hi, scopedNames_eq_some_iff.mp ?_⟩
      rw [hi] at h
      cases hs : scopedNames (docView t) identity with
      | none => simp [hs] at h
      | some names => simpa [hs] using h

theorem isDict_of_scopedAt {t : Doc ι String Atom} {names : Text × Text}
    (h : scopedAt unquote t = some names) : t.isDict := by
  cases hd : t.isDict with
  | true => rfl
  | false =>
    rw [scopedAt_of_not_dict hd] at h
    cases h

theorem docView_mapItems {f : Doc ι String Atom → Doc ι String Atom}
    (hf : ∀ u, (f u).head = u.head) (t : Doc ι String Atom) :
    docView (t.mapItems f) = docView t := by
  funext k
  rw [docView, docView, Doc.look_cons, Doc.look_cons, Doc.child?_mapItems, Option.bind_map]
  refine congrArg _ (funext fun u => ?_)
  rw [Function.comp_apply, Doc.look_nil, Doc.look_nil, hf]

/-- What a normalised mapping has at its keys. -/
theorem docView_normalized (t : Doc ι String Atom) (k : String) :
    docView (normalized unquote t) k =
      match scopedAt unquote t with
      | none => docView t k
      | some (scope, name) =>
        if k = "name" then some (.scalar (.text name))
        else if k = "group" then some (.scalar (.text scope)) else docView t k := by
  rw [normalized_eq, docView_mapItems head_normalized]
  cases hs : scopedAt unquote t with
  | none => rfl
  | some names =>
    obtain ⟨scope, name⟩ := names
    have hdict := isDict_of_scopedAt hs
    rw [docView, Doc.look_cons, child?_named]
    simp only [hdict, true_and, Step.key.injEq]
    split_ifs
    · rfl
    · rfl
    · rw [← Doc.look_cons, docView]

theorem restoredNames_normalized (t : Doc ι String Atom) :
    restoredNames unquote (docView (normalized unquote t)) =
      restoredNames unquote (docView t) := by
  cases hs : scopedAt unquote t with
  | none =>
    have hview : docView (normalized unquote t) = docView t := by
      funext k
      rw [docView_normalized, hs]
    rw [hview]
  | some names =>
    obtain ⟨scope, name⟩ := names
    obtain ⟨purl, identity, hp, hi, hscoped⟩ := exists_of_scopedAt hs
    have hview (k : String) : docView (normalized unquote t) k = _ := docView_normalized t k
    simp only [hs] at hview
    have hp' : purlOf (docView (normalized unquote t)) = some purl := by
      rw [← hp, purlOf, purlOf, hview, if_neg (by decide), if_neg (by decide)]
    have hscoped' : IsScoped (docView (normalized unquote t)) identity scope name :=
      { hscoped with
        version := by rw [hview, if_neg (by decide), if_neg (by decide), hscoped.version]
        name := .inl (by rw [hview, if_pos rfl])
        group := .inr (.inr (.inr (by rw [hview, if_neg (by decide), if_pos rfl]))) }
    rw [restoredNames, restoredNames, hp, hp', Option.bind_some, Option.bind_some, hi]
    dsimp only
    rw [scopedNames_eq_some_iff.mpr hscoped, scopedNames_eq_some_iff.mpr hscoped']

theorem scopedAt_normalized (t : Doc ι String Atom) :
    scopedAt unquote (normalized unquote t) = scopedAt unquote t := by
  rw [scopedAt, scopedAt, restoredNames_normalized]

/-- The names of a normalised document are set. -/
theorem named_normalized (t : Doc ι String Atom) :
    named (normalized unquote t) (scopedAt unquote t) = normalized unquote t := by
  cases hs : scopedAt unquote t with
  | none => rfl
  | some names =>
    obtain ⟨scope, name⟩ := names
    have hdict := isDict_of_scopedAt hs
    have hchild (s : Step String) : (normalized unquote t).child? s = _ := child?_normalized t s
    simp only [hs, child?_named, hdict, true_and] at hchild
    have hgroup : (normalized unquote t).child? (.key "group") =
        some (.scalar (.text scope)) := by
      rw [hchild, if_neg (by decide), if_pos rfl]
      rfl
    have hname : (normalized unquote t).child? (.key "name") = some (.scalar (.text name)) := by
      rw [hchild, if_pos rfl]
      rfl
    rw [named, Doc.setKey_eq_self hgroup, Doc.setKey_eq_self hname]

/-- **Normalising twice is normalising once.** -/
theorem normalized_normalized (t : Doc ι String Atom) :
    normalized unquote (normalized unquote t) = normalized unquote t := by
  induction t with
  | scalar s => rfl
  | list n c ih => exact congrArg (Doc.list n) (funext ih)
  | dict o ks hks c ih =>
    rw [normalized_eq (normalized unquote _), scopedAt_normalized, named_normalized, normalized]
    -- The items are normalised items of the mapping, and the two names.
    cases scopedAt unquote (.dict o ks hks c) with
    | none =>
      rw [named, Doc.mapItems]
      exact congrArg _ (funext ih)
    | some names =>
      rw [named, Doc.mapItems_setKey, Doc.mapItems_setKey, Doc.mapItems]
      simp only [ih]
      rfl

/-- What can be normalised can be normalised again. -/
theorem normalizable_normalized {depth : ℕ} {t : Doc ι String Atom}
    (h : normalizable unquote depth t) : normalizable unquote depth (normalized unquote t) := by
  induction depth generalizing t with
  | zero => cases h
  | succ depth ih =>
    cases t with
    | scalar s => rfl
    | list n c =>
      rw [normalizable, List.all_eq_true] at h
      rw [normalized, normalizable, List.all_eq_true]
      exact fun i hi => ih (h i hi)
    | dict o ks hks c =>
      rw [normalizable, Bool.and_eq_true] at h
      have hrestored :
          restoredNames unquote (docView (normalized unquote (.dict o ks hks c))) = _ :=
        restoredNames_normalized _
      have hnamed : named (normalized unquote (.dict o ks hks c)) _ = _ := named_normalized _
      have hscoped : scopedAt unquote (normalized unquote (.dict o ks hks c)) = _ :=
        scopedAt_normalized _
      have heq : normalized unquote (.dict o ks hks c) = _ := normalized_eq _
      have hlabel := label?_named (.dict o ks hks c) (scopedAt unquote (.dict o ks hks c))
      cases hdoc : named (.dict o ks hks c) (scopedAt unquote (.dict o ks hks c)) with
      | scalar s => rw [hdoc] at hlabel; cases hlabel
      | list n c' => rw [hdoc] at hlabel; cases hlabel
      | dict o' ks' hks' c' =>
        rw [hdoc] at h heq
        rw [Doc.mapItems] at heq
        rw [heq] at hrestored hnamed hscoped ⊢
        rw [normalizable, hscoped, hnamed, hrestored, Bool.and_eq_true, List.all_eq_true]
        exact ⟨h.1, fun k hk => ih (List.all_eq_true.mp h.2 k hk)⟩

/-- **A second walk over a document is not refused, and leaves what the first one left.** -/
theorem normalizeNpm_twice {depth : ℕ} {h h' : Heap String Atom}
    {t : Doc (Address String) String Atom} (hold : h.Holds t) (hsep : t.Separate)
    (hrun : normalizeNpm unquote depth h t.slot = some h') :
    ∃ h'', normalizeNpm unquote depth h' t.slot = some h'' ∧ h'.Holds (normalized unquote t) ∧
      h''.Holds (normalized unquote t) := by
  obtain ⟨hok, hchange⟩ := (normalize_does depth hold hsep).of_some hrun
  have hdoes : Heap.Does (normalizeNpm unquote depth h' _) _ _ _ _ :=
    normalize_does depth hchange.holds (hsep.of_labelAt fun p o hp => labelAt_normalized hp)
  rw [normalizable_normalized hok, slot_normalized, normalized_normalized] at hdoes
  obtain ⟨h'', hrun', hchange'⟩ := hdoes.of_ok
  exact ⟨h'', hrun', hchange.holds, hchange'.holds⟩

/-! ## Place by place -/

theorem head_of_scopedAt {t u : Doc ι String Atom} {names : Text × Text} {k : String}
    (h : scopedAt unquote t = some names) (hk : k = "name" ∨ k = "group")
    (hu : t.child? (.key k) = some u) : ∃ a, u = .scalar a := by
  obtain ⟨scope, name⟩ := names
  obtain ⟨purl, identity, -, -, hscoped⟩ := exists_of_scopedAt h
  have hview : docView t k = some u.head := by
    rw [docView, Doc.look_cons, hu, Option.bind_some, Doc.look_nil]
  have hscalar : ∃ a, u.head = .scalar a := by
    rcases hk with rfl | rfl
    · rcases hscoped.name with hn | hn <;>
        exact ⟨_, Option.some.inj (hview.symm.trans hn)⟩
    · rcases hscoped.group with hg | hg | hg | hg
      · exact absurd (hview.symm.trans hg) (Option.some_ne_none _)
      all_goals exact ⟨_, Option.some.inj (hview.symm.trans hg)⟩
  obtain ⟨a, ha⟩ := hscalar
  cases u with
  | scalar s => exact ⟨s, rfl⟩
  | list n c => cases ha
  | dict o ks hks c => cases ha

/-- What is not a scalar stays at its place, normalised. -/
theorem at?_normalized {t u : Doc ι String Atom} {q : List (Step String)}
    (hu : t.at? q = some u) (hdict : u.isDict) :
    (normalized unquote t).at? q = some (normalized unquote u) := by
  induction q generalizing t with
  | nil => rw [← Option.some.inj hu]; rfl
  | cons s q ih =>
    obtain ⟨t', ht', hu⟩ := Option.bind_eq_some_iff.mp hu
    rw [Doc.at?_cons, child?_normalized]
    suffices hchild : (named t (scopedAt unquote t)).child? s = some t' by
      rw [hchild, Option.map_some, Option.bind_some, ih hu]
    cases hs : scopedAt unquote t with
    | none => exact ht'
    | some names =>
      have hkey : ¬ (s = .key "name" ∨ s = .key "group") := by
        intro hkey
        obtain ⟨a, rfl⟩ : ∃ a, t' = .scalar a := by
          rcases hkey with rfl | rfl
          · exact head_of_scopedAt hs (.inl rfl) ht'
          · exact head_of_scopedAt hs (.inr rfl) ht'
        cases q with
        | nil => cases hu; cases hdict
        | cons s q => cases hu
      rw [child?_named, if_neg fun h => hkey (.inl h.2), if_neg fun h => hkey (.inr h.2), ht']

/-- **The names are set in every mapping with a scoped package URL.** -/
theorem look_normalized_names {t u : Doc ι String Atom} {q : List (Step String)}
    {scope name : Text} (hu : t.at? q = some u) (hs : scopedAt unquote u = some (scope, name)) :
    (normalized unquote t).look (q ++ [.key "group"]) = some (.scalar (.text scope)) ∧
      (normalized unquote t).look (q ++ [.key "name"]) = some (.scalar (.text name)) := by
  have hdict := isDict_of_scopedAt hs
  have hview (k : String) : docView (normalized unquote u) k = _ := docView_normalized u k
  simp only [hs] at hview
  rw [Doc.look_append, Doc.look_append, at?_normalized hu hdict]
  constructor
  · exact (hview "group").trans (by rw [if_neg (by decide), if_pos rfl])
  · exact (hview "name").trans (by rw [if_pos rfl])

/-- The place is the group or the name of a mapping with a scoped package URL. -/
def IsRestored (unquote : Text → Text) (t : Doc ι String Atom) (p : List (Step String)) : Prop :=
  ∃ q u, t.at? q = some u ∧ (scopedAt unquote u).isSome ∧
    (p = q ++ [.key "group"] ∨ p = q ++ [.key "name"])

/-- **Nothing else is changed.** -/
theorem look_normalized_of_other {t : Doc ι String Atom} {p : List (Step String)}
    (hp : ¬ IsRestored unquote t p) : (normalized unquote t).look p = t.look p := by
  induction p generalizing t with
  | nil => rw [Doc.look_nil, Doc.look_nil, head_normalized]
  | cons s p ih =>
    rw [Doc.look_cons, Doc.look_cons, child?_normalized]
    have hrest (u : Doc ι String Atom) (hu : t.child? s = some u) :
        (normalized unquote u).look p = u.look p := by
      refine ih fun hr => hp ?_
      obtain ⟨q, u', hu', hsome, hq⟩ := hr
      refine ⟨s :: q, u', ?_, hsome, ?_⟩
      · rw [Doc.at?_cons, hu, Option.bind_some, hu']
      · rcases hq with rfl | rfl
        · exact .inl rfl
        · exact .inr rfl
    have hsame (hnamed : (named t (scopedAt unquote t)).child? s = t.child? s) :
        (((named t (scopedAt unquote t)).child? s).map (normalized unquote)).bind
            (fun t' => t'.look p) = (t.child? s).bind fun t' => t'.look p := by
      rw [hnamed]
      cases hu : t.child? s with
      | none => rfl
      | some u => exact hrest u hu
    cases hs : scopedAt unquote t with
    | none => exact hs ▸ hsame (by rw [hs]; rfl)
    | some names =>
      by_cases hkey : s = .key "name" ∨ s = .key "group"
      · cases p with
        | nil =>
          refine absurd ⟨[], t, rfl, by rw [hs]; rfl, ?_⟩ hp
          rcases hkey with rfl | rfl
          · exact .inr rfl
          · exact .inl rfl
        | cons s' p =>
          -- Both sides have a scalar here, or nothing, and nothing below it.
          have hold : ((t.child? s).bind fun t' => t'.look (s' :: p)) = none := by
            refine Option.bind_eq_none_iff.mpr fun u hu => ?_
            obtain ⟨a, rfl⟩ : ∃ a, u = .scalar a := by
              rcases hkey with rfl | rfl
              · exact head_of_scopedAt hs (.inl rfl) hu
              · exact head_of_scopedAt hs (.inr rfl) hu
            rfl
          rw [hold, child?_named]
          simp only [isDict_of_scopedAt hs, true_and]
          split_ifs with h₁ h₂
          · rfl
          · rfl
          · exact absurd hkey (not_or.mpr ⟨h₁, h₂⟩)
      · refine hs ▸ hsame ?_
        rw [hs, child?_named, if_neg fun h => hkey (.inl h.2), if_neg fun h => hkey (.inr h.2)]

end EpsCloud

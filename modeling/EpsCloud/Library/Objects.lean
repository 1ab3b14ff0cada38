import EpsCloud.Library.Dict
import EpsCloud.Library.Documents
import EpsCloud.Library.Fallible

/-!
# Documents in memory

The mappings of a document that a program holds in memory are objects: a key or a place
of a list refers to a mapping by its address, and changing a mapping is seen wherever it
is referred to.  Lists are never changed here, so they stand where they are referred to.
An object is named by the document it was made for and by the place it was made at.

* `Holds.congr`: what the objects of a document are, is all that holding it depends on.
* `follow_slot`: following references is looking into the document that is held.
* `load_slot`, `inMemory_copy`: a new document is held, and is made of new objects.
-/

/-- The name of an object: the document it was made for, and the place in it. -/
abbrev Address (κ : Type) := ℕ × List (Doc.Step κ)

/-- What a key or a place refers to. -/
inductive Slot (κ σ : Type) where
  | scalar (s : σ)
  | list (length : ℕ) (item : ℕ → Slot κ σ)
  | ref (object : Address κ)

variable {ι κ σ : Type}

/-- What refers to the document in memory. -/
def Doc.slot : Doc (Address κ) κ σ → Slot κ σ
  | .scalar s => .scalar s
  | .list n c => .list n fun i => (c i).slot
  | .dict o _ _ _ => .ref o

/-- The document with its mappings made at their places, below the place `p` of document `n`. -/
def Doc.placed (n : ℕ) (p : List (Doc.Step κ)) : Doc ι κ σ → Doc (Address κ) κ σ
  | .scalar s => .scalar s
  | .list m c => .list m fun i => (c i).placed n (p ++ [.index i])
  | .dict _ ks h c => .dict (n, p) ks h fun k => (c k).placed n (p ++ [.key k])

/-- The reference with its mappings made at their places, below the place `p` of document `n`. -/
def Slot.placed (n : ℕ) (p : List (Doc.Step κ)) : Slot κ σ → Slot κ σ
  | .scalar s => .scalar s
  | .list m c => .list m fun i => (c i).placed n (p ++ [.index i])
  | .ref _ => .ref (n, p)

def Slot.head : Slot κ σ → Doc.Head σ
  | .scalar s => .scalar s
  | .list n _ => .list n
  | .ref _ => .dict

/-- The objects in memory, and how many documents have been made. -/
structure Heap (κ σ : Type) where
  documents : ℕ
  get : Address κ → Dict κ (Slot κ σ)

/-- The dictionary that the mapping at the root of the document is in memory. -/
def Doc.cell : Doc (Address κ) κ σ → Dict κ (Slot κ σ)
  | .dict _ ks h c => Dict.tabulate ks h fun k => (c k).slot
  | .scalar _ => Dict.empty
  | .list _ _ => Dict.empty

namespace Heap

theorem head_slot (t : Doc (Address κ) κ σ) : t.slot.head = t.head := by
  cases t <;> rfl

theorem slot_setKey [DecidableEq κ] (t : Doc (Address κ) κ σ) (k : κ) (v : Doc (Address κ) κ σ) :
    (t.setKey k v).slot = t.slot := by
  cases t <;> rfl

theorem slot_placed (t : Doc (Address κ) κ σ) (n : ℕ) (p : List (Doc.Step κ)) :
    (t.placed n p).slot = t.slot.placed n p := by
  induction t generalizing p with
  | scalar s => rfl
  | list m c ih =>
    simp only [Doc.placed, Doc.slot, Slot.placed]
    exact congrArg _ (funext fun i => ih i _)
  | dict o ks hks c => rfl

variable [DecidableEq κ]

/-- The objects of the document are in memory, with what the document says. -/
def Holds (h : Heap κ σ) : Doc (Address κ) κ σ → Prop
  | .scalar _ => True
  | .list n c => ∀ i < n, h.Holds (c i)
  | .dict o ks _ c =>
    (h.get o).keys = ks ∧ ∀ k ∈ ks, (h.get o).get? k = some (c k).slot ∧ h.Holds (c k)

/-- The reference `v` reads as the document, whose objects have been made. -/
structure InMemory (h : Heap κ σ) (v : Slot κ σ) (t : Doc (Address κ) κ σ) : Prop where
  slot : t.slot = v
  holds : h.Holds t
  made : ∀ o ∈ t.labels, o.1 < h.documents

/-- What the object has at its keys, without what is below it. -/
def view (h : Heap κ σ) (o : Address κ) (key : κ) : Option (Doc.Head σ) :=
  ((h.get o).get? key).map Slot.head

/-- Set a key of an object. -/
def setKey (h : Heap κ σ) (o : Address κ) (key : κ) (v : Slot κ σ) : Heap κ σ :=
  { h with get := Function.update h.get o ((h.get o).set key v) }

/-- One step along a reference. -/
def step (h : Heap κ σ) : Slot κ σ → Doc.Step κ → Option (Slot κ σ)
  | .ref o, .key k => (h.get o).get? k
  | .list n c, .index i => if i < n then some (c i) else none
  | _, _ => none

/-- What a path leads to from a reference. -/
def follow (h : Heap κ σ) (v : Slot κ σ) : List (Doc.Step κ) → Option (Slot κ σ)
  | [] => some v
  | s :: p => (h.step v s).bind fun v' => h.follow v' p

/-- A new document with the given object made at each place. -/
def newDocument (h : Heap κ σ) (cells : List (Doc.Step κ) → Dict κ (Slot κ σ)) : Heap κ σ where
  documents := h.documents + 1
  get a := if a.1 = h.documents then cells a.2 else h.get a

/-- Read a document into memory. -/
def load (h : Heap κ σ) (t : Doc ι κ σ) : Heap κ σ × Slot κ σ :=
  (h.newDocument fun p => (((t.placed h.documents []).at? p).map Doc.cell).getD Dict.empty,
    (t.placed h.documents []).slot)

/-- The dictionary that a reference names, if it names one. -/
def dict? (h : Heap κ σ) : Slot κ σ → Option (Dict κ (Slot κ σ))
  | .ref o => some (h.get o)
  | .scalar _ => none
  | .list _ _ => none

/-- Copy what a reference leads to, with every mapping and list in it. -/
def copy (h : Heap κ σ) (v : Slot κ σ) : Heap κ σ × Slot κ σ :=
  (h.newDocument fun p => (((h.follow v p).bind h.dict?).map fun d =>
      d.mapWithKey fun k s => s.placed h.documents (p ++ [.key k])).getD Dict.empty,
    v.placed h.documents [])

/-- Run `body` for the items of an object in order, reading each value when its turn comes;
`none` also where the object gets another number of keys meanwhile. -/
def forItems (body : Heap κ σ → κ → Slot κ σ → Option (Heap κ σ)) (h : Heap κ σ)
    (o : Address κ) : Option (Heap κ σ) :=
  let keys := (h.get o).keys
  keys.foldlM (fun h key =>
    ((h.get o).get? key).bind fun value =>
      (body h key value).bind fun h' => if (h'.get o).keys = keys then some h' else none) h

/-! ## Holding a document -/

theorem Holds.congr {h h' : Heap κ σ} {t : Doc (Address κ) κ σ} (hold : h.Holds t)
    (hsame : ∀ o ∈ t.labels, h'.get o = h.get o) : h'.Holds t := by
  induction t with
  | scalar s => trivial
  | list n c ih =>
    exact fun i hi => ih i (hold i hi) fun o ho => hsame o (Doc.mem_labels_list.mpr ⟨i, hi, ho⟩)
  | dict o ks hks c ih =>
    refine ⟨?_, fun k hk => ⟨?_, ih k (hold.2 k hk).2 fun o ho => ?_⟩⟩
    · rw [hsame o (Doc.mem_labels_dict.mpr (.inl rfl)), hold.1]
    · rw [hsame o (Doc.mem_labels_dict.mpr (.inl rfl)), (hold.2 k hk).1]
    · exact hsame o (Doc.mem_labels_dict.mpr (.inr ⟨k, hk, ho⟩))

/-- One step along the reference is one step into the document. -/
theorem step_slot {h : Heap κ σ} {t : Doc (Address κ) κ σ} (hold : h.Holds t)
    (s : Doc.Step κ) : h.step t.slot s = (t.child? s).map Doc.slot := by
  cases t with
  | scalar _ => rfl
  | list n c =>
    cases s with
    | key k => rfl
    | index i =>
      simp only [Doc.slot, step, Doc.child?]
      split_ifs <;> rfl
  | dict o ks hks c =>
    cases s with
    | index i => rfl
    | key k =>
      simp only [Doc.slot, step, Doc.child?]
      split_ifs with hk
      · exact (hold.2 k hk).1
      · exact Dict.get?_eq_none.mpr (hold.1 ▸ hk)

/-- What an object has at its keys is what the document has. -/
theorem view_eq {h : Heap κ σ} {o : Address κ} {ks : List κ} {hks : ks.Nodup}
    {c : κ → Doc (Address κ) κ σ} (hold : h.Holds (.dict o ks hks c)) (k : κ) :
    h.view o k = (Doc.dict o ks hks c).look [.key k] := by
  have hstep := step_slot hold (.key k)
  rw [view, Doc.look_cons]
  rw [Doc.slot, step] at hstep
  rw [hstep, Option.map_map]
  cases (Doc.dict o ks hks c).child? (.key k) with
  | none => rfl
  | some u => exact congrArg some (head_slot u)

theorem Holds.child {h : Heap κ σ} {t u : Doc (Address κ) κ σ} (hold : h.Holds t)
    {s : Doc.Step κ} (hu : t.child? s = some u) : h.Holds u := by
  cases t with
  | scalar _ => cases hu
  | list n c =>
    cases s with
    | key k => cases hu
    | index i =>
      simp only [Doc.child?, Option.ite_none_right_eq_some, Option.some.injEq] at hu
      exact hu.2 ▸ hold i hu.1
  | dict o ks hks c =>
    cases s with
    | index i => cases hu
    | key k =>
      simp only [Doc.child?, Option.ite_none_right_eq_some, Option.some.injEq] at hu
      exact hu.2 ▸ (hold.2 k hu.1).2

theorem Holds.at {h : Heap κ σ} {t u : Doc (Address κ) κ σ} (hold : h.Holds t)
    {p : List (Doc.Step κ)} (hu : t.at? p = some u) : h.Holds u := by
  induction p generalizing t with
  | nil => exact Option.some.inj hu ▸ hold
  | cons s p ih =>
    obtain ⟨t', ht', hu⟩ := Option.bind_eq_some_iff.mp hu
    exact ih (hold.child ht') hu

/-- **Following references is looking into the document that is held.** -/
theorem follow_slot {h : Heap κ σ} {t : Doc (Address κ) κ σ} (hold : h.Holds t)
    (p : List (Doc.Step κ)) : h.follow t.slot p = (t.at? p).map Doc.slot := by
  induction p generalizing t with
  | nil => rfl
  | cons s p ih =>
    rw [follow, step_slot hold, Doc.at?_cons]
    cases hs : t.child? s with
    | none => rfl
    | some u => exact ih (hold.child hs)

theorem follow_append (h : Heap κ σ) (v : Slot κ σ) (p q : List (Doc.Step κ)) :
    h.follow v (p ++ q) = (h.follow v p).bind fun v' => h.follow v' q := by
  induction p generalizing v with
  | nil => rfl
  | cons s p ih =>
    rw [List.cons_append, follow, follow, Option.bind_assoc]
    exact congrArg _ (funext ih)

theorem get_setKey {h : Heap κ σ} {o x : Address κ} {k : κ} {w : Slot κ σ} (hx : x ≠ o) :
    (h.setKey o k w).get x = h.get x := Function.update_of_ne hx _ _

theorem get_setKey_self {h : Heap κ σ} {o : Address κ} {k : κ} {w : Slot κ σ} :
    (h.setKey o k w).get o = (h.get o).set k w := Function.update_self _ _ _

theorem get?_setKey (h : Heap κ σ) (o x : Address κ) (k j : κ) (w : Slot κ σ) :
    ((h.setKey o k w).get x).get? j = if x = o ∧ j = k then some w else (h.get x).get? j := by
  rcases eq_or_ne x o with rfl | hx
  · rw [get_setKey_self, Dict.get?_set]
    simp only [true_and]
  · rw [get_setKey hx, if_neg fun h => hx h.1]

/-- Setting a key that an object does not have changes no path that leads somewhere. -/
theorem follow_setKey {h : Heap κ σ} {o : Address κ} {k : κ} {w : Slot κ σ}
    (hk : (h.get o).get? k = none) {v v' : Slot κ σ} {p : List (Doc.Step κ)}
    (hp : h.follow v p = some v') : (h.setKey o k w).follow v p = some v' := by
  induction p generalizing v with
  | nil => exact hp
  | cons s p ih =>
    obtain ⟨u, hu, hp⟩ := Option.bind_eq_some_iff.mp hp
    rw [follow]
    suffices hstep : (h.setKey o k w).step v s = some u by rw [hstep]; exact ih hp
    cases v with
    | scalar _ => cases hu
    | list _ _ => cases s <;> exact hu
    | ref x =>
      cases s with
      | index _ => cases hu
      | key j =>
        refine (get?_setKey h o x k j w).trans ?_
        rw [if_neg]
        · exact hu
        · rintro ⟨rfl, rfl⟩
          exact Option.some_ne_none u (hu.symm.trans hk)

theorem holds_dict_of_get {h : Heap κ σ} {o : Address κ} {ks : List κ} {hks : ks.Nodup}
    {c : κ → Doc (Address κ) κ σ} (hget : h.get o = (Doc.dict o ks hks c).cell)
    (hc : ∀ k ∈ ks, h.Holds (c k)) : h.Holds (.dict o ks hks c) := by
  refine ⟨?_, fun k hk => ⟨?_, hc k hk⟩⟩
  · rw [hget, Doc.cell, Dict.keys_tabulate]
  · rw [hget, Doc.cell, Dict.get?_tabulate, if_pos hk]

/-- Setting a key of an object that is nowhere below itself. -/
theorem Holds.setKey {h : Heap κ σ} {o : Address κ} {ks : List κ} {hks : ks.Nodup}
    {c : κ → Doc (Address κ) κ σ} {v : Doc (Address κ) κ σ} (hold : h.Holds (.dict o ks hks c))
    (hv : h.Holds v) (hroot : ∀ k ∈ ks, o ∉ (c k).labels) (hov : o ∉ v.labels) (k : κ) :
    (h.setKey o k v.slot).Holds ((Doc.dict o ks hks c).setKey k v) := by
  have hkeep {t : Doc (Address κ) κ σ} (ht : h.Holds t) (ho : o ∉ t.labels) :
      (h.setKey o k v.slot).Holds t :=
    ht.congr fun x hx => get_setKey (ne_of_mem_of_not_mem hx ho)
  refine ⟨?_, fun j hj => ?_⟩
  · rw [get_setKey_self, Dict.keys_set, hold.1]
    by_cases hk : k ∈ ks <;> simp [hk]
  · rw [get_setKey_self, Dict.get?_set]
    rcases eq_or_ne j k with rfl | hjk
    · rw [if_pos rfl, Function.update_self]
      exact ⟨rfl, hkeep hv hov⟩
    · have hjks : j ∈ ks := by simpa [hjk] using Doc.mem_append_filter.mp hj
      rw [if_neg hjk, Function.update_of_ne hjk]
      exact ⟨(hold.2 j hjks).1, hkeep (hold.2 j hjks).2 (hroot j hjks)⟩

/-! ## Placing -/

theorem at?_placed (t : Doc ι κ σ) (n : ℕ) (p q : List (Doc.Step κ)) :
    (t.placed n p).at? q = (t.at? q).map (Doc.placed n (p ++ q)) := by
  induction q generalizing t p with
  | nil => rw [List.append_nil]; rfl
  | cons s q ih =>
    rw [Doc.at?_cons, Doc.at?_cons]
    have hchild : (t.placed n p).child? s = (t.child? s).map (Doc.placed n (p ++ [s])) := by
      cases t <;> cases s <;> simp only [Doc.placed, Doc.child?, Option.map_none] <;>
        split_ifs <;> rfl
    rw [hchild, Option.bind_map, Option.map_bind]
    refine congrArg _ (funext fun t' => ?_)
    rw [Function.comp_apply, Function.comp_apply, ih, List.append_assoc]
    rfl

theorem same_placed (t : Doc ι κ σ) (n : ℕ) (p : List (Doc.Step κ)) : (t.placed n p).Same t := by
  intro q
  rw [Doc.look, Doc.look, at?_placed, Option.map_map]
  refine congrArg (fun f => Option.map f _) (funext fun t' => ?_)
  cases t' <;> rfl

theorem labelAt_placed {t : Doc ι κ σ} {n : ℕ} {p q : List (Doc.Step κ)} {o : Address κ}
    (h : (t.placed n p).labelAt q = some o) : o = (n, p ++ q) := by
  rw [Doc.labelAt, at?_placed] at h
  cases hq : t.at? q with
  | none => simp [hq] at h
  | some u =>
    rw [hq] at h
    cases u with
    | scalar s => cases h
    | list m c => cases h
    | dict o' ks hks c => exact (Option.some.inj h).symm

/-- Every object of a new document is at one place. -/
theorem unaliased_placed (t : Doc ι κ σ) (n : ℕ) (p : List (Doc.Step κ)) :
    (t.placed n p).Unaliased := by
  intro ks q o hks hq
  have heq := (labelAt_placed hq).symm.trans (labelAt_placed hks)
  exact List.append_cancel_left (Prod.mk.inj heq).2

theorem separate_placed (t : Doc ι κ σ) (n : ℕ) (p : List (Doc.Step κ)) :
    (t.placed n p).Separate := by
  intro q q' o hq hq'
  have heq := (labelAt_placed hq).symm.trans (labelAt_placed hq')
  exact List.append_cancel_left (Prod.mk.inj heq).2

/-! ## New documents -/

theorem holds_newDocument {t : Doc ι κ σ} {h : Heap κ σ} {n : ℕ} {p : List (Doc.Step κ)}
    (hget : ∀ q u, (t.placed n p).at? q = some u → u.isDict → h.get (n, p ++ q) = u.cell) :
    h.Holds (t.placed n p) := by
  induction t generalizing p with
  | scalar s => trivial
  | list m c ih =>
    refine fun i hi => ih i fun q u hq hu => ?_
    rw [List.append_assoc]
    refine hget (.index i :: q) u ?_ hu
    rwa [Doc.placed, Doc.at?_cons, Doc.child?, if_pos hi]
  | dict o ks hks c ih =>
    refine holds_dict_of_get ?_ fun k hk => ih k fun q u hq hu => ?_
    · have := hget [] _ rfl rfl
      rwa [List.append_nil] at this
    · rw [List.append_assoc]
      refine hget (.key k :: q) u ?_ hu
      rwa [Doc.placed, Doc.at?_cons, Doc.child?, if_pos hk]

theorem made_placed {t : Doc ι κ σ} {n : ℕ} {p : List (Doc.Step κ)} {o : Address κ}
    (ho : o ∈ (t.placed n p).labels) : o.1 = n := by
  obtain ⟨q, hq⟩ := ho
  rw [labelAt_placed hq]

/-- A new document is in memory, when the objects made are those of the document. -/
theorem inMemory_newDocument {t : Doc ι κ σ} {h : Heap κ σ}
    {cells : List (Doc.Step κ) → Dict κ (Slot κ σ)}
    (hcells : ∀ p u, (t.placed h.documents []).at? p = some u → u.isDict → cells p = u.cell) :
    (h.newDocument cells).InMemory (t.placed h.documents []).slot (t.placed h.documents []) where
  slot := rfl
  holds := holds_newDocument fun p u hp hu => (if_pos rfl).trans (hcells p u hp hu)
  made o ho := by
    rw [made_placed ho]
    exact Nat.lt_succ_self _

/-- **A document that is read is in memory.** -/
theorem inMemory_load (h : Heap κ σ) (t : Doc ι κ σ) :
    (h.load t).1.InMemory (h.load t).2 (t.placed h.documents []) := by
  rw [load]
  dsimp only
  refine inMemory_newDocument fun p u hp hu => ?_
  rw [hp]
  rfl

/-- What is in memory is not changed by a new document. -/
theorem InMemory.newDocument {h : Heap κ σ} {v : Slot κ σ} {t : Doc (Address κ) κ σ}
    (hv : h.InMemory v t) (cells : List (Doc.Step κ) → Dict κ (Slot κ σ)) :
    (h.newDocument cells).InMemory v t where
  slot := hv.slot
  holds := hv.holds.congr fun o ho => if_neg (hv.made o ho).ne
  made o ho := (hv.made o ho).trans (Nat.lt_succ_self _)

theorem InMemory.load {h : Heap κ σ} {v : Slot κ σ} {t : Doc (Address κ) κ σ}
    (hv : h.InMemory v t) (u : Doc ι κ σ) : (h.load u).1.InMemory v t := by
  rw [Heap.load]
  dsimp only
  exact hv.newDocument _

theorem InMemory.copy {h : Heap κ σ} {v : Slot κ σ} {t : Doc (Address κ) κ σ}
    (hv : h.InMemory v t) (w : Slot κ σ) : (h.copy w).1.InMemory v t := by
  rw [Heap.copy]
  dsimp only
  exact hv.newDocument _

/-- What is one step into a document in memory is in memory. -/
theorem InMemory.child {h : Heap κ σ} {v : Slot κ σ} {t u : Doc (Address κ) κ σ} {s : Doc.Step κ}
    (hv : h.InMemory v t) (hu : t.child? s = some u) : h.InMemory u.slot u where
  slot := rfl
  holds := hv.holds.child hu
  made o ho := hv.made o (Doc.labels_child hu ho)

/-- A mapping that is read is the object at the root of its document. -/
theorem load_slot {h : Heap κ σ} {t : Doc ι κ σ} (ht : t.isDict) :
    (h.load t).2 = .ref (h.documents, []) := by
  obtain ⟨o, ks, hks, c, rfl⟩ := Doc.isDict_iff.mp ht
  rfl

/-- **A copy is a document of its own, and says the same.** -/
theorem inMemory_copy {h : Heap κ σ} {v : Slot κ σ} {t : Doc (Address κ) κ σ}
    (hv : h.InMemory v t) :
    (h.copy v).1.InMemory (h.copy v).2 (t.placed h.documents []) := by
  obtain ⟨rfl, hold, -⟩ := hv
  rw [copy, ← slot_placed]
  dsimp only
  refine inMemory_newDocument fun p u hp hu => ?_
  rw [at?_placed, List.nil_append, Option.map_eq_some_iff] at hp
  obtain ⟨t', ht', rfl⟩ := hp
  rw [follow_slot hold, ht']
  cases t' with
  | scalar s => cases hu
  | list n c => cases hu
  | dict o ks hks c =>
    have hnode : h.Holds (.dict o ks hks c) := hold.at ht'
    change (h.get o).mapWithKey (fun k s => s.placed h.documents (p ++ [.key k])) =
      (Doc.dict (h.documents, p) ks hks fun k => (c k).placed h.documents (p ++ [.key k])).cell
    refine Dict.ext_get? ?_ fun k => ?_
    · rw [Dict.keys_mapWithKey, hnode.1, Doc.cell, Dict.keys_tabulate]
    · rw [Dict.get?_mapWithKey, Doc.cell, Dict.get?_tabulate]
      split_ifs with hk
      · rw [(hnode.2 k hk).1, slot_placed]
        rfl
      · rw [Dict.get?_eq_none.mpr (hnode.1 ▸ hk)]
        rfl

/-! ## Visiting the items -/

section

variable {body : Heap κ σ → κ → Slot κ σ → Option (Heap κ σ)} {h : Heap κ σ} {o : Address κ}
  {P : List κ → Heap κ σ → Prop}

/-- A visit succeeds when every step of it does, and establishes what the steps do. -/
theorem forItems_of_step (hstart : P [] h)
    (hstep : ∀ done k h₁, done ++ [k] <+: (h.get o).keys → P done h₁ →
      ∃ v h₂, (h₁.get o).get? k = some v ∧ body h₁ k v = some h₂ ∧
        (h₂.get o).keys = (h.get o).keys ∧ P (done ++ [k]) h₂) :
    ∃ h', h.forItems body o = some h' ∧ P (h.get o).keys h' := by
  refine Fallible.foldlM_of_step hstart fun done k h₁ hpre hP => ?_
  obtain ⟨v, h₂, hv, hbody, hkeys, hP'⟩ := hstep done k h₁ hpre hP
  refine ⟨h₂, ?_, hP'⟩
  rw [hv, Option.bind_some, hbody, Option.bind_some, if_pos hkeys]

end

end Heap

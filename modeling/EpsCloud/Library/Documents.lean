import Mathlib

/-!
# Documents of mappings and lists

A document is a scalar, a list of documents, or a mapping of keys to documents; every
mapping carries a label, which may name the object that it is.  What a document says is
read place by place, so two documents are the same when they have the same things at the
same places: the order of a mapping's keys does not count, and neither do the labels.

* `Same.child`, `same_dict`, `same_list`: sameness goes by the parts.
* `setKey`: a mapping with one key set.
* `deepMerge`: two documents merged, the right one winning wherever one of the two is
  not a mapping.
* `Unaliased`: no mapping that is reached through keys is at a second place.
-/

namespace Doc

/-- A step into a document: to a key of a mapping, or to a place in a list. -/
inductive Step (κ : Type) where
  | key (k : κ)
  | index (i : ℕ)
  deriving DecidableEq

/-- What is at a place, without what is below it. -/
inductive Head (σ : Type) where
  | scalar (s : σ)
  | list (length : ℕ)
  | dict
  deriving DecidableEq

end Doc

/-- A document.  A list gives its items by their index, and a mapping what is at each of
its keys; what they give elsewhere is never read. -/
inductive Doc (ι κ σ : Type) where
  | scalar (s : σ)
  | list (length : ℕ) (item : ℕ → Doc ι κ σ)
  | dict (label : ι) (keys : List κ) (nodup : keys.Nodup) (child : κ → Doc ι κ σ)

namespace Doc

variable {ι ι' ι'' κ σ : Type}

/-- The keys of a path, without its places in lists. -/
def keysOf : List (Step κ) → List κ
  | [] => []
  | .key k :: p => k :: keysOf p
  | .index _ :: p => keysOf p

def head : Doc ι κ σ → Head σ
  | .scalar s => .scalar s
  | .list n _ => .list n
  | .dict _ _ _ _ => .dict

/-- The name of the object that a mapping is. -/
def label? : Doc ι κ σ → Option ι
  | .dict o _ _ _ => some o
  | .scalar _ => none
  | .list _ _ => none

def isDict : Doc ι κ σ → Bool
  | .dict _ _ _ _ => true
  | .scalar _ => false
  | .list _ _ => false

theorem isDict_iff {t : Doc ι κ σ} :
    t.isDict ↔ ∃ o ks, ∃ hks : ks.Nodup, ∃ c, t = dict o ks hks c := by
  cases t with
  | scalar _ => simp [isDict]
  | list _ _ => simp [isDict]
  | dict o ks h c => exact ⟨fun _ => ⟨o, ks, h, c, rfl⟩, fun _ => rfl⟩

variable [DecidableEq κ]

/-- What is one step into the document. -/
def child? : Doc ι κ σ → Step κ → Option (Doc ι κ σ)
  | .dict _ ks _ c, .key k => if k ∈ ks then some (c k) else none
  | .list n c, .index i => if i < n then some (c i) else none
  | _, _ => none

/-- What is at a place of the document. -/
def at? (t : Doc ι κ σ) : List (Step κ) → Option (Doc ι κ σ)
  | [] => some t
  | s :: p => (t.child? s).bind fun t' => t'.at? p

/-- What the document says at a place. -/
def look (t : Doc ι κ σ) (p : List (Step κ)) : Option (Head σ) := (t.at? p).map head

/-- The two documents say the same at every place. -/
def Same (t : Doc ι κ σ) (t' : Doc ι' κ σ) : Prop := ∀ p, t.look p = t'.look p

/-! ## Places -/

theorem at?_cons (t : Doc ι κ σ) (s : Step κ) (p : List (Step κ)) :
    t.at? (s :: p) = (t.child? s).bind fun t' => t'.at? p := rfl

theorem at?_append (t : Doc ι κ σ) (p q : List (Step κ)) :
    t.at? (p ++ q) = (t.at? p).bind fun t' => t'.at? q := by
  induction p generalizing t with
  | nil => rfl
  | cons s p ih =>
    rw [List.cons_append, at?_cons, at?_cons, Option.bind_assoc]
    exact congrArg _ (funext ih)

@[simp] theorem look_nil (t : Doc ι κ σ) : t.look [] = some t.head := rfl

theorem look_cons (t : Doc ι κ σ) (s : Step κ) (p : List (Step κ)) :
    t.look (s :: p) = (t.child? s).bind fun t' => t'.look p := by
  rw [look, at?_cons, Option.map_bind]
  rfl

theorem look_append (t : Doc ι κ σ) (p q : List (Step κ)) :
    t.look (p ++ q) = (t.at? p).bind fun t' => t'.look q := by
  rw [look, at?_append, Option.map_bind]
  rfl

theorem look_dict_cons (o : ι) (ks : List κ) (hks : ks.Nodup) (c : κ → Doc ι κ σ) (k : κ)
    (p : List (Step κ)) :
    (dict o ks hks c).look (.key k :: p) = if k ∈ ks then (c k).look p else none := by
  rw [look_cons, child?]
  split_ifs <;> rfl

theorem look_list_cons (n : ℕ) (c : ℕ → Doc ι κ σ) (i : ℕ) (p : List (Step κ)) :
    (list n c).look (.index i :: p) = if i < n then (c i).look p else none := by
  rw [look_cons, child?]
  split_ifs <;> rfl

/-! ## Sameness -/

theorem Same.refl (t : Doc ι κ σ) : Same t t := fun _ => rfl

theorem Same.symm {t : Doc ι κ σ} {t' : Doc ι' κ σ} (h : Same t t') : Same t' t :=
  fun p => (h p).symm

theorem Same.trans {t : Doc ι κ σ} {t' : Doc ι' κ σ} {t'' : Doc ι'' κ σ} (h : Same t t')
    (h' : Same t' t'') : Same t t'' := fun p => (h p).trans (h' p)

theorem Same.head {t : Doc ι κ σ} {t' : Doc ι' κ σ} (h : Same t t') : t.head = t'.head :=
  Option.some.inj (h [])

theorem Same.isDict {t : Doc ι κ σ} {t' : Doc ι' κ σ} (h : Same t t') :
    t.isDict = t'.isDict := by
  have := h.head
  cases t <;> cases t' <;> simp_all [Doc.head, Doc.isDict]

/-- What is at a place of one of two documents that are the same, is at that place of the other. -/
theorem Same.exists_at {t u : Doc ι κ σ} {t' : Doc ι' κ σ} (h : Same t t') {p : List (Step κ)}
    (hu : t.at? p = some u) : ∃ u', t'.at? p = some u' ∧ Same u u' := by
  have hp := h p
  rw [look, hu, Option.map_some] at hp
  obtain ⟨u', hu', -⟩ := Option.map_eq_some_iff.mp hp.symm
  refine ⟨u', hu', fun q => ?_⟩
  have hq := h (p ++ q)
  rwa [look_append, look_append, hu, hu', Option.bind_some, Option.bind_some] at hq

/-- Two mappings are the same when they have the same keys, with the same at each. -/
theorem same_dict {o : ι} {o' : ι'} {ks ks' : List κ} {hks : ks.Nodup} {hks' : ks'.Nodup}
    {c : κ → Doc ι κ σ} {c' : κ → Doc ι' κ σ} (hkeys : ∀ k, k ∈ ks ↔ k ∈ ks')
    (h : ∀ k ∈ ks, Same (c k) (c' k)) : Same (dict o ks hks c) (dict o' ks' hks' c') := by
  rintro (_ | ⟨k | i, p⟩)
  · rfl
  · rw [look_dict_cons, look_dict_cons]
    by_cases hk : k ∈ ks
    · rw [if_pos hk, if_pos ((hkeys k).mp hk), h k hk p]
    · rw [if_neg hk, if_neg (fun hk' => hk ((hkeys k).mpr hk'))]
  · rfl

theorem same_list {n : ℕ} {c : ℕ → Doc ι κ σ} {c' : ℕ → Doc ι' κ σ}
    (h : ∀ i < n, Same (c i) (c' i)) : Same (list n c) (list n c') := by
  rintro (_ | ⟨k | i, p⟩)
  · rfl
  · rfl
  · rw [look_list_cons, look_list_cons]
    split_ifs with hi
    · exact h i hi p
    · rfl

theorem Same.mem_keys {o : ι} {o' : ι'} {ks ks' : List κ} {hks : ks.Nodup} {hks' : ks'.Nodup}
    {c : κ → Doc ι κ σ} {c' : κ → Doc ι' κ σ}
    (h : Same (dict o ks hks c) (dict o' ks' hks' c')) (k : κ) : k ∈ ks ↔ k ∈ ks' := by
  have hk := h [.key k]
  rw [look_dict_cons, look_dict_cons, look_nil, look_nil] at hk
  by_cases hks : k ∈ ks <;> by_cases hks' : k ∈ ks' <;> simp_all

theorem Same.child {o : ι} {o' : ι'} {ks ks' : List κ} {hks : ks.Nodup} {hks' : ks'.Nodup}
    {c : κ → Doc ι κ σ} {c' : κ → Doc ι' κ σ}
    (h : Same (dict o ks hks c) (dict o' ks' hks' c')) {k : κ} (hk : k ∈ ks) :
    Same (c k) (c' k) := by
  intro p
  have hp := h (.key k :: p)
  rwa [look_dict_cons, look_dict_cons, if_pos hk, if_pos ((h.mem_keys k).mp hk)] at hp

theorem Same.item {n n' : ℕ} {c : ℕ → Doc ι κ σ} {c' : ℕ → Doc ι' κ σ}
    (h : Same (list n c) (list n' c')) : n = n' ∧ ∀ i < n, Same (c i) (c' i) := by
  obtain rfl : n = n' := by simpa [Doc.head] using h.head
  refine ⟨rfl, fun i hi p => ?_⟩
  have hp := h (.index i :: p)
  rwa [look_list_cons, look_list_cons, if_pos hi, if_pos hi] at hp

/-! ## Setting a key -/

theorem nodup_append_filter {ks ks' : List κ} (h : ks.Nodup) (h' : ks'.Nodup) :
    (ks ++ ks'.filter (· ∉ ks)).Nodup := by
  refine h.append (h'.filter _) fun k hk hk' => ?_
  simpa [hk] using (List.mem_filter.mp hk').2

theorem mem_append_filter {ks ks' : List κ} {k : κ} :
    k ∈ ks ++ ks'.filter (· ∉ ks) ↔ k ∈ ks ∨ k ∈ ks' := by
  rw [List.mem_append, List.mem_filter, decide_eq_true_iff]
  tauto

/-- Set a key of a mapping: a key that is there keeps its place, a new one comes last. -/
def setKey (t : Doc ι κ σ) (key : κ) (value : Doc ι κ σ) : Doc ι κ σ :=
  match t with
  | .dict o ks h c =>
    .dict o (ks ++ [key].filter (· ∉ ks)) (nodup_append_filter h (List.nodup_singleton key))
      (Function.update c key value)
  | t => t

theorem head_setKey (t : Doc ι κ σ) (k : κ) (v : Doc ι κ σ) : (t.setKey k v).head = t.head := by
  cases t <;> rfl

theorem isDict_setKey (t : Doc ι κ σ) (k : κ) (v : Doc ι κ σ) :
    (t.setKey k v).isDict = t.isDict := by
  cases t <;> rfl

theorem label?_setKey (t : Doc ι κ σ) (k : κ) (v : Doc ι κ σ) :
    (t.setKey k v).label? = t.label? := by
  cases t <;> rfl

/-- What is one step into a mapping with a key set. -/
theorem child?_setKey (t : Doc ι κ σ) (k : κ) (v : Doc ι κ σ) (s : Step κ) :
    (t.setKey k v).child? s = if t.isDict ∧ s = .key k then some v else t.child? s := by
  cases t with
  | scalar _ => simp [setKey, isDict]
  | list _ _ => simp [setKey, isDict]
  | dict o ks h c =>
    cases s with
    | index i => simp [setKey, child?]
    | key k' =>
      rcases eq_or_ne k' k with rfl | hk
      · simp [setKey, child?, isDict]
      · simp [setKey, child?, isDict, hk]

/-- Setting a key to what it has changes nothing. -/
theorem setKey_eq_self {t : Doc ι κ σ} {k : κ} {v : Doc ι κ σ} (h : t.child? (.key k) = some v) :
    t.setKey k v = t := by
  cases t with
  | scalar s => rfl
  | list n c => rfl
  | dict o ks hks c =>
    rw [child?, Option.ite_none_right_eq_some, Option.some.injEq] at h
    obtain ⟨hk, rfl⟩ := h
    simp only [setKey, Function.update_eq_self, dict.injEq, true_and, and_true]
    simp [hk]

theorem Same.setKey {t : Doc ι κ σ} {t' : Doc ι' κ σ} {v : Doc ι κ σ} {v' : Doc ι' κ σ}
    (h : Same t t') (k : κ) (hv : Same v v') : Same (t.setKey k v) (t'.setKey k v') := by
  rintro (_ | ⟨s, p⟩)
  · rw [look_nil, look_nil, head_setKey, head_setKey, h.head]
  · rw [look_cons, look_cons, child?_setKey, child?_setKey, h.isDict]
    split_ifs with hs
    · exact hv p
    · rw [← look_cons, ← look_cons]
      exact h (s :: p)

/-! ## Merging -/

/-- The two documents merged key by key: wherever one of the two is not a mapping, the
right one is taken. -/
def deepMerge (left : Doc ι κ σ) : Doc ι κ σ → Doc ι κ σ
  | .scalar s => .scalar s
  | .list n c => .list n c
  | .dict o' ks' h' c' =>
    match left with
    | .dict o ks h c =>
      .dict o (ks ++ ks'.filter (· ∉ ks)) (nodup_append_filter h h') fun k =>
        if k ∈ ks' then if k ∈ ks then (c k).deepMerge (c' k) else c' k else c k
    | _ => .dict o' ks' h' c'
termination_by structural right => right

@[simp] theorem deepMerge_dict (o o' : ι) (ks ks' : List κ) (h : ks.Nodup) (h' : ks'.Nodup)
    (c c' : κ → Doc ι κ σ) :
    (dict o ks h c).deepMerge (dict o' ks' h' c') =
      dict o (ks ++ ks'.filter (· ∉ ks)) (nodup_append_filter h h') fun k =>
        if k ∈ ks' then if k ∈ ks then (c k).deepMerge (c' k) else c' k else c k := rfl

/-- Where one of the two is not a mapping, the right one is taken. -/
theorem deepMerge_of_not {t u : Doc ι κ σ} (h : t.isDict = false ∨ u.isDict = false) :
    t.deepMerge u = u := by
  cases u with
  | scalar s => rfl
  | list n c => rfl
  | dict o ks hks c =>
    cases t with
    | scalar s => rfl
    | list n c' => rfl
    | dict o' ks' hks' c' => simp [isDict] at h

theorem isDict_deepMerge (t u : Doc ι κ σ) : (t.deepMerge u).isDict = u.isDict := by
  cases u <;> cases t <;> rfl

/-- Merging respects sameness. -/
theorem Same.deepMerge {t u : Doc ι κ σ} {t' u' : Doc ι' κ σ} (ht : Same t t')
    (hu : Same u u') : Same (t.deepMerge u) (t'.deepMerge u') := by
  induction u generalizing t t' u' with
  | scalar s =>
    rw [deepMerge_of_not (.inr rfl), deepMerge_of_not (.inr hu.isDict.symm)]
    exact hu
  | list n c =>
    rw [deepMerge_of_not (.inr rfl), deepMerge_of_not (.inr hu.isDict.symm)]
    exact hu
  | dict o ks hks c ih =>
    by_cases hdict : t.isDict
    · obtain ⟨ot, kt, hkt, ct, rfl⟩ := isDict_iff.mp hdict
      obtain ⟨ot', kt', hkt', ct', rfl⟩ := isDict_iff.mp (ht.isDict ▸ hdict)
      obtain ⟨o', ks', hks', c', rfl⟩ := isDict_iff.mp hu.isDict.symm
      rw [deepMerge_dict, deepMerge_dict]
      refine same_dict (fun k => ?_) fun k hk => ?_
      · rw [mem_append_filter, mem_append_filter, ht.mem_keys k, hu.mem_keys k]
      · simp only [← ht.mem_keys k, ← hu.mem_keys k]
        split_ifs with hk₂ hk₁
        · exact ih k (ht.child hk₁) (hu.child hk₂)
        · exact hu.child hk₂
        · exact ht.child ((mem_append_filter.mp hk).resolve_right hk₂)
    · rw [Bool.not_eq_true] at hdict
      rw [deepMerge_of_not (.inl hdict), deepMerge_of_not (.inl (ht.isDict ▸ hdict))]
      exact hu

/-! ## Labels -/

/-- The label of the mapping at a place. -/
def labelAt (t : Doc ι κ σ) (p : List (Step κ)) : Option ι := (t.at? p).bind label?

/-- The labels of the mappings of the document. -/
def labels (t : Doc ι κ σ) : Set ι := {o | ∃ p, t.labelAt p = some o}

/-- The labels of the mappings that are reached through keys only. -/
def keyLabels (t : Doc ι κ σ) : Set ι := {o | ∃ ks : List κ, t.labelAt (ks.map .key) = some o}

/-- No mapping that is reached through keys is at a second place. -/
def Unaliased (t : Doc ι κ σ) : Prop :=
  ∀ (ks : List κ) (q : List (Step κ)) (o : ι), t.labelAt (ks.map .key) = some o →
    t.labelAt q = some o → q = ks.map .key

theorem labelAt_cons (t : Doc ι κ σ) (s : Step κ) (p : List (Step κ)) :
    t.labelAt (s :: p) = (t.child? s).bind fun t' => t'.labelAt p := by
  rw [labelAt, at?_cons, Option.bind_assoc]
  rfl

theorem labelAt_key {o : ι} {ks : List κ} {hks : ks.Nodup} {c : κ → Doc ι κ σ} {k : κ}
    {p : List (Step κ)} (hk : k ∈ ks) :
    (dict o ks hks c).labelAt (.key k :: p) = (c k).labelAt p := by
  rw [labelAt_cons, child?, if_pos hk, Option.bind_some]

theorem labelAt_scalar (s : σ) (p : List (Step κ)) : (scalar s : Doc ι κ σ).labelAt p = none := by
  cases p <;> rfl

theorem labels_scalar (s : σ) : (scalar s : Doc ι κ σ).labels = ∅ := by
  refine Set.eq_empty_iff_forall_notMem.mpr ?_
  rintro o ⟨p, hp⟩
  exact Option.some_ne_none o (hp.symm.trans (labelAt_scalar s p))

theorem mem_labels_list {n : ℕ} {c : ℕ → Doc ι κ σ} {o : ι} :
    o ∈ (list n c).labels ↔ ∃ i < n, o ∈ (c i).labels := by
  constructor
  · rintro ⟨_ | ⟨k | i, p⟩, hp⟩
    · simp [labelAt, at?, label?] at hp
    · simp [labelAt, at?, child?] at hp
    · rw [labelAt_cons, child?] at hp
      split_ifs at hp with hi
      · exact ⟨i, hi, p, hp⟩
      · exact absurd hp (by simp)
  · rintro ⟨i, hi, p, hp⟩
    refine ⟨.index i :: p, ?_⟩
    rwa [labelAt_cons, child?, if_pos hi]

theorem mem_labels_dict {o' : ι} {ks : List κ} {hks : ks.Nodup} {c : κ → Doc ι κ σ} {o : ι} :
    o ∈ (dict o' ks hks c).labels ↔ o = o' ∨ ∃ k ∈ ks, o ∈ (c k).labels := by
  constructor
  · rintro ⟨_ | ⟨k | i, p⟩, hp⟩
    · exact .inl (Option.some.inj hp).symm
    · rw [labelAt_cons, child?] at hp
      split_ifs at hp with hk
      · exact .inr ⟨k, hk, p, hp⟩
      · exact absurd hp (by simp)
    · simp [labelAt, at?, child?] at hp
  · rintro (rfl | ⟨k, hk, p, hp⟩)
    · exact ⟨[], rfl⟩
    · exact ⟨.key k :: p, (labelAt_key hk).trans hp⟩

theorem mem_keyLabels_dict {o' : ι} {ks : List κ} {hks : ks.Nodup} {c : κ → Doc ι κ σ}
    {o : ι} :
    o ∈ (dict o' ks hks c).keyLabels ↔ o = o' ∨ ∃ k ∈ ks, o ∈ (c k).keyLabels := by
  constructor
  · rintro ⟨_ | ⟨k, p⟩, hp⟩
    · exact .inl (Option.some.inj hp).symm
    · rw [List.map_cons, labelAt_cons, child?] at hp
      split_ifs at hp with hk
      · exact .inr ⟨k, hk, p, hp⟩
      · exact absurd hp (by simp)
  · rintro (rfl | ⟨k, hk, p, hp⟩)
    · exact ⟨[], rfl⟩
    · exact ⟨k :: p, (labelAt_key hk).trans hp⟩

theorem keyLabels_subset (t : Doc ι κ σ) : t.keyLabels ⊆ t.labels :=
  fun _ ⟨ks, h⟩ => ⟨ks.map .key, h⟩

/-- Merging makes no mapping of its own. -/
theorem labels_deepMerge (t u : Doc ι κ σ) : (t.deepMerge u).labels ⊆ t.labels ∪ u.labels := by
  induction u generalizing t with
  | scalar s => exact Set.subset_union_right
  | list n c => exact Set.subset_union_right
  | dict o' ks' hks' c' ih =>
    cases t with
    | scalar s => exact Set.subset_union_right
    | list n c => exact Set.subset_union_right
    | dict o ks hks c =>
      intro x hx
      rw [deepMerge_dict, mem_labels_dict] at hx
      rw [Set.mem_union, mem_labels_dict, mem_labels_dict]
      rcases hx with rfl | ⟨k, hk, hx⟩
      · exact .inl (.inl rfl)
      · split_ifs at hx with hk₂ hk₁
        · rcases ih k (c k) hx with hx | hx
          · exact .inl (.inr ⟨k, hk₁, hx⟩)
          · exact .inr (.inr ⟨k, hk₂, hx⟩)
        · exact .inr (.inr ⟨k, hk₂, hx⟩)
        · exact .inl (.inr ⟨k, (mem_append_filter.mp hk).resolve_right hk₂, hx⟩)

/-! ## Aliases -/

section

variable {o : ι} {ks : List κ} {hks : ks.Nodup} {c : κ → Doc ι κ σ}

theorem Unaliased.child (h : (dict o ks hks c).Unaliased) {k : κ} (hk : k ∈ ks) :
    (c k).Unaliased := by
  intro ks' q x hx hq
  exact List.tail_eq_of_cons_eq (h (k :: ks') (.key k :: q) x ((labelAt_key hk).trans hx)
    ((labelAt_key hk).trans hq))

theorem Unaliased.root_notMem (h : (dict o ks hks c).Unaliased) {k : κ} (hk : k ∈ ks) :
    o ∉ (c k).labels := by
  rintro ⟨q, hq⟩
  exact List.cons_ne_nil _ _ (h [] (.key k :: q) o rfl ((labelAt_key hk).trans hq))

/-- What is under two keys has no mapping in common that is reached through keys. -/
theorem Unaliased.notMem (h : (dict o ks hks c).Unaliased) {k k' : κ} (hk : k ∈ ks)
    (hk' : k' ∈ ks) (hne : k' ≠ k) {x : ι} (hx : x ∈ (c k).keyLabels) : x ∉ (c k').labels := by
  rintro ⟨q, hq⟩
  obtain ⟨ks', hx⟩ := hx
  have heq := h (k :: ks') (.key k' :: q) x ((labelAt_key hk).trans hx)
    ((labelAt_key hk').trans hq)
  rw [List.map_cons] at heq
  exact hne (Step.key.inj (List.head_eq_of_cons_eq heq))

end

/-! ## Documents that share nothing -/

/-- No mapping is at two places. -/
def Separate (t : Doc ι κ σ) : Prop :=
  ∀ (p q : List (Step κ)) (o : ι), t.labelAt p = some o → t.labelAt q = some o → p = q

section

variable {t u u' : Doc ι κ σ} {s s' : Step κ}

theorem labelAt_child (hu : t.child? s = some u) (p : List (Step κ)) :
    t.labelAt (s :: p) = u.labelAt p := by
  rw [labelAt_cons, hu, Option.bind_some]

theorem labels_child (hu : t.child? s = some u) : u.labels ⊆ t.labels :=
  fun _ ⟨p, hp⟩ => ⟨s :: p, (labelAt_child hu p).trans hp⟩

theorem Separate.child (h : t.Separate) (hu : t.child? s = some u) : u.Separate :=
  fun p q o hp hq => List.tail_eq_of_cons_eq
    (h (s :: p) (s :: q) o ((labelAt_child hu p).trans hp) ((labelAt_child hu q).trans hq))

theorem Separate.root_notMem (h : t.Separate) {o : ι} (ho : t.label? = some o)
    (hu : t.child? s = some u) : o ∉ u.labels := by
  rintro ⟨p, hp⟩
  exact List.cons_ne_nil _ _ (h (s :: p) [] o ((labelAt_child hu p).trans hp) ho)

/-- What is at two steps has no mapping in common. -/
theorem Separate.notMem (h : t.Separate) (hu : t.child? s = some u) (hu' : t.child? s' = some u')
    (hne : s ≠ s') {o : ι} (ho : o ∈ u.labels) : o ∉ u'.labels := by
  rintro ⟨q, hq⟩
  obtain ⟨p, hp⟩ := ho
  exact hne (List.head_eq_of_cons_eq
    (h (s :: p) (s' :: q) o ((labelAt_child hu p).trans hp) ((labelAt_child hu' q).trans hq)))

theorem Separate.of_labelAt {t' : Doc ι κ σ} (h : t.Separate)
    (hsub : ∀ p o, t'.labelAt p = some o → t.labelAt p = some o) : t'.Separate :=
  fun p q o hp hq => h p q o (hsub p o hp) (hsub q o hq)

end

theorem labelAt_setKey_scalar {t : Doc ι κ σ} {k : κ} {a : σ} {p : List (Step κ)} {o : ι}
    (h : (t.setKey k (.scalar a)).labelAt p = some o) : t.labelAt p = some o := by
  cases p with
  | nil => exact (label?_setKey t k _).symm.trans h
  | cons s p =>
    rw [labelAt_cons, child?_setKey] at h
    split_ifs at h
    · rw [Option.bind_some, labelAt_scalar] at h
      cases h
    · rwa [labelAt_cons]

theorem labels_setKey_scalar (t : Doc ι κ σ) (k : κ) (a : σ) :
    (t.setKey k (.scalar a)).labels ⊆ t.labels :=
  fun _ ⟨p, hp⟩ => ⟨p, labelAt_setKey_scalar hp⟩

/-! ## Changing what is below -/

/-- The document with everything one step below changed. -/
def mapItems (f : Doc ι κ σ → Doc ι κ σ) : Doc ι κ σ → Doc ι κ σ
  | .scalar s => .scalar s
  | .list n c => .list n fun i => f (c i)
  | .dict o ks h c => .dict o ks h fun k => f (c k)

omit [DecidableEq κ] in
theorem head_mapItems (f : Doc ι κ σ → Doc ι κ σ) (t : Doc ι κ σ) :
    (t.mapItems f).head = t.head := by
  cases t <;> rfl

theorem child?_mapItems (f : Doc ι κ σ → Doc ι κ σ) (t : Doc ι κ σ) (s : Step κ) :
    (t.mapItems f).child? s = (t.child? s).map f := by
  cases t <;> cases s <;> simp only [mapItems, child?, Option.map_none] <;> split_ifs <;> rfl

theorem mapItems_setKey (f : Doc ι κ σ → Doc ι κ σ) (t : Doc ι κ σ) (k : κ) (v : Doc ι κ σ) :
    (t.setKey k v).mapItems f = (t.mapItems f).setKey k (f v) := by
  cases t with
  | scalar s => rfl
  | list n c => rfl
  | dict o ks h c =>
    simp only [setKey, mapItems]
    exact congrArg _ (Function.comp_update f c k v)

/-! ## Changing the scalars -/

def Head.map (f : σ → σ) : Head σ → Head σ
  | .scalar s => .scalar (f s)
  | .list n => .list n
  | .dict => .dict

/-- The document with every scalar changed. -/
def mapScalar (f : σ → σ) : Doc ι κ σ → Doc ι κ σ
  | .scalar s => .scalar (f s)
  | .list n c => .list n fun i => (c i).mapScalar f
  | .dict o ks h c => .dict o ks h fun k => (c k).mapScalar f

theorem child?_mapScalar (f : σ → σ) (t : Doc ι κ σ) (s : Step κ) :
    (t.mapScalar f).child? s = (t.child? s).map (mapScalar f) := by
  cases t <;> cases s <;> simp only [mapScalar, child?, Option.map_none] <;> split_ifs <;> rfl

theorem look_mapScalar (f : σ → σ) (t : Doc ι κ σ) (p : List (Step κ)) :
    (t.mapScalar f).look p = (t.look p).map (Head.map f) := by
  induction p generalizing t with
  | nil => cases t <;> rfl
  | cons s p ih =>
    rw [look_cons, look_cons, child?_mapScalar, Option.bind_map, Option.map_bind]
    exact congrArg _ (funext ih)

end Doc

import EpsCloud.Deploy.MergedValues

/-!
# Values files with aliases

In a values file an alias is the same mapping as its anchor.  `merge` changes the mappings
of its left side in place, so a second file that sets a key through one of the two also
sets it through the other.

* `mergesWell_of_unaliased`: for an unaliased file merging is right, and stripping may come
  before it or after it.
* `unaliased_of_mergesWell`: for any other file there is a second one that shows it.
-/

namespace EpsCloud

open Doc (Step Same keysOf)

variable {ι κ σ : Type}

/-! ## A chain of keys -/

/-- The mapping that has one key at each level, and the document at the end. -/
def chain : List κ → Doc Unit κ σ → Doc Unit κ σ
  | [], t => t
  | k :: ks, t => .dict () [k] (List.nodup_singleton k) fun _ => chain ks t

theorem isDict_of_slot {t : Doc (Address κ) κ σ} {o : Address κ} (h : t.slot = .ref o) :
    t.isDict := by
  obtain ⟨ks, hks, c, rfl⟩ := slot_eq_ref_iff.mp h
  rfl

variable [DecidableEq κ]

theorem look_single (o : ι) (k : κ) (t : Doc ι κ σ) (s : Step κ) (p : List (Step κ)) :
    (Doc.dict o [k] (List.nodup_singleton k) fun _ => t).look (s :: p) =
      if s = .key k then t.look p else none := by
  cases s with
  | index i => rfl
  | key j =>
    rw [Doc.look_dict_cons]
    simp

/-- A chain of keys has the last one at its end only. -/
theorem look_chain {ks : List κ} {k : κ} {s : σ} (hk : k ∉ ks) {q : List (Step κ)}
    (hq : q ≠ ks.map .key) : (chain (ks ++ [k]) (.scalar s)).look (q ++ [.key k]) = none := by
  induction ks generalizing q with
  | nil =>
    cases q with
    | nil => exact absurd rfl hq
    | cons i q =>
      rw [List.nil_append, chain, List.cons_append, look_single]
      split_ifs
      · exact look_scalar_concat ..
      · rfl
  | cons j ks ih =>
    rw [List.mem_cons, not_or] at hk
    rw [List.cons_append, chain]
    cases q with
    | nil => rw [List.nil_append, look_single, if_neg fun h => hk.1 (Step.key.inj h)]
    | cons i q =>
      rw [List.cons_append, look_single]
      split_ifs with hi
      · refine ih hk.2 fun h => hq ?_
        rw [hi, h, List.map_cons]
      · rfl

theorem look_deepMerge_eq_none {t u : Doc ι κ σ} {p : List (Step κ)} (ht : t.look p = none)
    (hu : u.look p = none) : (t.deepMerge u).look p = none := by
  induction p generalizing t u with
  | nil => cases hu
  | cons s p ih =>
    by_cases hdict : t.isDict ∧ u.isDict
    · obtain ⟨o, ks, hks, c, rfl⟩ := Doc.isDict_iff.mp hdict.1
      obtain ⟨o', ks', hks', c', rfl⟩ := Doc.isDict_iff.mp hdict.2
      cases s with
      | index i => rfl
      | key k =>
        rw [Doc.look_dict_cons] at ht hu
        rw [Doc.deepMerge_dict, Doc.look_dict_cons]
        by_cases hk : k ∈ ks <;> by_cases hk' : k ∈ ks' <;>
          simp only [Doc.mem_append_filter, hk, hk', if_true, if_false, or_true,
            or_false] at ht hu ⊢ <;> first | exact ih ht hu | assumption
    · rwa [Doc.deepMerge_of_not]
      rw [← Bool.not_eq_true, ← Bool.not_eq_true]
      exact not_and_or.mp hdict

/-! ## Merging a chain -/

theorem mem_keys_of_labelAt {t : Doc ι κ σ} {k : κ} {p : List (Step κ)} {o : ι}
    (h : t.labelAt (.key k :: p) = some o) :
    ∃ o' ks, ∃ hks : ks.Nodup, ∃ c, t = .dict o' ks hks c ∧ k ∈ ks ∧ (c k).labelAt p = some o := by
  cases t with
  | scalar s => cases h
  | list n c => cases h
  | dict o' ks hks c =>
    rw [Doc.labelAt_cons, Doc.child?] at h
    split_ifs at h with hk
    · exact ⟨o', ks, hks, c, rfl, hk, h⟩
    · cases h

theorem slot_of_labelAt_nil {t : Doc (Address κ) κ σ} {o : Address κ}
    (h : t.labelAt [] = some o) : t.slot = .ref o := by
  cases t with
  | scalar s => cases h
  | list n c => cases h
  | dict o' ks hks c => rw [← Option.some.inj h]; rfl

theorem isDict_of_labelAt {t : Doc ι κ σ} {ks : List κ} {o : ι}
    (h : t.labelAt (ks.map .key) = some o) : t.isDict := by
  cases t with
  | dict o' ks hks c => rfl
  | scalar s => cases ks <;> cases h
  | list n c => cases ks <;> cases h

theorem forItems_single {body : Heap κ σ → κ → Slot κ σ → Option (Heap κ σ)} {h h' : Heap κ σ}
    {r : Address κ} {k : κ} {v : Slot κ σ} (hkeys : (h.get r).keys = [k])
    (hget : (h.get r).get? k = some v) (hrun : h.forItems body r = some h') :
    body h k v = some h' := by
  unfold Heap.forItems at hrun
  simp only [hkeys, List.foldlM_cons, List.foldlM_nil, hget, Option.bind_some] at hrun
  obtain ⟨h₁, hone, hend⟩ := Option.bind_eq_some_iff.mp hrun
  obtain ⟨h₂, hbody, hone⟩ := Option.bind_eq_some_iff.mp hone
  rw [hbody, ← Option.some.inj hend, ← Option.some.inj (Option.ite_none_right_eq_some.mp hone).2]

/-- Merging a chain of keys sets the last key of the mapping that the others lead to. -/
theorem merge_chain {ks : List κ} {k : κ} {s : σ} {h h' : Heap κ σ} {t : Doc (Address κ) κ σ}
    {n depth : ℕ} {p : List (Step κ)} {l o : Address κ} (hold : h.Holds t) (hl : t.slot = .ref l)
    (ho : t.labelAt (ks.map .key) = some o) (hk : k ∉ (h.get o).keys)
    (hchain : h.Holds ((chain (ks ++ [k]) (.scalar s)).placed n p))
    (hrun : merge depth h l (n, p) = some h') : h' = h.setKey o k (.scalar s) := by
  induction ks generalizing t n depth p l with
  | nil =>
    cases depth with
    | zero => cases hrun
    | succ d =>
      cases (slot_of_labelAt_nil ho).symm.trans hl
      have hbody := forItems_single hchain.1 (hchain.2 k (List.mem_singleton_self k)).1 hrun
      rw [mergeItem_of_none (Dict.get?_eq_none.mpr hk)] at hbody
      exact (Option.some.inj hbody).symm
  | cons j ks ih =>
    cases depth with
    | zero => cases hrun
    | succ d =>
      obtain ⟨o', ks', hks', c, rfl, hj, hoj⟩ := mem_keys_of_labelAt ho
      cases hl
      obtain ⟨hget, hcj⟩ := hold.2 j hj
      obtain ⟨l₁, hl₁⟩ := slot_of_isDict (isDict_of_labelAt hoj)
      obtain ⟨hget', hrest⟩ := hchain.2 j (List.mem_singleton_self j)
      have hnext : (h.get (n, p)).get? j = some (.ref (n, p ++ [.key j])) :=
        hget'.trans (by cases ks <;> rfl)
      have hbody := forItems_single hchain.1 hnext hrun
      rw [mergeItem_refs (hl₁ ▸ hget)] at hbody
      exact ih hcj hl₁ hoj hrest hbody

/-! ## Both directions -/

variable (text : String ↪ κ) (never : σ)

/-- `merge` of two values that share nothing, each in memory as a document of its own. -/
def mergeApart (h : Heap κ σ) (a b : Doc Unit κ σ) (depth : ℕ) : Option (Heap κ σ × Slot κ σ) :=
  let left := h.load a
  let right := left.1.load b
  match left.2, right.2 with
  | .ref l, .ref r => (merge depth right.1 l r).map fun h' => (h', left.2)
  | _, _ => none

/-- With every second file, merging in place gives the two files merged key by key, and
stripping that gives what merging the stripped files does. -/
def MergesWell (a : Doc (Address κ) κ σ) : Prop :=
  ∀ (h : Heap κ σ) (l r : Address κ) (b : Doc (Address κ) κ σ), h.InMemory (.ref l) a →
    h.InMemory (.ref r) b → (∀ x ∈ a.labels, x ∉ b.labels) →
    ∃ enough, ∀ depth ≥ enough, ∃ h' m, merge depth h l r = some h' ∧
      h'.InMemory (.ref l) m ∧ Same m (a.deepMerge b) ∧
      ∀ localImages, ∃ h₂ v m₂,
        mergeApart h (stripPullSecrets text never localImages [] a)
          (stripPullSecrets text never localImages [] b) depth = some (h₂, v) ∧
        h₂.InMemory v m₂ ∧ Same (stripPullSecrets text never localImages [] m) m₂

variable {text never}

/-- **The merge of an unaliased file is in memory.** -/
theorem merge_inMemory {a b : Doc (Address κ) κ σ} {h : Heap κ σ} {l r : Address κ} {depth : ℕ}
    (ha : h.InMemory (.ref l) a) (hb : h.InMemory (.ref r) b) (hu : a.Unaliased)
    (hdis : ∀ x ∈ a.labels, x ∉ b.labels) (hdepth : nesting b ≤ depth) :
    ∃ h', merge depth h l r = some h' ∧ h'.InMemory (.ref l) (a.deepMerge b) := by
  obtain ⟨h', hrun, hinto⟩ := merge_holds ha.slot hb.slot ha.holds hb.holds hu
    (fun x hx => hdis x (Doc.keyLabels_subset a hx)) hdepth
  refine ⟨h', hrun, ?_, hinto.holds, fun o ho => ?_⟩
  · obtain ⟨ks, hks, c, rfl⟩ := slot_eq_ref_iff.mp ha.slot
    obtain ⟨ks', hks', c', rfl⟩ := slot_eq_ref_iff.mp hb.slot
    rfl
  · rw [hinto.documents]
    exact (Doc.labels_deepMerge a b ho).elim (ha.made o) (hb.made o)

/-- Values that share nothing are merged key by key. -/
theorem mergeApart_inMemory {a b : Doc Unit κ σ} (h : Heap κ σ) (ha : a.isDict)
    (hb : b.isDict) : ∃ enough, ∀ depth ≥ enough, ∃ h₂ v m₂,
      mergeApart h a b depth = some (h₂, v) ∧ h₂.InMemory v m₂ ∧ Same (a.deepMerge b) m₂ := by
  have hleft := (Heap.inMemory_load h a).load b
  have hright := Heap.inMemory_load (h.load a).1 b
  rw [Heap.load_slot ha] at hleft
  rw [Heap.load_slot hb] at hright
  have hdis : ∀ x ∈ (a.placed h.documents []).labels,
      x ∉ (b.placed (h.load a).1.documents []).labels := fun x hx hx' =>
    (Nat.lt_succ_self h.documents).ne
      ((Heap.made_placed hx).symm.trans (Heap.made_placed hx'))
  refine ⟨nesting (b.placed (h.load a).1.documents []), fun depth hdepth => ?_⟩
  obtain ⟨h₂, hrun, hm⟩ := merge_inMemory hleft hright (Heap.unaliased_placed a _ _) hdis hdepth
  refine ⟨h₂, _, _, ?_, hm, ?_⟩
  · rw [mergeApart, Heap.load_slot ha, Heap.load_slot hb]
    dsimp only
    rw [hrun]
    rfl
  · exact ((Heap.same_placed a _ _).deepMerge (Heap.same_placed b _ _)).symm

/-- **An unaliased file merges well.** -/
theorem mergesWell_of_unaliased {a : Doc (Address κ) κ σ} (hu : a.Unaliased) :
    MergesWell text never a := by
  intro h l r b ha hb hdis
  choose n hn using fun localImages => mergeApart_inMemory h
    (a := stripPullSecrets text never localImages [] a)
    (b := stripPullSecrets text never localImages [] b)
    (by rw [isDict_strip, isDict_of_slot ha.slot]) (by rw [isDict_strip, isDict_of_slot hb.slot])
  refine ⟨max (nesting b) (max (n true) (n false)), fun depth hdepth => ?_⟩
  obtain ⟨hdepth, htrue, hfalse⟩ : nesting b ≤ depth ∧ n true ≤ depth ∧ n false ≤ depth := by
    simpa using hdepth
  obtain ⟨h', hrun, hm⟩ := merge_inMemory ha hb hu hdis hdepth
  refine ⟨h', _, hrun, hm, Same.refl _, fun localImages => ?_⟩
  obtain ⟨h₂, v, m₂, hrun₂, hm₂, hsame⟩ := hn localImages depth
    (by cases localImages <;> assumption)
  exact ⟨h₂, v, m₂, hrun₂, hm₂, (strip_deepMerge [] a b).trans hsame⟩

theorem exists_at?_of_labelAt {t : Doc ι κ σ} {q : List (Step κ)} {o : ι}
    (h : t.labelAt q = some o) :
    ∃ ks, ∃ hks : ks.Nodup, ∃ c, t.at? q = some (.dict o ks hks c) := by
  obtain ⟨u, hu, ho⟩ := Option.bind_eq_some_iff.mp h
  cases u with
  | scalar s => cases ho
  | list n c => cases ho
  | dict o' ks hks c =>
    cases ho
    exact ⟨ks, hks, c, hu⟩

/-- A key set in a shared mapping shows wherever the mapping is. -/
theorem follow_shared {t : Doc (Address κ) κ σ} {h : Heap κ σ} {l o : Address κ} {k : κ} {s : σ}
    {q : List (Step κ)} (ht : h.InMemory (.ref l) t) (hq : t.labelAt q = some o)
    (hk : k ∉ (h.get o).keys) :
    (h.setKey o k (.scalar s)).follow (.ref l) (q ++ [.key k]) = some (.scalar s) := by
  obtain ⟨ks, hks, c, hat⟩ := exists_at?_of_labelAt hq
  have hfollow : h.follow (.ref l) q = some (.ref o) := by
    rw [← ht.slot, Heap.follow_slot ht.holds, hat]
    rfl
  rw [Heap.follow_append, Heap.follow_setKey (Dict.get?_eq_none.mpr hk) hfollow, Option.bind_some,
    Heap.follow, Heap.step, Heap.get?_setKey, if_pos ⟨rfl, rfl⟩]
  rfl

theorem look_of_follow {t : Doc (Address κ) κ σ} {h : Heap κ σ} {v : Slot κ σ} {s : σ}
    {p : List (Step κ)} (ht : h.InMemory v t) (hp : h.follow v p = some (.scalar s)) :
    t.look p = some (.scalar s) := by
  rw [← ht.slot, Heap.follow_slot ht.holds] at hp
  obtain ⟨u, hu, hslot⟩ := Option.map_eq_some_iff.mp hp
  rw [Doc.look, hu]
  cases u <;> cases hslot
  rfl

/-- **A file that merges well is unaliased**, if there is any memory with it. -/
theorem unaliased_of_mergesWell {a : Doc (Address κ) κ σ} {h : Heap κ σ} {l : Address κ}
    (ha : h.InMemory (.ref l) a) (hwell : MergesWell text never a) : a.Unaliased := by
  intro ks q o hks hq
  by_contra hne
  -- A new key at the end of a chain of keys to the shared mapping shows at its other place.
  have hinf : Infinite κ := Infinite.of_injective text text.injective
  obtain ⟨k, hk⟩ := Infinite.exists_notMem_finset (ks ++ (h.get o).keys).toFinset
  rw [List.mem_toFinset, List.mem_append, not_or] at hk
  have hb := Heap.inMemory_load h (chain (ks ++ [k]) (.scalar never))
  have ha' := ha.load (chain (ks ++ [k]) (.scalar never))
  have hk' : k ∉ ((h.load (chain (ks ++ [k]) (.scalar never))).1.get o).keys :=
    (congrArg Dict.keys (if_neg (ha.made o ⟨_, hks⟩).ne)).symm ▸ hk.2
  rw [Heap.load_slot (by cases ks <;> rfl)] at hb
  obtain ⟨n, hn⟩ := hwell _ l _ _ ha' hb fun x hx hx' => (ha.made x hx).ne (Heap.made_placed hx')
  obtain ⟨h', m, hrun, hm, hsame, -⟩ := hn n le_rfl
  have hset := merge_chain ha'.holds ha'.slot hks hk' hb.holds hrun
  have hlook : m.look (q ++ [.key k]) = some (.scalar never) := by
    subst hset
    exact look_of_follow hm (follow_shared ha' hq hk')
  have hnone : (a.deepMerge ((chain (ks ++ [k]) (.scalar never)).placed h.documents [])).look
      (q ++ [.key k]) = none := by
    refine look_deepMerge_eq_none ?_ ?_
    · obtain ⟨ks', hks', c, hat⟩ := exists_at?_of_labelAt hq
      have hkeys : (h.get o).keys = ks' := (ha.holds.at hat).1
      rw [Doc.look_append, hat, Option.bind_some, Doc.look_dict_cons, if_neg (hkeys ▸ hk.2)]
    · rw [Heap.same_placed, look_chain hk.1 hne]
  rw [hsame, hnone] at hlook
  cases hlook

/-- **Stripping is complete, exact and idempotent, and merging is right and independent of
it, exactly for the files in which no mapping that is reached through keys is aliased.** -/
theorem strips_and_merges_iff (text : String ↪ κ) (never : σ) (h : Heap κ σ) (l : Address κ)
    (a : Doc (Address κ) κ σ) (ha : h.InMemory (.ref l) a) :
    ((∀ (ι : Type) (t : Doc ι κ σ) (localImages : Bool), StripsExactly text never localImages t) ∧
      MergesWell text never a) ↔ a.Unaliased := by
  constructor
  · rintro ⟨-, hwell⟩
    exact unaliased_of_mergesWell ha hwell
  · intro hu
    exact ⟨fun _ t localImages => stripsExactly localImages t, mergesWell_of_unaliased hu⟩

def emptyHeap : Heap String String where
  documents := 0
  get _ := Dict.empty

/-- A file that sets one tag is stripped and merged well: it has no alias. -/
theorem strips_and_merges_one_tag :
    (∀ (ι : Type) (t : Doc ι String String) (localImages : Bool),
        StripsExactly (Function.Embedding.refl String) "Never" localImages t) ∧
      MergesWell (Function.Embedding.refl String) "Never"
        ((chain ["web", "image", "tag"] (.scalar "v1") : Doc Unit String String).placed 0 []) :=
  (strips_and_merges_iff (Function.Embedding.refl String) "Never" _ (0, []) _
    (Heap.inMemory_load emptyHeap (chain ["web", "image", "tag"] (.scalar "v1")))).mpr
    (Heap.unaliased_placed _ 0 [])

/-! ## A file with an alias -/

/-- The mapping `&image` with a tag. -/
def anchored : Doc (Address String) String String :=
  .dict (0, [.key "web"]) ["tag"] (List.nodup_singleton _) fun _ => .scalar "v1"

theorem nodup_web_worker : ["web", "worker"].Nodup := by decide

/-- The file with `web: &image` and `worker: *image`. -/
def aliasFile : Doc (Address String) String String :=
  .dict (0, []) ["web", "worker"] nodup_web_worker fun _ => anchored

def aliasHeap : Heap String String where
  documents := 1
  get o := if o = (0, []) then aliasFile.cell else anchored.cell

theorem inMemory_aliasFile : aliasHeap.InMemory (.ref (0, [])) aliasFile where
  slot := rfl
  holds := Heap.holds_dict_of_get rfl fun _ _ => Heap.holds_dict_of_get rfl fun _ _ => trivial
  made o ho := by
    rcases Doc.mem_labels_dict.mp ho with rfl | ⟨_, -, ho⟩
    · exact Nat.one_pos
    · rcases Doc.mem_labels_dict.mp ho with rfl | ⟨_, -, ho⟩
      · exact Nat.one_pos
      · have hnone : (.scalar "v1" : Doc (Address String) String String).labels = ∅ :=
          Doc.labels_scalar "v1"
        exact absurd (hnone ▸ ho) (Set.notMem_empty o)

/-- A second file that sets the tag of `web` also sets the tag of `worker`. -/
theorem alias_changes_worker :
    aliasHeap.InMemory (.ref (0, [])) aliasFile ∧
      (∃ h', merge 2 (aliasHeap.load (chain ["web", "tag"] (.scalar "v2"))).1 (0, []) (1, []) =
          some h' ∧
        h'.follow (.ref (0, [])) [.key "worker", .key "tag"] = some (.scalar "v2")) ∧
      (aliasFile.deepMerge ((chain ["web", "tag"] (.scalar "v2")).placed 1 [])).look
        [.key "worker", .key "tag"] = some (.scalar "v1") ∧
      ¬ MergesWell (Function.Embedding.refl String) "Never" aliasFile := by
  refine ⟨inMemory_aliasFile, ⟨_, rfl, rfl⟩, rfl, fun hwell => ?_⟩
  have hu := unaliased_of_mergesWell inMemory_aliasFile hwell ["web"] [.key "worker"]
    (0, [.key "web"]) rfl rfl
  exact absurd hu (by decide)

end EpsCloud

import EpsCloud.Deploy.HelmValues

/-!
# What stripping changes

A stripped value has no pull-secret key at any depth, for local images the pull policy of
every image is `Never`, and at every other place it says what the value says.  Stripping
twice is stripping once, and stripping goes through merging.

* `look_strip_pullSecret`: no pull-secret key is left.
* `look_strip_policy`: every image is pinned.
* `look_strip_of_kept`: nothing else is changed.
* `strip_strip`: stripping is idempotent.
* `strip_deepMerge`: a stripped merge is the merge of what is stripped.
-/

namespace EpsCloud

open Doc (Step Same keysOf)

variable {ι ι' κ σ : Type} [DecidableEq κ] (text : String ↪ κ) (never : σ) (localImages : Bool)

/-- The place is the pull policy of something stored under `image`, or is below it. -/
def IsPolicy (path : List κ) (p : List (Step κ)) : Prop :=
  ∃ q r, p = q ++ .key (text "image") ::
    .key (policyKey text (path ++ keysOf q ++ [text "image"])) :: r

/-- Stripping leaves the place as it is. -/
structure IsKept (path : List κ) (p : List (Step κ)) : Prop where
  keys : ∀ k ∈ keysOf p, ¬ isPullSecret text k
  policy : localImages → ¬ IsPolicy text path p

variable {text never localImages}

/-! ## The keys -/

theorem not_isPullSecret_text {s : String} (h : s ≠ "imagePullSecrets") (h' : s ≠ "pullSecrets") :
    ¬ isPullSecret text (text s) := by
  simp [isPullSecret, text.injective.eq_iff, h, h']

theorem not_isPullSecret_policyKey (path : List κ) : ¬ isPullSecret text (policyKey text path) := by
  unfold policyKey
  split_ifs
  · exact not_isPullSecret_text (by decide) (by decide)
  · exact not_isPullSecret_text (by decide) (by decide)

theorem look_scalar_concat (s : σ) (p : List (Step κ)) (x : Step κ) :
    (.scalar s : Doc ι κ σ).look (p ++ [x]) = none := by
  cases p <;> rfl

theorem look_pinPolicy_pullSecret {k' : κ} {path : List κ} {t : Doc Unit κ σ}
    {p : List (Step κ)} {k : κ} (hk : isPullSecret text k)
    (ht : t.look (p ++ [.key k]) = none) :
    (pinPolicy text never localImages k' path t).look (p ++ [.key k]) = none := by
  cases p with
  | nil =>
    rw [List.nil_append, look_pinPolicy_cons, if_neg]
    · exact ht
    · rintro ⟨-, heq⟩
      exact not_isPullSecret_policyKey path (Step.key.inj heq ▸ hk)
  | cons s p =>
    rw [List.cons_append, look_pinPolicy_cons]
    split_ifs
    · exact look_scalar_concat ..
    · exact ht

/-- **No mapping of a stripped value has a pull-secret key.** -/
theorem look_strip_pullSecret (path : List κ) (t : Doc ι κ σ) (p : List (Step κ)) {k : κ}
    (hk : isPullSecret text k) :
    (stripPullSecrets text never localImages path t).look (p ++ [.key k]) = none := by
  induction p generalizing path t with
  | nil => rw [List.nil_append, look_strip_key, if_pos hk]
  | cons s p ih =>
    cases s with
    | index i =>
      rw [List.cons_append, look_strip_index]
      exact Option.bind_eq_none_iff.mpr fun u _ => ih path u
    | key k' =>
      rw [List.cons_append, look_strip_key]
      split_ifs
      · rfl
      · exact Option.bind_eq_none_iff.mpr fun u _ =>
          look_pinPolicy_pullSecret hk (ih (path ++ [k']) u)

/-! ## The policies -/

/-- **The pull policy of every image is pinned.** -/
theorem look_strip_policy (path : List κ) (t : Doc ι κ σ) (q : List (Step κ))
    (hq : (stripPullSecrets text never true path t).look (q ++ [.key (text "image")]) =
      some .dict) :
    (stripPullSecrets text never true path t).look (q ++ [.key (text "image"),
      .key (policyKey text (path ++ keysOf q ++ [text "image"]))]) = some (.scalar never) := by
  induction q generalizing path t with
  | nil =>
    rw [List.nil_append, look_strip_key] at hq ⊢
    rw [if_neg (not_isPullSecret_text (by decide) (by decide))] at hq ⊢
    obtain ⟨u, hu, hdict⟩ := Option.bind_eq_some_iff.mp hq
    rw [hu, Option.bind_some, look_pinPolicy_cons, if_pos]
    · rfl
    · rw [Doc.look_nil, head_pinPolicy] at hdict
      refine ⟨⟨rfl, rfl, ?_⟩, by rw [keysOf, List.append_nil]⟩
      generalize stripPullSecrets text never true (path ++ [text "image"]) u = x at hdict
      cases x <;> first | rfl | cases hdict
  | cons s q ih =>
    cases s with
    | index i =>
      rw [List.cons_append, look_strip_index] at hq ⊢
      obtain ⟨u, hu, hq⟩ := Option.bind_eq_some_iff.mp hq
      rw [hu]
      exact ih path u hq
    | key k =>
      rw [List.cons_append, look_strip_key] at hq ⊢
      split_ifs at hq ⊢ with hk
      obtain ⟨u, hu, hq⟩ := Option.bind_eq_some_iff.mp hq
      rw [hu, Option.bind_some]
      have hkeys : path ++ keysOf (.key k :: q) = path ++ [k] ++ keysOf q := by simp [keysOf]
      rw [hkeys]
      cases q with
      | nil =>
        rw [List.nil_append, look_pinPolicy_cons] at hq ⊢
        split_ifs at hq ⊢ with hs
        · cases hq
        · exact ih (path ++ [k]) u hq
      | cons s q =>
        rw [List.cons_append, look_pinPolicy_cons] at hq ⊢
        split_ifs at hq ⊢ with hs
        · rw [look_scalar_concat] at hq
          cases hq
        · exact ih (path ++ [k]) u hq

/-! ## Everything else -/

theorem IsKept.of_index {path : List κ} {i : ℕ} {p : List (Step κ)}
    (h : IsKept text localImages path (.index i :: p)) : IsKept text localImages path p where
  keys := h.keys
  policy hl := by
    rintro ⟨q, r, rfl⟩
    exact h.policy hl ⟨.index i :: q, r, rfl⟩

theorem IsKept.of_key {path : List κ} {k : κ} {p : List (Step κ)}
    (h : IsKept text localImages path (.key k :: p)) :
    IsKept text localImages (path ++ [k]) p where
  keys k' hk' := h.keys k' (List.mem_cons_of_mem k hk')
  policy hl := by
    rintro ⟨q, r, rfl⟩
    refine h.policy hl ⟨.key k :: q, r, ?_⟩
    simp [keysOf]

/-- **At every other place a stripped value says what the value says.** -/
theorem look_strip_of_kept (path : List κ) (t : Doc ι κ σ) (p : List (Step κ))
    (hp : IsKept text localImages path p) :
    (stripPullSecrets text never localImages path t).look p = t.look p := by
  induction p generalizing path t with
  | nil => rw [Doc.look_nil, Doc.look_nil, head_strip]
  | cons s p ih =>
    cases s with
    | index i =>
      rw [look_strip_index, Doc.look_cons]
      exact congrArg _ (funext fun u => ih path u hp.of_index)
    | key k =>
      rw [look_strip_key, if_neg (hp.keys k List.mem_cons_self), Doc.look_cons]
      refine congrArg _ (funext fun u => ?_)
      rw [← ih (path ++ [k]) u hp.of_key]
      cases p with
      | nil => rw [Doc.look_nil, Doc.look_nil, head_pinPolicy]
      | cons s p =>
        rw [look_pinPolicy_cons, if_neg]
        rintro ⟨⟨hl, rfl, -⟩, rfl⟩
        exact hp.policy hl ⟨[], p, by rw [keysOf, List.append_nil]; rfl⟩

/-! ## Twice -/

theorem strip_setKey (path : List κ) (t : Doc Unit κ σ) {key : κ}
    (hkey : ¬ isPullSecret text key) :
    stripPullSecrets text never localImages path (t.setKey key (.scalar never)) =
      (stripPullSecrets text never localImages path t).setKey key (.scalar never) := by
  cases t with
  | scalar s => rfl
  | list n c => rfl
  | dict o ks h c =>
    simp only [Doc.setKey, stripPullSecrets, Doc.dict.injEq, true_and]
    refine ⟨?_, funext fun k => ?_⟩
    · rw [List.filter_append, List.filter_filter]
      refine congrArg _ (List.filter_congr fun k hk => ?_)
      simp [List.mem_singleton.mp hk, hkey]
    · rcases eq_or_ne k key with rfl | hk
      · simp [stripPullSecrets, pinPolicy, Doc.isDict]
      · simp [hk]

theorem setKey_setKey (t : Doc Unit κ σ) (key : κ) (v : Doc Unit κ σ) :
    (t.setKey key v).setKey key v = t.setKey key v := by
  by_cases ht : t.isDict
  · refine Doc.setKey_eq_self ?_
    rw [Doc.child?_setKey, if_pos ⟨ht, rfl⟩]
  · cases t with
    | scalar s => rfl
    | list n c => rfl
    | dict o ks h c => exact absurd rfl ht

/-- Pinning, stripping and pinning is pinning. -/
theorem pin_strip_pin {k : κ} {path : List κ} {t : Doc Unit κ σ}
    (ht : stripPullSecrets text never localImages path t = t) :
    pinPolicy text never localImages k path
        (stripPullSecrets text never localImages path
          (pinPolicy text never localImages k path t)) =
      pinPolicy text never localImages k path t := by
  by_cases h : localImages ∧ k = text "image" ∧ t.isDict
  · have hpin : pinPolicy text never localImages k path t =
        t.setKey (policyKey text path) (.scalar never) := if_pos h
    rw [hpin, strip_setKey path t (not_isPullSecret_policyKey path), ht, pinPolicy,
      Doc.isDict_setKey, if_pos h, setKey_setKey]
  · have hpin : pinPolicy text never localImages k path t = t := if_neg h
    rw [hpin, ht, hpin]

/-- **Stripping twice is stripping once.** -/
theorem strip_strip (path : List κ) (t : Doc ι κ σ) :
    stripPullSecrets text never localImages path
        (stripPullSecrets text never localImages path t) =
      stripPullSecrets text never localImages path t := by
  induction t generalizing path with
  | scalar s => rfl
  | list n c ih =>
    simp only [stripPullSecrets]
    exact congrArg _ (funext fun i => ih i path)
  | dict o ks h c ih =>
    simp only [stripPullSecrets, List.filter_filter, Bool.and_self, Doc.dict.injEq, true_and]
    exact funext fun k => pin_strip_pin (ih k _)

/-- What stripping a value gives: no pull secrets, the policy of every image pinned, everything
else as it is, and nothing left to strip. -/
structure StripsExactly (text : String ↪ κ) (never : σ) (localImages : Bool) (t : Doc ι κ σ) :
    Prop where
  complete : ∀ p k, isPullSecret text k →
    (stripPullSecrets text never localImages [] t).look (p ++ [.key k]) = none
  pinned : localImages → ∀ q,
    (stripPullSecrets text never localImages [] t).look (q ++ [.key (text "image")]) =
      some .dict →
    (stripPullSecrets text never localImages [] t).look (q ++ [.key (text "image"),
      .key (policyKey text (keysOf q ++ [text "image"]))]) = some (.scalar never)
  kept : ∀ p, IsKept text localImages [] p →
    (stripPullSecrets text never localImages [] t).look p = t.look p
  twice : stripPullSecrets text never localImages []
      (stripPullSecrets text never localImages [] t) =
    stripPullSecrets text never localImages [] t

theorem stripsExactly (localImages : Bool) (t : Doc ι κ σ) :
    StripsExactly text never localImages t where
  complete p _ hk := look_strip_pullSecret [] t p hk
  pinned hl q hq := by
    subst hl
    exact look_strip_policy [] t q hq
  kept p hp := look_strip_of_kept [] t p hp
  twice := strip_strip [] t

/-! ## Merging -/

theorem pinPolicy_congr {t : Doc Unit κ σ} {t' : Doc Unit κ σ} (k : κ) (path : List κ)
    (h : Same t t') : Same (pinPolicy text never localImages k path t)
      (pinPolicy text never localImages k path t') := by
  unfold pinPolicy
  rw [h.isDict]
  split_ifs
  · exact h.setKey _ (Same.refl _)
  · exact h

theorem setKey_deepMerge {t u : Doc Unit κ σ} (ht : t.isDict) (hu : u.isDict) (key : κ) (s : σ) :
    Same ((t.deepMerge u).setKey key (.scalar s))
      ((t.setKey key (.scalar s)).deepMerge (u.setKey key (.scalar s))) := by
  obtain ⟨o, ks, hks, c, rfl⟩ := Doc.isDict_iff.mp ht
  obtain ⟨o', ks', hks', c', rfl⟩ := Doc.isDict_iff.mp hu
  refine Doc.same_dict (fun k => ?_) fun k _ => ?_
  · rw [Doc.mem_append_filter, Doc.mem_append_filter, Doc.mem_append_filter,
      Doc.mem_append_filter, Doc.mem_append_filter]
    tauto
  · rcases eq_or_ne k key with rfl | hk
    · simp only [Function.update_self, Doc.mem_append_filter, List.mem_singleton, or_true, if_true]
      exact Same.refl _
    · simp only [Function.update_of_ne hk, Doc.mem_append_filter, List.mem_singleton, hk, or_false]
      exact Same.refl _

/-- Pinning goes through merging. -/
theorem pinPolicy_deepMerge (k : κ) (path : List κ) (t u : Doc Unit κ σ) :
    Same (pinPolicy text never localImages k path (t.deepMerge u))
      ((pinPolicy text never localImages k path t).deepMerge
        (pinPolicy text never localImages k path u)) := by
  by_cases hdict : t.isDict ∧ u.isDict
  · unfold pinPolicy
    rw [Doc.isDict_deepMerge, hdict.1, hdict.2]
    split_ifs
    · exact setKey_deepMerge hdict.1 hdict.2 _ never
    · exact Same.refl _
  · have h : t.isDict = false ∨ u.isDict = false := by
      rwa [not_and_or, Bool.not_eq_true, Bool.not_eq_true] at hdict
    rw [Doc.deepMerge_of_not h, Doc.deepMerge_of_not (by rwa [isDict_pinPolicy, isDict_pinPolicy])]
    exact Same.refl _

/-- **A stripped merge is the merge of what is stripped.** -/
theorem strip_deepMerge (path : List κ) (t u : Doc ι κ σ) :
    Same (stripPullSecrets text never localImages path (t.deepMerge u))
      ((stripPullSecrets text never localImages path t).deepMerge
        (stripPullSecrets text never localImages path u)) := by
  induction u generalizing path t with
  | scalar s => exact Same.refl _
  | list n c => exact Same.refl _
  | dict o' ks' hks' c' ih =>
    cases t with
    | scalar s => exact Same.refl _
    | list n c => exact Same.refl _
    | dict o ks hks c =>
      refine Doc.same_dict (fun k => ?_) fun k hk => ?_
      · rw [mem_filter_isPullSecret, Doc.mem_append_filter, Doc.mem_append_filter,
          mem_filter_isPullSecret, mem_filter_isPullSecret]
        tauto
      · have hkept (l : List κ) : (k ∈ l.filter fun key => ¬ isPullSecret text key) ↔ k ∈ l :=
          mem_filter_isPullSecret.trans (and_iff_left (mem_filter_isPullSecret.mp hk).2)
        simp only [hkept]
        split_ifs
        · exact (pinPolicy_congr k _ (ih k _ (c k))).trans (pinPolicy_deepMerge k _ _ _)
        · exact Same.refl _
        · exact Same.refl _

end EpsCloud

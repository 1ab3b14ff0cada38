import EpsCloud.Library.Objects

/-!
# Merging Helm values

`merge_helm_values.py` merges the reviewed values files, strips what refers to pull
secrets, and for local images also pins the pull policy.  A values file is what
`yaml.safe_load` builds: an alias is the same object as its anchor, and `merge` changes
the mappings of its left side in place.  `strip_pull_secrets` builds every mapping anew.

* `look_strip_key`, `look_strip_index`: one step into a stripped value.
-/

namespace EpsCloud

open Doc (Step)

variable {ι κ σ : Type} [DecidableEq κ]

/-! ## The source -/

/-- The body of the loop of `merge`, where `again` merges two mappings. -/
def mergeItem (again : Heap κ σ → Address κ → Address κ → Option (Heap κ σ)) (left : Address κ)
    (h : Heap κ σ) (key : κ) (value : Slot κ σ) : Option (Heap κ σ) :=
  match value, (h.get left).get? key with
  | .ref r, some (.ref l) => again h l r
  | value, _ => some (h.setKey left key value)

/-- `merge`, with a bound on the calls that are open: `none` where it raises. -/
def merge : ℕ → Heap κ σ → Address κ → Address κ → Option (Heap κ σ)
  | 0, _, _, _ => none
  | depth + 1, h, left, right => h.forItems (mergeItem (merge depth) left) right

variable (text : String ↪ κ) (never : σ) (localImages : Bool)

/-- The keys that are left out. -/
def isPullSecret (key : κ) : Bool :=
  key = text "imagePullSecrets" ∨ key = text "pullSecrets"

/-- The key of the pull policy of an image. -/
def policyKey (path : List κ) : κ :=
  if path = [text "global", text "image"] ∨ path = [text "redis", text "image"] then
    text "imagePullPolicy"
  else text "pullPolicy"

/-- Set the pull policy of a stripped mapping that is stored under `image`. -/
def pinPolicy (key : κ) (path : List κ) (item : Doc Unit κ σ) : Doc Unit κ σ :=
  if localImages ∧ key = text "image" ∧ item.isDict then
    item.setKey (policyKey text path) (.scalar never)
  else item

/-- `strip_pull_secrets`.  A place in a list does not count in the path. -/
def stripPullSecrets (path : List κ) : Doc ι κ σ → Doc Unit κ σ
  | .dict _ ks h c =>
    .dict () (ks.filter fun key => ¬ isPullSecret text key) (h.filter _) fun key =>
      pinPolicy text never localImages key (path ++ [key])
        (stripPullSecrets (path ++ [key]) (c key))
  | .list n c => .list n fun i => stripPullSecrets path (c i)
  | .scalar s => .scalar s
termination_by structural t => t

/-! ## One step -/

variable {text never localImages}

theorem head_pinPolicy (key : κ) (path : List κ) (t : Doc Unit κ σ) :
    (pinPolicy text never localImages key path t).head = t.head := by
  unfold pinPolicy
  split_ifs
  · exact Doc.head_setKey ..
  · rfl

theorem isDict_pinPolicy (key : κ) (path : List κ) (t : Doc Unit κ σ) :
    (pinPolicy text never localImages key path t).isDict = t.isDict := by
  unfold pinPolicy
  split_ifs
  · exact Doc.isDict_setKey ..
  · rfl

theorem head_strip (path : List κ) (t : Doc ι κ σ) :
    (stripPullSecrets text never localImages path t).head = t.head := by
  cases t <;> rfl

theorem isDict_strip (path : List κ) (t : Doc ι κ σ) :
    (stripPullSecrets text never localImages path t).isDict = t.isDict := by
  cases t <;> rfl

theorem mem_filter_isPullSecret {ks : List κ} {k : κ} :
    (k ∈ ks.filter fun key => ¬ isPullSecret text key) ↔ k ∈ ks ∧ ¬ isPullSecret text k := by
  rw [List.mem_filter, decide_eq_true_iff]

/-- One step to a key of a stripped value. -/
theorem look_strip_key (path : List κ) (t : Doc ι κ σ) (k : κ) (p : List (Step κ)) :
    (stripPullSecrets text never localImages path t).look (.key k :: p) =
      if isPullSecret text k then none
      else (t.child? (.key k)).bind fun u =>
        (pinPolicy text never localImages k (path ++ [k])
          (stripPullSecrets text never localImages (path ++ [k]) u)).look p := by
  cases t with
  | scalar s => exact (ite_self _).symm
  | list n c => exact (ite_self _).symm
  | dict o ks h c =>
    rw [stripPullSecrets, Doc.look_dict_cons, Doc.child?]
    simp only [mem_filter_isPullSecret]
    split_ifs <;> simp_all

theorem look_strip_index (path : List κ) (t : Doc ι κ σ) (i : ℕ) (p : List (Step κ)) :
    (stripPullSecrets text never localImages path t).look (.index i :: p) =
      (t.child? (.index i)).bind fun u =>
        (stripPullSecrets text never localImages path u).look p := by
  cases t with
  | scalar s => rfl
  | dict o ks h c => rfl
  | list n c =>
    rw [stripPullSecrets, Doc.look_list_cons, Doc.child?]
    split_ifs <;> rfl

/-- Pinning changes the place of the policy only. -/
theorem look_pinPolicy_cons (k : κ) (path : List κ) (t : Doc Unit κ σ) (s : Step κ)
    (p : List (Step κ)) :
    (pinPolicy text never localImages k path t).look (s :: p) =
      if (localImages ∧ k = text "image" ∧ t.isDict) ∧ s = .key (policyKey text path) then
        (.scalar never : Doc Unit κ σ).look p
      else t.look (s :: p) := by
  unfold pinPolicy
  by_cases h : localImages ∧ k = text "image" ∧ t.isDict
  · rw [if_pos h, Doc.look_cons, Doc.child?_setKey]
    by_cases hs : s = .key (policyKey text path)
    · rw [if_pos ⟨h.2.2, hs⟩, if_pos ⟨h, hs⟩, Option.bind_some]
    · rw [if_neg fun hs' => hs hs'.2, if_neg fun hs' => hs hs'.2, Doc.look_cons]
  · rw [if_neg h, if_neg fun hs => h hs.1]

end EpsCloud

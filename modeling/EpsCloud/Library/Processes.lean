import Mathlib

/-!
# Processes that share a state

Each process has a local state, and all of them share one more state.  What one
process does is a partial function of an action: `next i a s l` is the shared and
the local state after process `i` has done `a`, or `none` where it cannot.  An
interleaving is a list of actions with the processes that do them, so any number of
processes and any schedule is covered, and `exec` runs it.

* `exec_invariant`: a property of the interleaving so far and the configuration
  that every step keeps.
* `locals_invariant`: a property of a process's own actions and its local state that
  its own steps keep, whatever the others do to the shared state.
* `exec_balance`: what every step moves between the shared state and a local one is neither lost
  nor made.
* `Owned.exec`, `Owned.unique`: if processes hold something exactly when the shared
  state names them as its owner, no two of them ever hold it.
-/

namespace Processes

variable {ι σ ℓ α : Type*} [DecidableEq ι]

/-- The shared state and the local states. -/
@[ext] structure Config (ι σ ℓ : Type*) where
  shared : σ
  locals : ι → ℓ

/-- One step of one process. -/
def stepBy (next : ι → α → σ → ℓ → Option (σ × ℓ)) (c : Config ι σ ℓ) (x : ι × α) :
    Option (Config ι σ ℓ) :=
  (next x.1 x.2 c.shared (c.locals x.1)).map fun r => ⟨r.1, Function.update c.locals x.1 r.2⟩

/-- The configuration after an interleaving, `none` if some process cannot do its action. -/
def exec (next : ι → α → σ → ℓ → Option (σ × ℓ)) :
    Config ι σ ℓ → List (ι × α) → Option (Config ι σ ℓ)
  | c, [] => some c
  | c, x :: xs => (stepBy next c x).bind fun c' => exec next c' xs

/-- What one process did. -/
def own (i : ι) (xs : List (ι × α)) : List α := (xs.filter fun x => x.1 = i).map Prod.snd

theorem own_concat_self (i : ι) (a : α) (xs : List (ι × α)) :
    own i (xs ++ [(i, a)]) = own i xs ++ [a] := by
  simp [own]

theorem own_concat_ne {i j : ι} (h : j ≠ i) (a : α) (xs : List (ι × α)) :
    own i (xs ++ [(j, a)]) = own i xs := by
  simp [own, h]

variable {next : ι → α → σ → ℓ → Option (σ × ℓ)} {c c' : Config ι σ ℓ}

/-- What a step is, once its process can do the action. -/
theorem stepBy_of_next {i : ι} {a : α} {s : σ} {l : ℓ}
    (h : next i a c.shared (c.locals i) = some (s, l)) :
    stepBy next c (i, a) = some ⟨s, Function.update c.locals i l⟩ := by
  rw [stepBy, h, Option.map_some]

/-- **What a step does**: it changes the shared state and the local state of its process. -/
theorem stepBy_spec {i : ι} {a : α} (h : stepBy next c (i, a) = some c') :
    next i a c.shared (c.locals i) = some (c'.shared, c'.locals i) ∧
      ∀ j, j ≠ i → c'.locals j = c.locals j := by
  obtain ⟨⟨s, l⟩, hnext, rfl⟩ := Option.map_eq_some_iff.mp h
  dsimp only at hnext ⊢
  rw [hnext, Function.update_self]
  exact ⟨rfl, fun j hj => Function.update_of_ne hj _ _⟩

/-- The last step of an interleaving. -/
theorem exec_concat {xs : List (ι × α)} {x : ι × α} :
    exec next c (xs ++ [x]) = some c' ↔
      ∃ d, exec next c xs = some d ∧ stepBy next d x = some c' := by
  induction xs generalizing c with
  | nil =>
    rw [List.nil_append, exec, exec, Option.bind_eq_some_iff]
    constructor
    · rintro ⟨d, hstep, hd⟩
      cases hd
      exact ⟨c, rfl, hstep⟩
    · rintro ⟨d, hd, hstep⟩
      cases hd
      exact ⟨c', hstep, rfl⟩
  | cons y xs ih =>
    rw [List.cons_append, exec, exec]
    cases h : stepBy next c y with
    | none => simp
    | some d =>
      rw [Option.bind_some, Option.bind_some]
      exact ih

/-- **The invariant rule for interleavings.** -/
theorem exec_invariant {I : List (ι × α) → Config ι σ ℓ → Prop} (hstart : I [] c)
    (hstep : ∀ xs d x d', exec next c xs = some d → I xs d → stepBy next d x = some d' →
      I (xs ++ [x]) d')
    {xs : List (ι × α)} (h : exec next c xs = some c') : I xs c' := by
  induction xs using List.reverseRecOn generalizing c' with
  | nil =>
    cases h
    exact hstart
  | append_singleton xs x ih =>
    obtain ⟨d, hd, hx⟩ := exec_concat.mp h
    exact hstep xs d x c' hd (ih hd) hx

/-- **The rule for one process.**  What a process did and its local state are related by every
relation that its own steps keep in every shared state. -/
theorem locals_invariant {i : ι} {L : List α → ℓ → Prop} (hstart : L [] (c.locals i))
    (hstep : ∀ as a s l s' l', L as l → next i a s l = some (s', l') → L (as ++ [a]) l')
    {xs : List (ι × α)} (h : exec next c xs = some c') : L (own i xs) (c'.locals i) := by
  refine exec_invariant (I := fun xs d => L (own i xs) (d.locals i)) hstart ?_ h
  rintro xs d ⟨j, a⟩ d' - hL hx
  obtain ⟨hnext, hothers⟩ := stepBy_spec hx
  by_cases hj : j = i
  · subst hj
    rw [own_concat_self]
    exact hstep _ a _ _ _ _ hL hnext
  · rw [own_concat_ne hj, hothers i fun heq => hj heq.symm]
    exact hL

/-! ## Balances -/

/-- **Nothing is lost on the way.**  What comes in, `f`, is what has gone out, `g`, and what the
processes still have, `h`, if it is so at the start and every step of a process keeps it, given
an invariant `J` of the local states. -/
theorem exec_balance [Fintype ι] {M : Type*} [AddCommMonoid M] [IsCancelAdd M] {f g : σ → M}
    {h : ℓ → M} {J : ℓ → Prop} (hJ : ∀ i, J (c.locals i))
    (hstart : f c.shared = g c.shared + ∑ i, h (c.locals i))
    (hstep : ∀ i a s l s' l', next i a s l = some (s', l') → J l →
      J l' ∧ f s' + (g s + h l) = f s + (g s' + h l'))
    {xs : List (ι × α)} (hxs : exec next c xs = some c') :
    f c'.shared = g c'.shared + ∑ i, h (c'.locals i) := by
  refine (exec_invariant (I := fun _ d => (∀ i, J (d.locals i)) ∧
    f d.shared = g d.shared + ∑ i, h (d.locals i)) ⟨hJ, hstart⟩ ?_ hxs).2
  rintro xs d ⟨i, a⟩ d' - ⟨hlocals, hd⟩ hx
  obtain ⟨hnext, hothers⟩ := stepBy_spec hx
  obtain ⟨hJ', hone⟩ := hstep i a _ _ _ _ hnext (hlocals i)
  have hrest : ∑ j ∈ Finset.univ.erase i, h (d'.locals j) =
      ∑ j ∈ Finset.univ.erase i, h (d.locals j) :=
    Finset.sum_congr rfl fun j hj => congrArg h (hothers j (Finset.ne_of_mem_erase hj))
  constructor
  · intro j
    by_cases hj : j = i
    · subst hj
      exact hJ'
    · rw [hothers j hj]
      exact hlocals j
  · rw [← Finset.add_sum_erase _ _ (Finset.mem_univ i)] at hd ⊢
    rw [hrest]
    refine add_right_cancel (b := g d.shared + h (d.locals i)) ?_
    rw [hone, hd]
    abel

/-! ## Ownership -/

/-- A process is in a state that `holds` exactly when the shared state names it as the owner. -/
def Owned (holds : ℓ → Prop) (owner : σ → Option ι) (c : Config ι σ ℓ) : Prop :=
  ∀ i, holds (c.locals i) ↔ owner c.shared = some i

variable {holds : ℓ → Prop} {owner : σ → Option ι}

omit [DecidableEq ι] in
/-- **An owner is alone.** -/
theorem Owned.unique (h : Owned holds owner c) {i j : ι} (hi : holds (c.locals i))
    (hj : holds (c.locals j)) : i = j :=
  Option.some.inj (((h i).mp hi).symm.trans ((h j).mp hj))

/-- **Ownership is kept**, with an invariant `J` of the shared state, by every interleaving of steps
that change it only for the process that takes the step. -/
theorem Owned.exec {J : σ → Prop} (hstart : Owned holds owner c) (hJ : J c.shared)
    (hself : ∀ i a s l s' l', next i a s l = some (s', l') → J s → (holds l ↔ owner s = some i) →
      J s' ∧ (holds l' ↔ owner s' = some i))
    (hother : ∀ i a s l s' l' j, next i a s l = some (s', l') → J s →
      (holds l ↔ owner s = some i) → j ≠ i → (owner s' = some j ↔ owner s = some j))
    {xs : List (ι × α)} (h : exec next c xs = some c') :
    J c'.shared ∧ Owned holds owner c' := by
  refine exec_invariant (I := fun _ d => J d.shared ∧ Owned holds owner d) ⟨hJ, hstart⟩ ?_ h
  rintro xs d ⟨i, a⟩ d' - ⟨hJd, howned⟩ hx
  obtain ⟨hnext, hothers⟩ := stepBy_spec hx
  obtain ⟨hJd', hi⟩ := hself i a _ _ _ _ hnext hJd (howned i)
  refine ⟨hJd', fun j => ?_⟩
  by_cases hj : j = i
  · subst hj
    exact hi
  · rw [hothers j hj, hother i a _ _ _ _ j hnext hJd (howned i) hj]
    exact howned j

end Processes

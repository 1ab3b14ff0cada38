import Mathlib

/-!
# Programs that raise

A program runs from a state and gives a value or raises; either way it leaves a state.  What
has been done before it raises stays done.

* `bind_eq_ok_iff`, `bind_eq_error_iff`: a run, taken apart.
* `Keeps`: what a program leaves as it was, whether it raises or not.
* `KeepsOr`: what it leaves as it was, except where it raises.
* `forM_induct`: a loop that succeeds, by what one turn does.
-/

/-- A program over the states `σ`, which may raise. -/
def Script (σ ε α : Type) : Type := σ → Except ε α × σ

namespace Script

variable {σ ε α β τ : Type}

instance : Monad (Script σ ε) where
  pure a s := (.ok a, s)
  bind m f s :=
    match m s with
    | (.ok a, s') => f a s'
    | (.error e, s') => (.error e, s')

def raise (e : ε) : Script σ ε α := fun s => (.error e, s)

/-- The value, if there is one. -/
def orRaise (e : ε) : Option α → Script σ ε α
  | some a => pure a
  | none => raise e

/-- Go on only if the condition holds. -/
def check (e : ε) (ok : Bool) : Script σ ε Unit := if ok then pure () else raise e

/-- Run another program when this one is left, whether it raises or not; if that one raises, it is
its error that is raised. -/
def andFinally (m : Script σ ε α) (clean : Script σ ε Unit) : Script σ ε α := fun s =>
  match clean (m s).2 with
  | (.ok (), s') => ((m s).1, s')
  | (.error e, s') => (.error e, s')

/-! ## Runs -/

theorem pure_eq_ok_iff {a b : α} {s s' : σ} :
    (pure a : Script σ ε α) s = (.ok b, s') ↔ a = b ∧ s = s' := by
  rw [show (pure a : Script σ ε α) s = (.ok a, s) from rfl, Prod.mk.injEq, Except.ok.injEq]

theorem raise_ne_ok {e : ε} {a : α} {s s' : σ} : (raise e : Script σ ε α) s ≠ (.ok a, s') := by
  rintro ⟨⟩

theorem orRaise_eq_ok_iff {e : ε} {o : Option α} {a : α} {s s' : σ} :
    (orRaise e o : Script σ ε α) s = (.ok a, s') ↔ o = some a ∧ s = s' := by
  cases o with
  | none => exact ⟨fun h => absurd h raise_ne_ok, fun h => absurd h.1 (Option.some_ne_none a).symm⟩
  | some b => rw [orRaise, pure_eq_ok_iff, Option.some.injEq]

theorem check_eq_ok_iff {e : ε} {ok : Bool} {s s' : σ} :
    (check e ok : Script σ ε Unit) s = (.ok (), s') ↔ ok ∧ s = s' := by
  cases ok with
  | false => exact ⟨fun h => absurd h raise_ne_ok, fun h => absurd h.1 Bool.false_ne_true⟩
  | true => exact pure_eq_ok_iff.trans (and_congr_left fun _ => iff_of_true rfl rfl)

/-- **A run that succeeds, taken apart.** -/
theorem bind_eq_ok_iff {m : Script σ ε α} {f : α → Script σ ε β} {b : β} {s s'' : σ} :
    (m >>= f) s = (.ok b, s'') ↔ ∃ a s', m s = (.ok a, s') ∧ f a s' = (.ok b, s'') := by
  change (match m s with | (.ok a, s') => f a s' | (.error e, s') => (.error e, s')) = _ ↔ _
  rcases m s with ⟨e | a, s'⟩
  · constructor
    · rintro ⟨⟩
    · rintro ⟨a, s₁, ⟨⟩, -⟩
  · constructor
    · exact fun h => ⟨a, s', rfl, h⟩
    · rintro ⟨a', s₁, ⟨⟩, h⟩
      exact h

theorem pure_ne_error {a : α} {e : ε} {s s' : σ} :
    (pure a : Script σ ε α) s ≠ (.error e, s') := by
  rintro ⟨⟩

theorem raise_eq_error_iff {e e' : ε} {s s' : σ} :
    (raise e : Script σ ε α) s = (.error e', s') ↔ e = e' ∧ s = s' := by
  rw [raise, Prod.mk.injEq, Except.error.injEq]

/-- **A run that raises, taken apart.** -/
theorem bind_eq_error_iff {m : Script σ ε α} {f : α → Script σ ε β} {e : ε} {s s'' : σ} :
    (m >>= f) s = (.error e, s'') ↔
      m s = (.error e, s'') ∨ ∃ a s', m s = (.ok a, s') ∧ f a s' = (.error e, s'') := by
  change (match m s with | (.ok a, s') => f a s' | (.error e, s') => (.error e, s')) = _ ↔ _
  rcases m s with ⟨e' | a, s'⟩
  · constructor
    · rintro ⟨⟩
      exact .inl rfl
    · rintro (⟨⟨⟩⟩ | ⟨a, s₁, ⟨⟩, -⟩)
      rfl
  · constructor
    · exact fun h => .inr ⟨a, s', rfl, h⟩
    · rintro (⟨⟨⟩⟩ | ⟨a', s₁, ⟨⟩, h⟩)
      exact h

/-- A run stops with its first part, or goes on from what it leaves. -/
theorem bind_cases {m : Script σ ε α} {f : α → Script σ ε β} {r : Except ε β} {s s'' : σ}
    (hrun : (m >>= f) s = (r, s'')) :
    (∃ e, r = .error e ∧ m s = (.error e, s'')) ∨
      ∃ a s', m s = (.ok a, s') ∧ f a s' = (r, s'') := by
  cases r with
  | error e => exact (bind_eq_error_iff.mp hrun).imp_left fun h => ⟨e, rfl, h⟩
  | ok b => exact .inr (bind_eq_ok_iff.mp hrun)

theorem orRaise_eq_error {e e' : ε} {o : Option α} {s s' : σ}
    (h : (orRaise e o : Script σ ε α) s = (.error e', s')) : s' = s := by
  cases o with
  | none => exact (raise_eq_error_iff.mp h).2.symm
  | some a => exact absurd h pure_ne_error

theorem check_eq_error {e e' : ε} {ok : Bool} {s s' : σ}
    (h : (check e ok : Script σ ε Unit) s = (.error e', s')) : s' = s := by
  cases ok with
  | false => exact (raise_eq_error_iff.mp h).2.symm
  | true => exact absurd h pure_ne_error

/-- **A run that is cleaned up after, taken apart.** -/
theorem andFinally_cases {m : Script σ ε α} {clean : Script σ ε Unit} {r : Except ε α} {s s' : σ}
    (hrun : m.andFinally clean s = (r, s')) :
    ∃ r₁ s₁, m s = (r₁, s₁) ∧ ((r = r₁ ∧ clean s₁ = (.ok (), s')) ∨
      ∃ e, r = .error e ∧ clean s₁ = (.error e, s')) := by
  refine ⟨(m s).1, (m s).2, rfl, ?_⟩
  unfold andFinally at hrun
  split at hrun
  · next hclean =>
    cases hrun
    exact .inl ⟨rfl, hclean⟩
  · next hclean =>
    cases hrun
    exact .inr ⟨_, rfl, hclean⟩

/-- What the turns of a loop establish, a loop that succeeds establishes. -/
theorem forM_induct {P : List α → σ → Prop} {f : α → Script σ ε PUnit} {l : List α} {s s' : σ}
    (hrun : l.forM f s = (.ok ⟨⟩, s')) (hstart : P [] s)
    (hstep : ∀ done a s₁ s₂, P done s₁ → f a s₁ = (.ok ⟨⟩, s₂) → P (done ++ [a]) s₂) : P l s' := by
  suffices hall : ∀ done rest s₁, P done s₁ → rest.forM f s₁ = (.ok ⟨⟩, s') → P (done ++ rest) s'
    from hall [] l s hstart hrun
  intro done rest s₁ hP hrest
  induction rest generalizing done s₁ with
  | nil =>
    obtain ⟨-, rfl⟩ := pure_eq_ok_iff.mp hrest
    rwa [List.append_nil]
  | cons a rest ih =>
    obtain ⟨_, s₂, hone, hrest⟩ := bind_eq_ok_iff.mp hrest
    rw [List.append_cons]
    exact ih (done ++ [a]) s₂ (hstep done a s₁ s₂ hP hone) hrest

/-! ## What a program keeps -/

/-- From a state in `I` the program leaves one in `I`, with the same `g`. -/
def Keeps (I : σ → Prop) (g : σ → τ) (m : Script σ ε α) : Prop :=
  ∀ s, I s → I (m s).2 ∧ g (m s).2 = g s

section

variable {I : σ → Prop} {g : σ → τ}

theorem Keeps.pure (a : α) : Keeps I g (pure a : Script σ ε α) := fun _ hs => ⟨hs, rfl⟩

theorem Keeps.raise (e : ε) : Keeps I g (raise e : Script σ ε α) := fun _ hs => ⟨hs, rfl⟩

theorem Keeps.orRaise (e : ε) (o : Option α) : Keeps I g (orRaise e o : Script σ ε α) := by
  cases o with
  | none => exact .raise e
  | some a => exact .pure a

theorem Keeps.check (e : ε) (ok : Bool) : Keeps I g (check e ok : Script σ ε Unit) := by
  cases ok with
  | false => exact .raise e
  | true => exact .pure ()

/-- A program that goes on from what another one leaves. -/
theorem Keeps.bind_of {m : Script σ ε α} {f : α → Script σ ε β} (hm : Keeps I g m)
    (hf : ∀ s a s', I s → I s' → m s = (.ok a, s') → I (f a s').2 ∧ g (f a s').2 = g s') :
    Keeps I g (m >>= f) := by
  intro s hs
  change I (match m s with | (.ok a, s') => f a s' | (.error e, s') => (.error e, s')).2 ∧
    g (match m s with | (.ok a, s') => f a s' | (.error e, s') => (.error e, s')).2 = g s
  obtain ⟨hI, hg⟩ := hm s hs
  rcases hrun : m s with ⟨e | a, s'⟩
  · rw [hrun] at hI hg
    exact ⟨hI, hg⟩
  · rw [hrun] at hI hg
    obtain ⟨hI', hg'⟩ := hf s a s' hs hI hrun
    exact ⟨hI', hg'.trans hg⟩

theorem Keeps.bind {m : Script σ ε α} {f : α → Script σ ε β} (hm : Keeps I g m)
    (hf : ∀ a, Keeps I g (f a)) : Keeps I g (m >>= f) :=
  hm.bind_of fun _ a s' _ hs' _ => hf a s' hs'

theorem Keeps.forM {f : α → Script σ ε PUnit} {l : List α} (hf : ∀ a ∈ l, Keeps I g (f a)) :
    Keeps I g (l.forM f) := by
  induction l with
  | nil => exact .pure _
  | cons a l ih =>
    exact .bind (hf a List.mem_cons_self) fun _ => ih fun b hb => hf b (List.mem_cons_of_mem a hb)

end

/-! ## What a program keeps that may raise -/

/-- The program keeps `g`, unless it raises and leaves it as `E` says. -/
def KeepsOr (g : σ → τ) (E : τ → τ → Prop) (m : Script σ ε α) : Prop :=
  ∀ s r s', m s = (r, s') → g s' = g s ∨ ((∃ e, r = .error e) ∧ E (g s) (g s'))

section

variable {g : σ → τ} {E : τ → τ → Prop}

theorem Keeps.keepsOr {m : Script σ ε α} (h : m.Keeps (fun _ => True) g) : m.KeepsOr g E := by
  intro s r s' hrun
  have hkept := (h s trivial).2
  rw [hrun] at hkept
  exact .inl hkept

theorem KeepsOr.bind {m : Script σ ε α} {f : α → Script σ ε β} (hm : m.KeepsOr g E)
    (hf : ∀ a, (f a).KeepsOr g E) : (m >>= f).KeepsOr g E := by
  intro s r s' hrun
  rcases bind_cases hrun with ⟨e, rfl, hone⟩ | ⟨a, s₁, hone, hrest⟩
  · exact (hm s _ s' hone).imp_right fun h => ⟨⟨e, rfl⟩, h.2⟩
  · rcases hm s _ s₁ hone with hsame | ⟨⟨e, h⟩, -⟩
    · rw [← hsame]
      exact hf a s₁ r s' hrest
    · cases h

end

end Script

import Mathlib

/-!
# Lists of fallible steps

A step that may fail is taken for each item of a list, until one fails.

* `mapM_eq_ok`: the run succeeds if every step does.
* `mapM_eq_ok_iff`: a run that succeeds, taken apart.
* `mapM_eq_error`: if there is one error only, the run fails with it as soon as some
  step does.
* `foldlM_of_step`, `foldlM_induct`: a run that carries a state, by what one step does.
-/

namespace Fallible

variable {ε α β : Type} {f : α → Except ε β} {l : List α}

theorem mapM_eq_ok {g : α → β} (h : ∀ a ∈ l, f a = .ok (g a)) : l.mapM f = .ok (l.map g) := by
  induction l with
  | nil => rfl
  | cons a l ih =>
    obtain ⟨ha, hl⟩ := List.forall_mem_cons.mp h
    rw [List.mapM_cons, ha, ih hl]
    rfl

/-- A run succeeds with the results of its steps. -/
theorem mapM_eq_ok_iff {bs : List β} :
    l.mapM f = .ok bs ↔ List.Forall₂ (fun a b => f a = .ok b) l bs := by
  induction l generalizing bs with
  | nil =>
    rw [List.mapM_nil, List.forall₂_nil_left_iff]
    exact ⟨fun h => (Except.ok.inj h).symm, fun h => congrArg Except.ok h.symm⟩
  | cons a l ih =>
    rw [List.mapM_cons, List.forall₂_cons_left_iff]
    constructor
    · intro h
      cases ha : f a with
      | error e => rw [ha] at h; cases h
      | ok b =>
        cases hl : l.mapM f with
        | error e => rw [ha, hl] at h; cases h
        | ok bs' =>
          rw [ha, hl] at h
          exact ⟨b, bs', rfl, ih.mp hl, (Except.ok.inj h).symm⟩
    · rintro ⟨b, bs', hb, hrest, rfl⟩
      rw [hb, ih.mpr hrest]
      rfl

/-- Each result is that of a step. -/
theorem exists_of_mem_right {R : α → β → Prop} {bs : List β} {b : β} (h : List.Forall₂ R l bs)
    (hb : b ∈ bs) : ∃ a ∈ l, R a b := by
  induction h with
  | nil => cases hb
  | @cons a _ l _ hab _ ih =>
    rcases List.mem_cons.mp hb with rfl | hb
    · exact ⟨a, List.mem_cons_self, hab⟩
    · obtain ⟨a', ha', hab'⟩ := ih hb
      exact ⟨a', List.mem_cons_of_mem a ha', hab'⟩

theorem mapM_eq_error {e : ε} (honly : ∀ a ∈ l, f a = .error e ∨ ∃ b, f a = .ok b)
    (h : ∃ a ∈ l, f a = .error e) : l.mapM f = .error e := by
  induction l with
  | nil => exact absurd h (by simp)
  | cons a l ih =>
    obtain ⟨ha, hl⟩ := List.forall_mem_cons.mp honly
    rw [List.mapM_cons]
    rcases ha with ha | ⟨b, hb⟩
    · rw [ha]
      rfl
    · have hrest : ∃ a ∈ l, f a = .error e := by
        obtain ⟨a', ha', he⟩ := h
        rcases List.mem_cons.mp ha' with rfl | hmem
        · exact absurd (hb.symm.trans he) (by simp)
        · exact ⟨a', hmem, he⟩
      rw [hb, ih hl hrest]
      rfl

/-! ## With a state -/

section

variable {σ : Type} {step : σ → α → Option σ} {P : List α → σ → Prop} {s : σ}

/-- A run succeeds when every step of it does, and establishes what the steps do. -/
theorem foldlM_of_step (hstart : P [] s)
    (hstep : ∀ done x s₁, done ++ [x] <+: l → P done s₁ →
      ∃ s₂, step s₁ x = some s₂ ∧ P (done ++ [x]) s₂) :
    ∃ s', l.foldlM step s = some s' ∧ P l s' := by
  -- Every start of the list leads, through the rest of it, to the end.
  suffices hrun : ∀ done rest s₁, done ++ rest = l → P done s₁ →
      ∃ s', rest.foldlM step s₁ = some s' ∧ P l s' from hrun [] l s rfl hstart
  intro done rest s₁ heq hP
  induction rest generalizing done s₁ with
  | nil =>
    rw [List.append_nil] at heq
    exact ⟨s₁, rfl, heq ▸ hP⟩
  | cons x rest ih =>
    rw [List.append_cons] at heq
    obtain ⟨s₂, hx, hP'⟩ := hstep done x s₁ ⟨rest, heq⟩ hP
    obtain ⟨s', hrun, hend⟩ := ih (done ++ [x]) s₂ heq hP'
    refine ⟨s', ?_, hend⟩
    rw [List.foldlM_cons, hx]
    exact hrun

/-- What the steps of a run establish, a run that succeeds establishes. -/
theorem foldlM_induct {s' : σ} (hrun : l.foldlM step s = some s') (hstart : P [] s)
    (hstep : ∀ done x s₁ s₂, done ++ [x] <+: l → P done s₁ → step s₁ x = some s₂ →
      P (done ++ [x]) s₂) : P l s' := by
  suffices hall : ∀ done rest s₁, done ++ rest = l → P done s₁ →
      rest.foldlM step s₁ = some s' → P l s' from hall [] l s rfl hstart hrun
  intro done rest s₁ heq hP hrun
  induction rest generalizing done s₁ with
  | nil =>
    rw [List.append_nil] at heq
    cases Option.some.inj hrun
    exact heq ▸ hP
  | cons x rest ih =>
    rw [List.append_cons] at heq
    rw [List.foldlM_cons] at hrun
    obtain ⟨s₂, hx, hrun⟩ := Option.bind_eq_some_iff.mp hrun
    exact ih (done ++ [x]) s₂ heq (hstep done x s₁ s₂ ⟨rest, heq⟩ hP hx) hrun

end

end Fallible

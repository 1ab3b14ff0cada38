import Mathlib

/-!
# Runs of a state machine

A machine that takes one request at a time is a function `step : σ → ρ → σ`, and
a run is `List.foldl step`.  `trace` lists every request of a run together with
the state it was handled in, so that a property of each single step of a run is
a statement about the members of its trace.

* `foldl_invariant`: an invariant that every admitted step keeps holds after a run
  of admitted steps.
* `forall_trace_iff`: if, in the states an invariant admits, `P` holds of an
  admitted step exactly when `Q` does, and steps with `Q` keep the invariant, then
  `P` holds at every step of a run exactly when `Q` does.
* `forall_trace`: what holds of every step in the states of an invariant.
-/

namespace Runs

variable {σ ρ : Type*} {step : σ → ρ → σ}

/-- Each request of a run, with the state before it. -/
def trace (step : σ → ρ → σ) : σ → List ρ → List (σ × ρ)
  | _, [] => []
  | s, r :: rs => (s, r) :: trace step (step s r) rs

@[simp] theorem trace_nil (s : σ) : trace step s [] = [] := rfl

@[simp] theorem trace_cons (s : σ) (r : ρ) (rs : List ρ) :
    trace step s (r :: rs) = (s, r) :: trace step (step s r) rs := rfl

/-- **The invariant rule for runs.** -/
theorem foldl_invariant {I : σ → Prop} {C : σ → ρ → Prop}
    (hkeep : ∀ s r, I s → C s r → I (step s r)) {rs : List ρ} {s : σ} (h0 : I s)
    (hrs : ∀ x ∈ trace step s rs, C x.1 x.2) : I (rs.foldl step s) := by
  induction rs generalizing s with
  | nil => exact h0
  | cons r rs ih =>
    rw [trace_cons, List.forall_mem_cons] at hrs
    rw [List.foldl_cons]
    exact ih (hkeep s r h0 hrs.1) hrs.2

/-- **Step properties along a run.** -/
theorem forall_trace_iff {I : σ → Prop} {C P Q : σ → ρ → Prop}
    (hiff : ∀ s r, I s → C s r → (P s r ↔ Q s r))
    (hkeep : ∀ s r, I s → C s r → Q s r → I (step s r)) {rs : List ρ} {s : σ} (h0 : I s)
    (hrs : ∀ x ∈ trace step s rs, C x.1 x.2) :
    (∀ x ∈ trace step s rs, P x.1 x.2) ↔ ∀ x ∈ trace step s rs, Q x.1 x.2 := by
  induction rs generalizing s with
  | nil => simp
  | cons r rs ih =>
    rw [trace_cons, List.forall_mem_cons] at hrs
    rw [trace_cons, List.forall_mem_cons, List.forall_mem_cons, hiff s r h0 hrs.1]
    exact and_congr_right fun hq => ih (hkeep s r h0 hrs.1 hq) hrs.2

/-- What holds of every step in the states of an invariant holds at every step of a run. -/
theorem forall_trace {I : σ → Prop} {P : σ → ρ → Prop} (hstep : ∀ s r, I s → P s r)
    (hkeep : ∀ s r, I s → I (step s r)) {rs : List ρ} {s : σ} (h0 : I s) :
    ∀ x ∈ trace step s rs, P x.1 x.2 := by
  induction rs generalizing s with
  | nil => simp
  | cons r rs ih =>
    rw [trace_cons, List.forall_mem_cons]
    exact ⟨hstep s r h0, ih (hkeep s r h0)⟩

end Runs

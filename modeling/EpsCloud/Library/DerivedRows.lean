import Mathlib

/-!
# Rows derived from a base

A store keeps base data and, beside it, derived rows: the row of key `k`, where
there is one, should equal `view base k`.  Writes change the base and refresh
some of the derived rows.

* `Consistent.refresh`: a write keeps the store consistent when it refreshes every
  row whose view it changes and leaves the other rows alone.
* `Consistent.row_eq`: two consistent stores whose bases give a key the same view
  hold the same row for it.
-/

namespace DerivedRows

variable {σ κ ν : Type*}

/-- Every row present among the keys of `live` is the view of the present base. -/
def Consistent (live : σ → κ → Prop) (row view : σ → κ → Option ν) (s : σ) : Prop :=
  ∀ k, live s k → (row s k).isSome → row s k = view s k

variable {live : σ → κ → Prop} {row view : σ → κ → Option ν} {s s' : σ}

/-- **Refreshing what changed keeps a store consistent.**  Each live key is either
refreshed, or has kept its row and its view. -/
theorem Consistent.refresh (h : Consistent live row view s)
    (hstep : ∀ k, live s' k → row s' k = view s' k ∨
      (live s k ∧ row s' k = row s k ∧ view s' k = view s k)) :
    Consistent live row view s' := by
  intro k hk hsome
  rcases hstep k hk with hfresh | ⟨hlive, hrow, hview⟩
  · exact hfresh
  · rw [hrow] at hsome
    rw [hrow, hview]
    exact h k hlive hsome

/-- **Consistent rows are determined by the base.** -/
theorem Consistent.row_eq (h : Consistent live row view s) (h' : Consistent live row view s')
    {k : κ} (hk : live s k) (hk' : live s' k) (hs : (row s k).isSome) (hs' : (row s' k).isSome)
    (hview : view s k = view s' k) : row s k = row s' k := by
  rw [h k hk hs, h' k hk' hs', hview]

end DerivedRows

import EpsCloud.Schema.Decimal

/-!
# The order of decimals

The operators of `decimal.Decimal` compare finite values by their coefficients at a
common exponent.  That is the order of the rational numbers they denote.

* `pyLe_of_rat`, `pyEq_of_rat`: the operators on finite values.
* `pyBetween_of_finite_bounds`: the chained comparison `low <= value <= high` holds of
  the finite values between the bounds, and raises for a NaN.
-/

namespace EpsCloud

namespace Decimal

/-- The number that a finite value denotes. -/
def rat? : Decimal → Option ℚ
  | .finite negative coefficient exponent =>
    some ((if negative then -1 else 1) * coefficient * 10 ^ exponent)
  | _ => none

theorem not_nan_of_rat {a : Decimal} {p : ℚ} (h : a.rat? = some p) : a.isNan = false := by
  cases a with
  | finite => rfl
  | _ => exact absurd h (by simp [rat?])

theorem rat?_ofInt (n : ℤ) : (ofInt n).rat? = some (n : ℚ) := by
  rw [ofInt, rat?, zpow_zero, mul_one]
  congr 1
  rcases lt_or_ge n 0 with h | h
  · rw [decide_eq_true h, if_pos rfl, Nat.cast_natAbs, abs_of_neg h]
    push_cast
    ring
  · rw [decide_eq_false h.not_gt, if_neg Bool.false_ne_true, Nat.cast_natAbs, abs_of_nonneg h,
      one_mul]

/-- The coefficient at a lower exponent, as a number. -/
theorem cast_scaled {e x : ℤ} (h : e ≤ x) (negative : Bool) (coefficient : ℕ) :
    ((scaled e negative coefficient x : ℤ) : ℚ) * 10 ^ e =
      (if negative then -1 else 1) * coefficient * 10 ^ x := by
  have hpow : (10 : ℚ) ^ x = 10 ^ (x - e).toNat * 10 ^ e := by
    rw [← zpow_natCast, Int.toNat_of_nonneg (sub_nonneg.mpr h), ← zpow_add₀ (by norm_num),
      sub_add_cancel]
  rw [scaled, hpow]
  push_cast
  ring

/-- Finite values are compared as the numbers they denote. -/
theorem compareNumbers_of_rat {a b : Decimal} {p q : ℚ} (ha : a.rat? = some p)
    (hb : b.rat? = some q) : compareNumbers a b = compare p q := by
  cases a with
  | finite n c x =>
    cases b with
    | finite n' c' x' =>
      obtain rfl := Option.some.inj ha
      obtain rfl := Option.some.inj hb
      have hpos : (0 : ℚ) < 10 ^ min x x' := zpow_pos (by norm_num) _
      rw [compareNumbers, ← cast_scaled (min_le_left x x'), ← cast_scaled (min_le_right x x')]
      rcases lt_trichotomy (scaled (min x x') n c x) (scaled (min x x') n' c' x') with h | h | h
      · rw [compare_lt_iff_lt.mpr h, eq_comm, compare_lt_iff_lt]
        exact mul_lt_mul_of_pos_right (Int.cast_lt.mpr h) hpos
      · rw [h, compare_eq_iff_eq.mpr rfl, compare_eq_iff_eq.mpr rfl]
      · rw [compare_gt_iff_gt.mpr h, eq_comm, compare_gt_iff_gt]
        exact mul_lt_mul_of_pos_right (Int.cast_lt.mpr h) hpos
    | _ => exact absurd hb (by simp [rat?])
  | _ => exact absurd ha (by simp [rat?])

/-- **The operator `<=`** on finite values. -/
theorem pyLe_of_rat {a b : Decimal} {p q : ℚ} (ha : a.rat? = some p) (hb : b.rat? = some q) :
    a.pyLe b = some (decide (p ≤ q)) := by
  rw [pyLe, if_neg (by simp [not_nan_of_rat ha, not_nan_of_rat hb]), compareNumbers_of_rat ha hb]
  congr 1
  rw [Bool.eq_iff_iff, bne_iff_ne, decide_eq_true_iff, Ne, compare_gt_iff_gt, not_lt]

/-- **The operator `==`** on finite values. -/
theorem pyEq_of_rat {a b : Decimal} {p q : ℚ} (ha : a.rat? = some p) (hb : b.rat? = some q) :
    a.pyEq b = some (decide (p = q)) := by
  rw [pyEq_eq_some_of_not_nan (not_nan_of_rat ha) (not_nan_of_rat hb)]
  congr 1
  rw [decide_eq_decide, SameNumber, not_nan_of_rat ha, not_nan_of_rat hb,
    compareNumbers_of_rat ha hb, compare_eq_iff_eq]
  simp

/-- The chained comparison `low <= value <= high`, or `none` where it raises. -/
def pyBetween (low value high : Decimal) : Option Bool :=
  match low.pyLe value with
  | some true => value.pyLe high
  | other => other

/-- The value is a finite number from `p` to `q`. -/
def FiniteIn (p q : ℚ) (value : Decimal) : Prop := ∃ x, value.rat? = some x ∧ p ≤ x ∧ x ≤ q

section Bounds

variable {low high value : Decimal} {p q : ℚ}
  (hlow : low.rat? = some p) (hhigh : high.rat? = some q)

/-- A NaN cannot be compared. -/
theorem pyBetween_of_nan (h : value.isNan = true) : pyBetween low value high = none := by
  rw [pyBetween, pyLe, if_pos (Or.inr h)]

include hlow hhigh

/-- **A chained comparison** between finite bounds holds of the finite values between them. -/
theorem pyBetween_of_finite_bounds (h : value.isNan = false) :
    ∃ b, pyBetween low value high = some b ∧ (b = true ↔ FiniteIn p q value) := by
  unfold pyBetween FiniteIn
  cases value with
  | finite n c x =>
    obtain ⟨r, hr⟩ : ∃ r, (Decimal.finite n c x).rat? = some r := ⟨_, rfl⟩
    rw [pyLe_of_rat hlow hr, pyLe_of_rat hr hhigh]
    by_cases hp : p ≤ r
    · refine ⟨decide (r ≤ q), by rw [decide_eq_true hp], ?_⟩
      rw [decide_eq_true_iff, hr]
      exact ⟨fun hq => ⟨r, rfl, hp, hq⟩, fun ⟨x, hx, _, hq⟩ => (Option.some.inj hx) ▸ hq⟩
    · refine ⟨false, by rw [decide_eq_false hp], ?_⟩
      rw [hr]
      exact ⟨fun h => absurd h (by simp), fun ⟨x, hx, hle, _⟩ =>
        absurd (Option.some.inj hx ▸ hle) hp⟩
  | infinity negative =>
    have hnone : (∃ x, (Decimal.infinity negative).rat? = some x ∧ p ≤ x ∧ x ≤ q) ↔ False := by
      simp [rat?]
    rw [hnone]
    refine ⟨false, ?_, by simp⟩
    cases low with
    | finite n c x =>
      cases high with
      | finite n' c' x' => cases negative <;> rfl
      | _ => exact absurd hhigh (by simp [rat?])
    | _ => exact absurd hlow (by simp [rat?])
  | nan => exact absurd h (by decide)
  | snan => exact absurd h (by decide)

end Bounds

end Decimal

end EpsCloud

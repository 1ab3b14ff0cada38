import Mathlib

/-!
# `decimal.Decimal`

The values of the standard library's decimal type: finite numbers as a sign, a
coefficient and an exponent, the two infinities, the quiet NaN and the signalling
NaN.  Equality compares numbers, so `1.0 == 1.00`; a quiet NaN equals nothing,
not even itself; and a comparison that meets a signalling NaN, or an ordering
that meets any NaN, raises `InvalidOperation`, which the default context traps.
-/

namespace EpsCloud

/-- A decimal value. -/
inductive Decimal where
  | finite (negative : Bool) (coefficient : ℕ) (exponent : ℤ)
  | infinity (negative : Bool)
  | nan
  | snan
  deriving DecidableEq, Repr

namespace Decimal

/-- The integer `n` as a decimal. -/
def ofInt (n : ℤ) : Decimal := .finite (n < 0) n.natAbs 0

/-- The coefficient of a finite value at a lower exponent `e`, with its sign. -/
def scaled (e : ℤ) (negative : Bool) (coefficient : ℕ) (exponent : ℤ) : ℤ :=
  (if negative then -1 else 1) * coefficient * 10 ^ (exponent - e).toNat

/-- Numerical equality and order of two values that are not NaN, as a comparison. -/
def compareNumbers : Decimal → Decimal → Ordering
  | .finite n c e, .finite n' c' e' =>
    compare (scaled (min e e') n c e) (scaled (min e e') n' c' e')
  | .infinity true, .infinity true => .eq
  | .infinity false, .infinity false => .eq
  | .infinity true, _ => .lt
  | _, .infinity true => .gt
  | .infinity false, _ => .gt
  | _, .infinity false => .lt
  | _, _ => .eq

/-- Whether a value is one of the two NaNs. -/
def isNan : Decimal → Bool
  | .nan | .snan => true
  | _ => false

/-- Whether a value is the signalling NaN. -/
def isSignalling : Decimal → Bool
  | .snan => true
  | _ => false

/-- The operator `==`, or `none` where it raises `InvalidOperation`. -/
def pyEq (a b : Decimal) : Option Bool :=
  if a.isSignalling ∨ b.isSignalling then none
  else if a.isNan ∨ b.isNan then some false
  else some (compareNumbers a b == .eq)

/-- The operator `<=`, or `none` where it raises `InvalidOperation`. -/
def pyLe (a b : Decimal) : Option Bool :=
  if a.isNan ∨ b.isNan then none
  else some (compareNumbers a b != .gt)

/-- The value that a `NUMERIC` column keeps: it knows one NaN, and that one is quiet. -/
def stored (a : Decimal) : Decimal := if a.isNan then .nan else a

/-- Two values are stored as the same number: they are the same number, or both are NaNs. -/
def SameNumber (a b : Decimal) : Prop :=
  a.isNan = b.isNan ∧ (a.isNan = false → compareNumbers a b = .eq)

instance (a b : Decimal) : Decidable (SameNumber a b) :=
  inferInstanceAs (Decidable (_ ∧ _))

/-- The digits of `str`, with the point after the first `dot` of them. -/
def placePoint (digits : String) (dot : ℤ) : String :=
  if dot ≤ 0 then "0." ++ String.ofList (List.replicate (-dot).toNat '0') ++ digits
  else if digits.length ≤ dot then
    digits ++ String.ofList (List.replicate (dot - digits.length).toNat '0')
  else String.ofList (digits.toList.take dot.toNat) ++ "." ++
    String.ofList (digits.toList.drop dot.toNat)

/-- `str(value)`. -/
def str : Decimal → String
  | .finite negative coefficient exponent =>
    let digits := toString coefficient
    let left : ℤ := exponent + digits.length
    -- plain notation unless that needs zeros past the point or many before it
    let dot := if exponent ≤ 0 ∧ -6 < left then left else 1
    let power :=
      if left = dot then ""
      else "E" ++ (if left - dot < 0 then "-" else "+") ++ toString (left - dot).natAbs
    (if negative then "-" else "") ++ placePoint digits dot ++ power
  | .infinity negative => (if negative then "-" else "") ++ "Infinity"
  | .nan => "NaN"
  | .snan => "sNaN"

/-- The number that a value is, unless it is a NaN. -/
def number? : Decimal → Option (WithBot (WithTop ℚ))
  | .finite negative coefficient exponent =>
    some (((if negative then -1 else 1) * coefficient * 10 ^ exponent : ℚ) : WithTop ℚ)
  | .infinity true => some ⊥
  | .infinity false => some ((⊤ : WithTop ℚ) : WithBot (WithTop ℚ))
  | .nan | .snan => none

theorem isSignalling_stored (a : Decimal) : a.stored.isSignalling = false := by
  cases a <;> rfl

theorem compareNumbers_self (a : Decimal) : compareNumbers a a = .eq := by
  cases a with
  | finite n c e => exact compare_eq_iff_eq.mpr rfl
  | infinity n => cases n <;> rfl
  | nan => rfl
  | snan => rfl

theorem sameNumber_self (a : Decimal) : SameNumber a a :=
  ⟨rfl, fun _ => compareNumbers_self a⟩

/-- **Where the operators agree with the stored number.**  Except on NaNs, `==` tells
whether two stored numbers are the same. -/
theorem pyEq_eq_some_of_not_nan {a b : Decimal} (ha : a.isNan = false) (hb : b.isNan = false) :
    pyEq a b = some (decide (SameNumber a b)) := by
  have hsa : a.isSignalling = false := by cases a <;> first | rfl | exact absurd ha (by decide)
  have hsb : b.isSignalling = false := by cases b <;> first | rfl | exact absurd hb (by decide)
  have hsame : SameNumber a b ↔ compareNumbers a b = .eq := by
    rw [SameNumber, ha, hb]
    simp
  rw [pyEq, if_neg (by simp [hsa, hsb]), if_neg (by simp [ha, hb])]
  congr 1
  rw [Bool.eq_iff_iff, beq_iff_eq, decide_eq_true_iff, hsame]

end Decimal

end EpsCloud

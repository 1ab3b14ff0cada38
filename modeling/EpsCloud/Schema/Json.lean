import Mathlib

/-!
# JSON values

What `json.load` builds, and what a `JSONB` column returns: `None`, the two
booleans, numbers, texts, lists and dicts.  A number is an `int` or a `float`
and stands for its exact value; a literal beyond the range of a `float` is read
as an infinity.  The operators of the language on these values are partial: `>`
compares two numbers, two texts or two lists, and raises on anything else.

* `kind_of_pyGt`: only values of one kind compare.
* `maxOf_isSome_iff`: which lists the built-in `max` accepts.
* `ends_round_iff`: the smallest and the largest value of a list exist and round
  exactly when all of its values are finite numbers.
-/

namespace EpsCloud

/-- A JSON value. -/
inductive Json where
  | null
  | bool (value : Bool)
  | number (value : ℚ)
  | infinity (negative : Bool)
  | string (text : String)
  | array (items : List Json)
  | object (fields : List (String × Json))

namespace Json

/-- The number that a value is; a boolean is an integer. -/
def number? : Json → Option (WithBot (WithTop ℚ))
  | .bool value => some ((if value then 1 else 0 : ℚ) : WithTop ℚ)
  | .number value => some (value : WithTop ℚ)
  | .infinity true => some ⊥
  | .infinity false => some ((⊤ : WithTop ℚ) : WithBot (WithTop ℚ))
  | _ => none

mutual

/-- The operator `==`. -/
def pyEq : Json → Json → Bool
  | .null, .null => true
  | .string s, .string t => s = t
  | .array xs, .array ys => pyEqItems xs ys
  | .object fs, .object gs => fs.length = gs.length ∧ pyEqFields fs gs
  | a, b => a.number?.isSome ∧ a.number? = b.number?

/-- `==` of two lists. -/
def pyEqItems : List Json → List Json → Bool
  | [], [] => true
  | x :: xs, y :: ys => pyEq x y && pyEqItems xs ys
  | _, _ => false

/-- The other dict has every field of this one. -/
def pyEqFields : List (String × Json) → List (String × Json) → Bool
  | [], _ => true
  | (key, x) :: fs, gs =>
    (match gs.lookup key with
      | some y => pyEq x y
      | none => false) && pyEqFields fs gs

end

/-- `>` of two numbers. -/
def numberGt (a b : Json) : Option Bool :=
  match a.number?, b.number? with
  | some x, some y => some (y < x)
  | _, _ => none

mutual

/-- The operator `>`, or `none` where it raises `TypeError`. -/
def pyGt : Json → Json → Option Bool
  | .string s, .string t => some (t < s)
  | .array xs, .array ys => pyGtItems xs ys
  | a, b => numberGt a b

/-- `>` of two lists: the first items that differ decide, else the lengths. -/
def pyGtItems : List Json → List Json → Option Bool
  | [], _ => some false
  | _ :: _, [] => some true
  | x :: xs, y :: ys => if pyEq x y then pyGtItems xs ys else pyGt x y

end

/-- The built-in `max` and `min` past the first value: a later value that `beats` the best one so
far takes its place. -/
def bestFrom (beats : Json → Json → Option Bool) : Json → List Json → Option Json
  | best, [] => some best
  | best, x :: xs => do
    let replaces ← beats x best
    bestFrom beats (if replaces then x else best) xs

/-- `max(values)`, or `none` where it raises. -/
def maxOf : List Json → Option Json
  | [] => none
  | x :: xs => bestFrom pyGt x xs

/-- `min(values)`, or `none` where it raises. -/
def minOf : List Json → Option Json
  | [] => none
  | x :: xs => bestFrom (fun x best => pyGt best x) x xs

/-- `bool(value)` -/
def truthy : Json → Bool
  | .null => false
  | .bool value => value
  | .number value => value ≠ 0
  | .infinity _ => true
  | .string text => text ≠ ""
  | .array items => items ≠ []
  | .object fields => fields ≠ []

/-- The integer next to a number; halfway between two of them, the even one. -/
def roundHalfEven (x : ℚ) : ℤ :=
  if x - ⌊x⌋ < 1 / 2 then ⌊x⌋
  else if 1 / 2 < x - ⌊x⌋ then ⌊x⌋ + 1
  else if ⌊x⌋ % 2 = 0 then ⌊x⌋
  else ⌊x⌋ + 1

/-- `round(value)`, or `none` where it raises. -/
def pyRound : Json → Option ℤ
  | .bool value => some (if value then 1 else 0)
  | .number value => some (roundHalfEven value)
  | _ => none

/-! ## Which values compare -/

/-- The kinds of values that have an order. -/
inductive Kind where
  | number | text | list
  deriving DecidableEq

/-- The kind of a value that can be compared. -/
def kind : Json → Option Kind
  | .bool _ | .number _ | .infinity _ => some .number
  | .string _ => some .text
  | .array _ => some .list
  | .null | .object _ => none

/-- A number that is not an infinity. -/
def isFinite : Json → Bool
  | .bool _ | .number _ => true
  | _ => false

theorem kind_eq_number_iff {a : Json} : a.kind = some .number ↔ ∃ x, a.number? = some x := by
  cases a with
  | infinity negative => cases negative <;> simp [kind, number?]
  | _ => simp [kind, number?]

/-- Two texts compare, two lists compare item by item, and all else as numbers. -/
theorem pyGt_cases (a b : Json) :
    (∃ s t, a = .string s ∧ b = .string t ∧ pyGt a b = some (decide (t < s))) ∨
      (∃ xs ys, a = .array xs ∧ b = .array ys) ∨ pyGt a b = numberGt a b := by
  cases a with
  | string s =>
    cases b with
    | string t => exact Or.inl ⟨s, t, rfl, rfl, by rw [pyGt]⟩
    | _ => exact Or.inr (Or.inr rfl)
  | array xs =>
    cases b with
    | array ys => exact Or.inr (Or.inl ⟨xs, ys, rfl, rfl⟩)
    | _ => exact Or.inr (Or.inr rfl)
  | _ => exact Or.inr (Or.inr (by rw [pyGt] <;> simp))

theorem pyGt_of_number {a b : Json} {x y : WithBot (WithTop ℚ)} (ha : a.number? = some x)
    (hb : b.number? = some y) : pyGt a b = some (decide (y < x)) := by
  rcases pyGt_cases a b with ⟨s, t, rfl, -⟩ | ⟨xs, ys, rfl, -⟩ | h
  · cases ha
  · cases ha
  · rw [h, numberGt, ha, hb]

/-- Only values of one kind compare. -/
theorem kind_of_pyGt {a b : Json} (h : (pyGt a b).isSome) :
    a.kind = b.kind ∧ a.kind.isSome := by
  rcases pyGt_cases a b with ⟨s, t, rfl, rfl, -⟩ | ⟨xs, ys, rfl, rfl⟩ | heq
  · exact ⟨rfl, rfl⟩
  · exact ⟨rfl, rfl⟩
  · rw [heq, numberGt] at h
    cases ha : a.number? with
    | none => simp [ha] at h
    | some x =>
      cases hb : b.number? with
      | none => simp [ha, hb] at h
      | some y =>
        rw [kind_eq_number_iff.mpr ⟨x, ha⟩, kind_eq_number_iff.mpr ⟨y, hb⟩]
        exact ⟨rfl, rfl⟩

/-- Numbers compare, and texts do. -/
theorem pyGt_isSome_of_kind {a b : Json} {k : Kind} (hk : k = .number ∨ k = .text)
    (ha : a.kind = some k) (hb : b.kind = some k) : (pyGt a b).isSome := by
  rcases hk with rfl | rfl
  · obtain ⟨x, hx⟩ := kind_eq_number_iff.mp ha
    obtain ⟨y, hy⟩ := kind_eq_number_iff.mp hb
    rw [pyGt_of_number hx hy]
    rfl
  · cases a <;> cases ha
    cases b <;> cases hb
    rw [pyGt]
    rfl

/-! ## Which lists have a largest value -/

section Best

variable {beats : Json → Json → Option Bool}

/-- If there is a best value, all values are of its kind. -/
theorem kind_of_bestFrom (hbeats : ∀ a b, (beats a b).isSome → a.kind = b.kind ∧ a.kind.isSome)
    {xs : List Json} {best r : Json} (h : bestFrom beats best xs = some r) :
    r.kind = best.kind ∧ ∀ x ∈ xs, x.kind = best.kind ∧ x.kind.isSome := by
  induction xs generalizing best with
  | nil =>
    cases h
    exact ⟨rfl, by simp⟩
  | cons x xs ih =>
    cases hx : beats x best with
    | none => simp [bestFrom, hx] at h
    | some replaces =>
      obtain ⟨hkind, hsome⟩ := hbeats x best (by rw [hx]; rfl)
      have hnext : (if replaces then x else best).kind = best.kind := by
        cases replaces
        · rfl
        · exact hkind
      simp only [bestFrom, hx, Option.bind_eq_bind, Option.bind_some] at h
      obtain ⟨hr, hxs⟩ := ih h
      rw [hnext] at hr hxs
      exact ⟨hr, List.forall_mem_cons.mpr ⟨⟨hkind, hsome⟩, hxs⟩⟩

/-- Values of a kind on which `beats` never raises have a best one. -/
theorem bestFrom_isSome_of_kind {k : Kind}
    (hbeats : ∀ a b, a.kind = some k → b.kind = some k → (beats a b).isSome) {xs : List Json}
    {best : Json} (hbest : best.kind = some k) (hxs : ∀ x ∈ xs, x.kind = some k) :
    (bestFrom beats best xs).isSome := by
  induction xs generalizing best with
  | nil => rfl
  | cons x xs ih =>
    rw [List.forall_mem_cons] at hxs
    obtain ⟨replaces, hx⟩ := Option.isSome_iff_exists.mp (hbeats x best hxs.1 hbest)
    simp only [bestFrom, hx, Option.bind_eq_bind, Option.bind_some]
    refine ih ?_ hxs.2
    cases replaces
    · exact hbest
    · exact hxs.1

/-- The best value is one of the values. -/
theorem mem_of_bestFrom {xs : List Json} {best r : Json} (h : bestFrom beats best xs = some r) :
    r ∈ best :: xs := by
  induction xs generalizing best with
  | nil =>
    cases h
    exact List.mem_singleton_self r
  | cons x xs ih =>
    cases hx : beats x best with
    | none => simp [bestFrom, hx] at h
    | some replaces =>
      simp only [bestFrom, hx, Option.bind_eq_bind, Option.bind_some] at h
      rcases List.mem_cons.mp (ih h) with hr | hr
      · cases replaces
        · exact List.mem_cons.mpr (Or.inl hr)
        · exact List.mem_cons_of_mem _ (List.mem_cons.mpr (Or.inl hr))
      · exact List.mem_cons_of_mem _ (List.mem_cons_of_mem _ hr)

/-- None of the values beats the best one of some numbers. -/
theorem not_better_of_bestFrom (better : WithBot (WithTop ℚ) → WithBot (WithTop ℚ) → Prop)
    [DecidableRel better] (hasymm : ∀ {x y}, better x y → ¬ better y x)
    (hconn : ∀ {x z}, better x z → ∀ y, better x y ∨ better y z)
    (hbeats : ∀ {a b x y}, a.number? = some x → b.number? = some y →
      beats a b = some (decide (better x y)))
    {xs : List Json} {best r : Json} {m : WithBot (WithTop ℚ)}
    (h : bestFrom beats best xs = some r) (hr : r.number? = some m)
    (hnumbers : ∀ x ∈ best :: xs, ∃ n, x.number? = some n) :
    ∀ x ∈ best :: xs, ∀ n, x.number? = some n → ¬ better n m := by
  induction xs generalizing best with
  | nil =>
    cases h
    intro x hx n hn hbetter
    rw [List.mem_singleton.mp hx, hr] at hn
    cases hn
    exact hasymm hbetter hbetter
  | cons x xs ih =>
    rw [List.forall_mem_cons, List.forall_mem_cons] at hnumbers
    obtain ⟨⟨b, hb⟩, ⟨n, hn⟩, hxs⟩ := hnumbers
    simp only [bestFrom, hbeats hn hb, Option.bind_eq_bind, Option.bind_some] at h
    rw [List.forall_mem_cons, List.forall_mem_cons]
    by_cases hbetter : better n b
    · -- `x` takes the place of the best value so far
      rw [decide_eq_true hbetter, if_pos rfl] at h
      have hrest := ih h (List.forall_mem_cons.mpr ⟨⟨n, hn⟩, hxs⟩)
      rw [List.forall_mem_cons] at hrest
      refine ⟨fun b' hb' hbm => ?_, hrest⟩
      rw [hb] at hb'
      cases hb'
      exact (hconn hbm n).elim (hasymm hbetter) (hrest.1 n hn)
    · rw [decide_eq_false hbetter, if_neg Bool.false_ne_true] at h
      have hrest := ih h (List.forall_mem_cons.mpr ⟨⟨b, hb⟩, hxs⟩)
      rw [List.forall_mem_cons] at hrest
      refine ⟨hrest.1, fun n' hn' hnm => ?_, hrest.2⟩
      rw [hn] at hn'
      cases hn'
      exact (hconn hnm b).elim hbetter (hrest.1 b hb)

end Best

/-- What the built-in `max` accepts: one value, numbers, texts, or lists that it can order. -/
def Comparable (values : List Json) : Prop :=
  values.length ≤ 1 ∨ (∀ v ∈ values, v.kind = some .number) ∨
    (∀ v ∈ values, v.kind = some .text) ∨
    ((∀ v ∈ values, v.kind = some .list) ∧ (maxOf values).isSome)

/-- **Which lists the built-in `max` accepts.** -/
theorem maxOf_isSome_iff {values : List Json} (hne : values ≠ []) :
    (maxOf values).isSome ↔ Comparable values := by
  cases values with
  | nil => exact absurd rfl hne
  | cons x xs =>
    constructor
    · intro h
      obtain ⟨r, hr⟩ := Option.isSome_iff_exists.mp h
      have hkinds := (kind_of_bestFrom (fun _ _ => kind_of_pyGt) hr).2
      cases xs with
      | nil => exact Or.inl le_rfl
      | cons y xs =>
        have hx : x.kind.isSome :=
          (hkinds y List.mem_cons_self).1 ▸ (hkinds y List.mem_cons_self).2
        obtain ⟨k, hk⟩ := Option.isSome_iff_exists.mp hx
        have hall : ∀ v ∈ x :: y :: xs, v.kind = some k :=
          List.forall_mem_cons.mpr ⟨hk, fun v hv => (hkinds v hv).1.trans hk⟩
        cases k with
        | number => exact Or.inr (Or.inl hall)
        | text => exact Or.inr (Or.inr (Or.inl hall))
        | list => exact Or.inr (Or.inr (Or.inr ⟨hall, h⟩))
    · have hof : ∀ k : Kind, k = .number ∨ k = .text → (∀ v ∈ x :: xs, v.kind = some k) →
          (maxOf (x :: xs)).isSome := fun k hk hall => by
        rw [List.forall_mem_cons] at hall
        exact bestFrom_isSome_of_kind (fun _ _ => pyGt_isSome_of_kind hk) hall.1 hall.2
      rintro (hone | hnumbers | htexts | hlists)
      · cases xs with
        | nil => rfl
        | cons y xs => exact absurd hone (by simp)
      · exact hof .number (Or.inl rfl) hnumbers
      · exact hof .text (Or.inr rfl) htexts
      · exact hlists.2

/-! ## Which lists have ends that round -/

theorem isFinite_iff {v : Json} :
    v.isFinite = true ↔ ∃ x, v.number? = some x ∧ x ≠ ⊥ ∧ x ≠ (⊤ : WithTop ℚ) := by
  cases v with
  | infinity negative => cases negative <;> simp [isFinite, number?]
  | bool value => simp [isFinite, number?]
  | number value => simp [isFinite, number?]
  | _ => simp [isFinite, number?]

theorem pyRound_isSome_iff {v : Json} : (pyRound v).isSome ↔ v.isFinite = true := by
  cases v <;> simp [pyRound, isFinite]

theorem kind_of_isFinite {v : Json} (h : v.isFinite = true) : v.kind = some .number :=
  kind_eq_number_iff.mpr ((isFinite_iff.mp h).imp fun _ hx => hx.1)

/-- The numbers between two finite ones are finite. -/
theorem isFinite_of_ends {values : List Json} {lo hi : Json} (hlo : minOf values = some lo)
    (hhi : maxOf values = some hi) (hflo : lo.isFinite = true) (hfhi : hi.isFinite = true) :
    ∀ v ∈ values, v.isFinite = true := by
  cases values with
  | nil => simp
  | cons x xs =>
    obtain ⟨a, ha, hbot, -⟩ := isFinite_iff.mp hflo
    obtain ⟨b, hb, -, htop⟩ := isFinite_iff.mp hfhi
    obtain ⟨hkind, hkinds⟩ := kind_of_bestFrom (fun _ _ => kind_of_pyGt) hhi
    have hx : x.kind = some .number := hkind.symm.trans (kind_of_isFinite hfhi)
    have hnumbers : ∀ v ∈ x :: xs, ∃ n, v.number? = some n := fun v hv =>
      kind_eq_number_iff.mp <| (List.mem_cons.mp hv).elim (fun heq => heq ▸ hx)
        fun hmem => (hkinds v hmem).1.trans hx
    intro v hv
    obtain ⟨n, hn⟩ := hnumbers v hv
    have hle : a ≤ n := not_lt.mp <| not_better_of_bestFrom (· < ·)
      (fun h => h.asymm) (fun h y => LT.lt.gt_or_lt h y)
      (fun hx hy => pyGt_of_number hy hx) hlo ha hnumbers v hv n hn
    have hge : n ≤ b := not_lt.mp <| not_better_of_bestFrom (· > ·)
      (fun h => h.asymm) (fun h y => (LT.lt.gt_or_lt h y).symm)
      (fun hx hy => pyGt_of_number hx hy) hhi hb hnumbers v hv n hn
    refine isFinite_iff.mpr ⟨n, hn, fun h => hbot ?_, fun h => htop ?_⟩
    · rw [h] at hle
      exact le_bot_iff.mp hle
    · rw [h] at hge
      exact top_le_iff.mp hge

/-- The best one of some finite numbers rounds. -/
theorem bestFrom_rounds {beats : Json → Json → Option Bool}
    (hbeats : ∀ a b, a.kind = some .number → b.kind = some .number → (beats a b).isSome)
    {x : Json} {xs : List Json} (h : ∀ v ∈ x :: xs, v.isFinite = true) :
    ((bestFrom beats x xs).bind pyRound).isSome := by
  obtain ⟨r, hr⟩ := Option.isSome_iff_exists.mp (bestFrom_isSome_of_kind hbeats
    (kind_of_isFinite (h x List.mem_cons_self))
    fun v hv => kind_of_isFinite (h v (List.mem_cons_of_mem _ hv)))
  rw [hr, Option.bind_some, pyRound_isSome_iff]
  exact h r (mem_of_bestFrom hr)

/-- **Which lists have ends that round**: those whose values are all finite numbers. -/
theorem ends_round_iff {values : List Json} (hne : values ≠ []) :
    ((minOf values).bind pyRound).isSome ∧ ((maxOf values).bind pyRound).isSome ↔
      ∀ v ∈ values, v.isFinite = true := by
  constructor
  · rintro ⟨hlo, hhi⟩
    obtain ⟨n, hn⟩ := Option.isSome_iff_exists.mp hlo
    obtain ⟨lo, hmin, hlo⟩ := Option.bind_eq_some_iff.mp hn
    obtain ⟨m, hm⟩ := Option.isSome_iff_exists.mp hhi
    obtain ⟨hi, hmax, hhi⟩ := Option.bind_eq_some_iff.mp hm
    exact isFinite_of_ends hmin hmax (pyRound_isSome_iff.mp (by rw [hlo]; rfl))
      (pyRound_isSome_iff.mp (by rw [hhi]; rfl))
  · intro h
    cases values with
    | nil => exact absurd rfl hne
    | cons x xs =>
      have htotal : ∀ a b : Json, a.kind = some .number → b.kind = some .number →
          (pyGt a b).isSome := fun a b => pyGt_isSome_of_kind (Or.inl rfl)
      exact ⟨bestFrom_rounds (fun a b ha hb => htotal b a hb ha) h, bestFrom_rounds htotal h⟩

end Json

end EpsCloud

import Mathlib

/-!
# Clocks that run at a piecewise constant offset

A second clock reads `m + offset m` at instant `m`, where the offset is constant
between finitely many changes.  Reading the second clock is a function; going
back is not, because a forward change skips some readings and a backward change
shows some readings twice.  `resolve` picks one instant for every reading: the
first one for a reading that is shown twice, and, for a skipped reading, the one
that the offset before the change would give.

* `le_reading_resolve` and `reading_pred_resolve_lt`: for a reading that no
  forward change skips strictly inside, `resolve` is the first instant from
  which the second clock is at least there.
* `galoisConnection_resolve`: cut the second clock into cells of a fixed length.
  If the number of the current cell never decreases and no forward change skips
  a cell boundary strictly inside, then the start of a cell and the number of
  the cell are a Galois connection.
* `eq_iff_mem_Ico_of_galoisConnection`: the fibres of the upper adjoint of a
  Galois connection of integers are half-open intervals.
-/

namespace PiecewiseOffset

/-! ## Reading and resolving -/

/-- The offset at an instant: `o` before the first change, then the offset of the last
change that has happened. -/
def offsetFrom (o : ℤ) : List (ℤ × ℤ) → ℤ → ℤ
  | [], _ => o
  | (t, o') :: cs, m => if m < t then o else offsetFrom o' cs m

/-- The offset that a reading is resolved with.  A change applies to the readings from
`t + max o o'` on: to the right of both copies of what is shown twice, and to the right
of everything that is skipped. -/
def resolveFrom (o : ℤ) : List (ℤ × ℤ) → ℤ → ℤ
  | [], _ => o
  | (t, o') :: cs, w => if w < t + max o o' then o else resolveFrom o' cs w

/-- The readings just before and at each change.  A change skips the readings between
them when the second is larger. -/
def jumps (o : ℤ) : List (ℤ × ℤ) → List (ℤ × ℤ)
  | [] => []
  | (t, o') :: cs => (t + o, t + o') :: jumps o' cs

/-- The changes stand in order, more than `gap` apart. -/
def Spaced (gap : ℤ) (cs : List (ℤ × ℤ)) : Prop :=
  cs.Pairwise fun a b => a.1 + gap < b.1

variable {gap o t m w : ℤ} {cs : List (ℤ × ℤ)}

/-- The offset is always one of the listed ones. -/
theorem offsetFrom_mem (o : ℤ) (cs : List (ℤ × ℤ)) (m : ℤ) :
    offsetFrom o cs m ∈ o :: cs.map Prod.snd := by
  induction cs generalizing o with
  | nil => exact List.mem_singleton_self o
  | cons c cs ih =>
    rw [offsetFrom]
    split_ifs
    · exact List.mem_cons_self
    · exact List.mem_cons_of_mem o (ih c.2)

theorem resolveFrom_mem (o : ℤ) (cs : List (ℤ × ℤ)) (w : ℤ) :
    resolveFrom o cs w ∈ o :: cs.map Prod.snd := by
  induction cs generalizing o with
  | nil => exact List.mem_singleton_self o
  | cons c cs ih =>
    rw [resolveFrom]
    split_ifs
    · exact List.mem_cons_self
    · exact List.mem_cons_of_mem o (ih c.2)

theorem offsetFrom_of_lt (h : ∀ c ∈ cs, m < c.1) : offsetFrom o cs m = o := by
  cases cs with
  | nil => rfl
  | cons c cs =>
    obtain ⟨t, o'⟩ := c
    have ht : m < t := h (t, o') List.mem_cons_self
    rw [offsetFrom, if_pos ht]

/-- A reading that is reached after instant `t` is resolved to an instant after `t`. -/
theorem le_sub_resolveFrom (hgap : 0 ≤ gap) (hcs : Spaced gap cs) (ht : ∀ c ∈ cs, t ≤ c.1)
    (hw : t + o ≤ w) : t ≤ w - resolveFrom o cs w := by
  induction cs generalizing t o with
  | nil =>
    rw [resolveFrom]
    omega
  | cons c cs ih =>
    obtain ⟨t', o'⟩ := c
    have htt' : t ≤ t' := ht (t', o') List.mem_cons_self
    obtain ⟨hhead, htail⟩ := List.pairwise_cons.mp hcs
    rw [resolveFrom]
    split_ifs with hlt
    · omega
    · have hnext : ∀ c ∈ cs, t' ≤ c.1 := fun c hc => by
        have hc' : t' + gap < c.1 := hhead c hc
        omega
      have := ih (t := t') (o := o') htail hnext (by omega)
      omega

/-! ## The resolved instant is the first one at or past the reading -/

/-- No forward change skips `w` strictly inside. -/
def NotSkipped (o : ℤ) (cs : List (ℤ × ℤ)) (w : ℤ) : Prop :=
  ∀ j ∈ jumps o cs, ¬ (j.1 < w ∧ w < j.2)

theorem NotSkipped.tail {t o' : ℤ} (h : NotSkipped o ((t, o') :: cs) w) : NotSkipped o' cs w :=
  fun j hj => h j (List.mem_cons_of_mem _ hj)

theorem le_reading_resolve (hgap : 0 ≤ gap) (hcs : Spaced gap cs) (hskip : NotSkipped o cs w) :
    w ≤ (w - resolveFrom o cs w) + offsetFrom o cs (w - resolveFrom o cs w) := by
  induction cs generalizing o with
  | nil =>
    rw [resolveFrom, offsetFrom]
    omega
  | cons c cs ih =>
    obtain ⟨t, o'⟩ := c
    obtain ⟨hhead, htail⟩ := List.pairwise_cons.mp hcs
    rw [resolveFrom]
    split_ifs with hlt
    · rw [offsetFrom]
      split_ifs with hbefore
      · omega
      · -- the reading is skipped, so it is the first skipped one and resolves to `t` itself
        have hedge : ¬ (t + o < w ∧ w < t + o') := hskip _ List.mem_cons_self
        have hinst : w - o = t := by omega
        have hlater : ∀ c ∈ cs, w - o < c.1 := fun c hc => by
          have hc' : t + gap < c.1 := hhead c hc
          omega
        rw [offsetFrom_of_lt hlater]
        omega
    · have hle : t ≤ w - resolveFrom o' cs w :=
        le_sub_resolveFrom hgap htail (fun c hc => by
          have hc' : t + gap < c.1 := hhead c hc
          omega) (by omega)
      rw [offsetFrom, if_neg (by omega)]
      exact ih htail hskip.tail

theorem reading_pred_resolve_lt (hgap : 0 ≤ gap) (hcs : Spaced gap cs)
    (hskip : NotSkipped o cs w) :
    (w - resolveFrom o cs w - 1) + offsetFrom o cs (w - resolveFrom o cs w - 1) < w := by
  induction cs generalizing o with
  | nil =>
    rw [resolveFrom, offsetFrom]
    omega
  | cons c cs ih =>
    obtain ⟨t, o'⟩ := c
    obtain ⟨hhead, htail⟩ := List.pairwise_cons.mp hcs
    rw [resolveFrom]
    split_ifs with hlt
    · have hedge : ¬ (t + o < w ∧ w < t + o') := hskip _ List.mem_cons_self
      rw [offsetFrom, if_pos (by omega)]
      omega
    · have hle : t ≤ w - resolveFrom o' cs w :=
        le_sub_resolveFrom hgap htail (fun c hc => by
          have hc' : t + gap < c.1 := hhead c hc
          omega) (by omega)
      rw [offsetFrom]
      split_ifs with hbefore
      · omega
      · exact ih htail hskip.tail

/-! ## Cells of the second clock -/

/-- The number of the cell that the second clock is in. -/
def cellOf (len o : ℤ) (cs : List (ℤ × ℤ)) (m : ℤ) : ℤ := (m + offsetFrom o cs m) / len

/-- The instant that the start of a cell is resolved to. -/
def cellStart (len o : ℤ) (cs : List (ℤ × ℤ)) (n : ℤ) : ℤ := n * len - resolveFrom o cs (n * len)

/-- **Cell starts and cell numbers are adjoint.** -/
theorem galoisConnection_resolve {len : ℤ} (hlen : 0 < len) (hgap : 0 ≤ gap)
    (hcs : Spaced gap cs) (hmono : Monotone (cellOf len o cs))
    (hskip : ∀ n : ℤ, NotSkipped o cs (n * len)) :
    GaloisConnection (cellStart len o cs) (cellOf len o cs) := by
  intro n m
  have hat : n ≤ cellOf len o cs (cellStart len o cs n) := by
    rw [cellOf, Int.le_ediv_iff_mul_le hlen]
    exact le_reading_resolve hgap hcs (hskip n)
  have hbefore : cellOf len o cs (cellStart len o cs n - 1) < n := by
    rw [cellOf, Int.ediv_lt_iff_lt_mul hlen]
    exact reading_pred_resolve_lt hgap hcs (hskip n)
  constructor
  · intro h
    exact le_trans hat (hmono h)
  · intro h
    by_contra hlt
    have hle : m ≤ cellStart len o cs n - 1 := by omega
    have := hmono hle
    omega

/-- **The fibres of an upper adjoint are half-open intervals.** -/
theorem eq_iff_mem_Ico_of_galoisConnection {l u : ℤ → ℤ} (h : GaloisConnection l u) (n m : ℤ) :
    u m = n ↔ l n ≤ m ∧ m < l (n + 1) := by
  rw [h n m, ← not_le, h (n + 1) m]
  omega

end PiecewiseOffset

import Mathlib

/-!
# A count that forgives

Days are marked as a pass, as neutral or as a miss.  A count runs over them: a pass
extends it, a neutral day leaves it, a miss takes it back to zero unless it is
forgiven.  A miss is forgiven when forgiving is enabled, the count has reached a
minimum, and the last forgiven miss lies a cooldown back.

Which misses are forgiven depends on which earlier ones were, so the set of them is
defined by its own past.

* `existsUnique_of_causal`: a condition on a day that depends only on the earlier
  days of the set describes exactly one set of days in a span.
* `Rule.Forgiven`, `existsUnique_forgiven`: the forgiven days of a span.
* `run_agrees`: the running count is the number of passes after the last miss
  that is not forgiven, and the date it keeps is the latest forgiven one.
* `run_mono`: better marks never give a smaller count, if the cooldown does not
  exceed the minimum.
-/

namespace Tally

/-! ## Sets that are defined by their own past -/

/-- Membership of a day may depend on the set through its earlier days only. -/
def Causal (P : Finset ℤ → ℤ → Prop) : Prop :=
  ∀ G G' d, (∀ d' < d, d' ∈ G ↔ d' ∈ G') → (P G d ↔ P G' d)

theorem Causal.unique {P : Finset ℤ → ℤ → Prop} (hP : Causal P) {f e : ℤ} {G G' : Finset ℤ}
    (hG : ∀ d, d ∈ G ↔ d ∈ Finset.Ico f e ∧ P G d)
    (hG' : ∀ d, d ∈ G' ↔ d ∈ Finset.Ico f e ∧ P G' d) : G = G' := by
  have hbelow : ∀ n : ℕ, ∀ d < f + n, d ∈ G ↔ d ∈ G' := by
    intro n
    induction n with
    | zero =>
      intro d hd
      rw [hG, hG', Finset.mem_Ico]
      constructor <;> (rintro ⟨⟨hf, -⟩, -⟩; omega)
    | succ n ih =>
      intro d hd
      -- the sets agree before `d`, so the condition does on `d`
      have hpast : P G d ↔ P G' d := hP G G' d fun d' hd' => ih d' (by omega)
      rw [hG, hG', hpast]
  ext d
  by_cases hd : f ≤ d
  · exact hbelow ((d - f).toNat + 1) d (by omega)
  · exact hbelow 0 d (by omega)

theorem Causal.exists {P : Finset ℤ → ℤ → Prop} (hP : Causal P) (f : ℤ) (n : ℕ) :
    ∃ G : Finset ℤ, ∀ d, d ∈ G ↔ d ∈ Finset.Ico f (f + n) ∧ P G d := by
  classical
  induction n with
  | zero => exact ⟨∅, fun d => by simp⟩
  | succ n ih =>
    obtain ⟨G, hG⟩ := ih
    have hspan : ∀ d, d ∈ Finset.Ico f (f + (n + 1 : ℕ)) ↔
        d ∈ Finset.Ico f (f + n) ∨ d = f + n := by
      intro d
      rw [Finset.mem_Ico, Finset.mem_Ico]
      omega
    have hlast : f + (n : ℤ) ∉ G := fun h => by
      have := Finset.mem_Ico.mp ((hG _).mp h).1
      omega
    by_cases hnew : P G (f + n)
    · have hsame : ∀ d ≤ f + (n : ℤ), P (insert (f + (n : ℤ)) G) d ↔ P G d := by
        intro d hd
        refine hP _ _ d fun d' hd' => ?_
        rw [Finset.mem_insert, or_iff_right (by omega)]
      refine ⟨insert (f + (n : ℤ)) G, fun d => ?_⟩
      rw [Finset.mem_insert, hspan, hG]
      constructor
      · rintro (rfl | ⟨hd, hPd⟩)
        · exact ⟨Or.inr rfl, (hsame _ le_rfl).mpr hnew⟩
        · exact ⟨Or.inl hd, (hsame d (Finset.mem_Ico.mp hd).2.le).mpr hPd⟩
      · rintro ⟨hd | rfl, hPd⟩
        · exact Or.inr ⟨hd, (hsame d (Finset.mem_Ico.mp hd).2.le).mp hPd⟩
        · exact Or.inl rfl
    · refine ⟨G, fun d => ?_⟩
      rw [hspan]
      constructor
      · intro hd
        exact ⟨Or.inl ((hG d).mp hd).1, ((hG d).mp hd).2⟩
      · rintro ⟨hd | rfl, hPd⟩
        · exact (hG d).mpr ⟨hd, hPd⟩
        · exact absurd hPd hnew

/-- **A causal condition describes exactly one set of days in a span.** -/
theorem existsUnique_of_causal {P : Finset ℤ → ℤ → Prop} (hP : Causal P) (f e : ℤ) :
    ∃! G : Finset ℤ, ∀ d, d ∈ G ↔ d ∈ Finset.Ico f e ∧ P G d := by
  have hspan : Finset.Ico f e = Finset.Ico f (f + ((e - f).toNat : ℤ)) := by
    ext d
    rw [Finset.mem_Ico, Finset.mem_Ico]
    omega
  obtain ⟨G, hG⟩ := hP.exists f (e - f).toNat
  rw [← hspan] at hG
  exact ⟨G, hG, fun G' hG' => hP.unique hG' hG⟩

/-! ## Marks and counts -/

/-- How a day counts. -/
inductive Mark where
  | miss | neutral | pass
  deriving DecidableEq, Repr

/-- The place of a mark in the order: a miss is worse than a neutral day, and that than a
pass. -/
def Mark.rank : Mark → ℕ
  | .miss => 0
  | .neutral => 1
  | .pass => 2

theorem Mark.rank_injective : Function.Injective Mark.rank := by
  intro a b h
  cases a <;> cases b <;> first | rfl | exact absurd h (by decide)

instance : LinearOrder Mark := LinearOrder.lift' Mark.rank Mark.rank_injective

/-- When a miss may be forgiven. -/
structure Rule where
  enabled : Bool
  minCount : ℕ
  cooldown : ℤ

/-- A running count: its present value, the best value it has had, and the last forgiven day. -/
structure State where
  count : ℕ
  best : ℕ
  last : Option ℤ

section Counting

variable (mark : ℤ → Mark) (G : Finset ℤ) (f : ℤ)

/-- The day is a miss that is not forgiven. -/
def Breaks (d : ℤ) : Prop := mark d = .miss ∧ d ∉ G

instance (d : ℤ) : Decidable (Breaks mark G d) := inferInstanceAs (Decidable (_ ∧ _))

/-- The passes from `f` on and before `d` that come after every miss before `d` that is not
forgiven. -/
noncomputable def passesSince (d : ℤ) : Finset ℤ :=
  (Finset.Ico f d).filter fun p =>
    mark p = .pass ∧ ∀ m ∈ Finset.Ico f d, Breaks mark G m → m < p

/-- The number of passes before `d` since the last miss that is not forgiven. -/
noncomputable def countSince (d : ℤ) : ℕ := (passesSince mark G f d).card

variable {mark G f}

theorem mem_passesSince {d p : ℤ} :
    p ∈ passesSince mark G f d ↔
      (f ≤ p ∧ p < d) ∧ mark p = .pass ∧ ∀ m, f ≤ m → m < d → Breaks mark G m → m < p := by
  simp only [passesSince, Finset.mem_filter, Finset.mem_Ico, and_imp]

theorem countSince_of_le {d : ℤ} (h : d ≤ f) : countSince mark G f d = 0 := by
  rw [countSince, passesSince, Finset.Ico_eq_empty_of_le h, Finset.filter_empty,
    Finset.card_empty]

theorem countSince_pass {d : ℤ} (hf : f ≤ d) (hd : mark d = .pass) :
    countSince mark G f (d + 1) = countSince mark G f d + 1 := by
  have hinsert : passesSince mark G f (d + 1) = insert d (passesSince mark G f d) := by
    ext p
    rw [Finset.mem_insert, mem_passesSince, mem_passesSince]
    constructor
    · rintro ⟨⟨hp, hpd⟩, hpass, hafter⟩
      by_cases h : p = d
      · exact Or.inl h
      · exact Or.inr ⟨⟨hp, by omega⟩, hpass, fun m hm hmd => hafter m hm (by omega)⟩
    · rintro (rfl | ⟨⟨hp, hpd⟩, hpass, hafter⟩)
      · refine ⟨⟨hf, by omega⟩, hd, fun m hm hmd hbreak => ?_⟩
        -- the day itself is no miss
        have hne : m ≠ p := by
          rintro rfl
          rw [Breaks, hd] at hbreak
          exact absurd hbreak.1 (by decide)
        omega
      · refine ⟨⟨hp, by omega⟩, hpass, fun m hm hmd hbreak => ?_⟩
        have hne : m ≠ d := by
          rintro rfl
          rw [Breaks, hd] at hbreak
          exact absurd hbreak.1 (by decide)
        exact hafter m hm (by omega) hbreak
  rw [countSince, hinsert, Finset.card_insert_of_notMem, countSince]
  intro h
  have := (mem_passesSince.mp h).1
  omega

theorem countSince_keep {d : ℤ} (hpass : mark d ≠ .pass) (hbreak : ¬ Breaks mark G d) :
    countSince mark G f (d + 1) = countSince mark G f d := by
  have hsame : passesSince mark G f (d + 1) = passesSince mark G f d := by
    ext p
    rw [mem_passesSince, mem_passesSince]
    constructor
    · rintro ⟨⟨hp, hpd⟩, hmark, hafter⟩
      have hne : p ≠ d := by
        rintro rfl
        exact hpass hmark
      exact ⟨⟨hp, by omega⟩, hmark, fun m hm hmd => hafter m hm (by omega)⟩
    · rintro ⟨⟨hp, hpd⟩, hmark, hafter⟩
      refine ⟨⟨hp, by omega⟩, hmark, fun m hm hmd hb => ?_⟩
      have hne : m ≠ d := by
        rintro rfl
        exact hbreak hb
      exact hafter m hm (by omega) hb
  rw [countSince, hsame, countSince]

theorem countSince_break {d : ℤ} (hf : f ≤ d) (hbreak : Breaks mark G d) :
    countSince mark G f (d + 1) = 0 := by
  rw [countSince, Finset.card_eq_zero, Finset.eq_empty_iff_forall_notMem]
  intro p hp
  obtain ⟨⟨-, hpd⟩, -, hafter⟩ := mem_passesSince.mp hp
  have := hafter d hf (by omega) hbreak
  omega

/-- The count before a day depends on the forgiven days before it. -/
theorem countSince_congr {G' : Finset ℤ} {d : ℤ} (h : ∀ d' < d, d' ∈ G ↔ d' ∈ G') :
    countSince mark G f d = countSince mark G' f d := by
  have hsame : passesSince mark G f d = passesSince mark G' f d := by
    ext p
    rw [mem_passesSince, mem_passesSince]
    refine and_congr_right fun _ => and_congr_right fun _ => ?_
    refine forall_congr' fun m => forall_congr' fun _ => forall_congr' fun hmd => ?_
    rw [Breaks, Breaks, h m hmd]
  rw [countSince, hsame, countSince]

end Counting

/-! ## The forgiven days of a span -/

namespace Rule

variable (r : Rule)

/-- The condition under which a miss is forgiven, given the days that are. -/
def Allows (mark : ℤ → Mark) (f : ℤ) (G : Finset ℤ) (d : ℤ) : Prop :=
  mark d = .miss ∧ r.enabled = true ∧ r.minCount ≤ countSince mark G f d ∧
    ∀ g ∈ G, g < d → r.cooldown ≤ d - g

/-- `G` is the set of forgiven days from `f` on and before `e`. -/
def Forgiven (mark : ℤ → Mark) (f e : ℤ) (G : Finset ℤ) : Prop :=
  ∀ d, d ∈ G ↔ d ∈ Finset.Ico f e ∧ r.Allows mark f G d

theorem causal_allows (mark : ℤ → Mark) (f : ℤ) : Causal (r.Allows mark f) := by
  intro G G' d h
  rw [Allows, Allows, countSince_congr h]
  refine and_congr_right fun _ => and_congr_right fun _ => and_congr_right fun _ => ?_
  constructor
  · intro hcool g hg hgd
    exact hcool g ((h g hgd).mpr hg) hgd
  · intro hcool g hg hgd
    exact hcool g ((h g hgd).mp hg) hgd

/-- **The forgiven days are determined.** -/
theorem existsUnique_forgiven (mark : ℤ → Mark) (f e : ℤ) : ∃! G, r.Forgiven mark f e G :=
  existsUnique_of_causal (r.causal_allows mark f) f e

end Rule

/-! ## The running count -/

section Run

variable (r : Rule) (mark : ℤ → Mark)

/-- The running count forgives a miss on `day`. -/
def State.Forgives (s : State) (day : ℤ) : Prop :=
  r.enabled = true ∧ r.minCount ≤ s.count ∧ ∀ g ∈ s.last, r.cooldown ≤ day - g

instance (s : State) (day : ℤ) : Decidable (s.Forgives r day) :=
  inferInstanceAs (Decidable (_ ∧ _ ∧ ∀ g ∈ s.last, _))

/-- One day of the running count. -/
def step (s : State) (day : ℤ) : State :=
  match mark day with
  | .pass => { s with count := s.count + 1, best := max s.best (s.count + 1) }
  | .neutral => s
  | .miss => if s.Forgives r day then { s with last := some day } else { s with count := 0 }

/-- The running count after `n` days from `day` on. -/
def run (day : ℤ) (s : State) : ℕ → State
  | 0 => s
  | n + 1 => step r mark (run day s n) (day + n)

variable {r mark} {s : State} {day : ℤ}

@[simp] theorem run_zero : run r mark day s 0 = s := rfl

theorem run_succ (n : ℕ) :
    run r mark day s (n + 1) = step r mark (run r mark day s n) (day + n) := rfl

theorem run_succ_left (n : ℕ) :
    run r mark day s (n + 1) = run r mark (day + 1) (step r mark s day) n := by
  induction n with
  | zero => rw [run_succ, run_zero, run_zero, Nat.cast_zero, add_zero]
  | succ n ih => rw [run_succ, ih, run_succ, Nat.cast_succ, add_assoc, add_comm 1 (n : ℤ)]

theorem run_add (m n : ℕ) :
    run r mark day s (m + n) = run r mark (day + m) (run r mark day s m) n := by
  induction n with
  | zero => rfl
  | succ n ih => rw [← add_assoc, run_succ, ih, run_succ, Nat.cast_add, add_assoc]

theorem step_pass (h : mark day = .pass) :
    step r mark s day = { s with count := s.count + 1, best := max s.best (s.count + 1) } := by
  rw [step, h]

theorem step_neutral (h : mark day = .neutral) : step r mark s day = s := by
  rw [step, h]

theorem step_forgiven (h : mark day = .miss) (hf : s.Forgives r day) :
    step r mark s day = { s with last := some day } := by
  rw [step, h]
  exact if_pos hf

theorem step_break (h : mark day = .miss) (hf : ¬ s.Forgives r day) :
    step r mark s day = { s with count := 0 } := by
  rw [step, h]
  exact if_neg hf

/-- The best value is the larger of the one it started with and the largest count reached. -/
theorem best_run (hs : s.count = 0) (n : ℕ) :
    (run r mark day s n).best =
      max s.best ((Finset.range (n + 1)).sup fun k => (run r mark day s k).count) := by
  induction n with
  | zero => rw [zero_add, Finset.range_one, Finset.sup_singleton, run_zero, hs, Nat.max_zero]
  | succ n ih =>
    have hle : (run r mark day s n).count ≤
        (Finset.range (n + 1)).sup fun k => (run r mark day s k).count :=
      Finset.le_sup (f := fun k => (run r mark day s k).count) (Finset.self_mem_range_succ n)
    rw [Finset.range_add_one, Finset.sup_insert, run_succ]
    cases h : mark (day + n) with
    | pass =>
      rw [step_pass h, ih]
      simp only [Nat.max_def] at *
      split_ifs <;> omega
    | neutral =>
      rw [step_neutral h, ih, sup_eq_right.mpr hle]
    | miss =>
      by_cases hf : (run r mark day s n).Forgives r (day + n)
      · rw [step_forgiven h hf, ih, sup_eq_right.mpr hle]
      · rw [step_break h hf, ih]
        simp

/-! ## The running count and the forgiven days -/

/-- What the running count holds before a day, in terms of the forgiven days. -/
structure Agrees (mark : ℤ → Mark) (G : Finset ℤ) (f d : ℤ) (s : State) : Prop where
  count : s.count = countSince mark G f d
  last : ∀ g, s.last = some g ↔ IsGreatest {x | x ∈ G ∧ x < d} g

/-- The last forgiven day has cooled down exactly when every one of them has. -/
theorem Agrees.cooled_iff {G : Finset ℤ} {f d : ℤ} (h : Agrees mark G f d s) :
    (∀ g ∈ s.last, r.cooldown ≤ d - g) ↔ ∀ g ∈ G, g < d → r.cooldown ≤ d - g := by
  constructor
  · intro hlast g hg hgd
    have hne : (G.filter (· < d)).Nonempty := ⟨g, Finset.mem_filter.mpr ⟨hg, hgd⟩⟩
    have hmax := (G.filter (· < d)).isGreatest_max' hne
    have hgreatest : IsGreatest {x | x ∈ G ∧ x < d} ((G.filter (· < d)).max' hne) := by
      have hset : {x | x ∈ G ∧ x < d} = ((G.filter (· < d) : Finset ℤ) : Set ℤ) := by
        ext x
        simp
      rw [hset]
      exact hmax
    have hcool := hlast _ ((h.last _).mpr hgreatest)
    have hle := hgreatest.2 ⟨hg, hgd⟩
    linarith
  · intro hall g hg
    obtain ⟨hmem, -⟩ := (h.last g).mp hg
    exact hall g hmem.1 hmem.2

/-- **One day keeps the running count in agreement** with the forgiven days of a span. -/
theorem Agrees.step {G : Finset ℤ} {f e d : ℤ} (hG : r.Forgiven mark f e G) (hf : f ≤ d)
    (he : d < e) (h : Agrees mark G f d s) : Agrees mark G f (d + 1) (step r mark s d) := by
  have hkeep : d ∉ G → ∀ g, s.last = some g ↔ IsGreatest {x | x ∈ G ∧ x < d + 1} g := by
    intro hd g
    have hset : {x | x ∈ G ∧ x < d + 1} = {x | x ∈ G ∧ x < d} := by
      ext x
      constructor
      · rintro ⟨hx, hxd⟩
        have hne : x ≠ d := by
          rintro rfl
          exact hd hx
        exact ⟨hx, by omega⟩
      · rintro ⟨hx, hxd⟩
        exact ⟨hx, by omega⟩
    rw [hset]
    exact h.last g
  have hnot : mark d ≠ .miss → d ∉ G := fun hmark hd => hmark ((hG d).mp hd).2.1
  cases hmark : mark d with
  | pass =>
    rw [step_pass hmark]
    refine ⟨?_, hkeep (hnot (by rw [hmark]; decide))⟩
    rw [countSince_pass hf hmark, ← h.count]
  | neutral =>
    rw [step_neutral hmark]
    refine ⟨?_, hkeep (hnot (by rw [hmark]; decide))⟩
    have hbreak : ¬ Breaks mark G d := fun hb => by
      rw [Breaks, hmark] at hb
      exact absurd hb.1 (by decide)
    rw [countSince_keep (by rw [hmark]; decide) hbreak, ← h.count]
  | miss =>
    have hforgives : s.Forgives r d ↔ d ∈ G := by
      rw [hG d, Rule.Allows, State.Forgives, h.cooled_iff, h.count]
      constructor
      · intro hall
        exact ⟨Finset.mem_Ico.mpr ⟨hf, he⟩, hmark, hall⟩
      · rintro ⟨-, -, hall⟩
        exact hall
    by_cases hd : d ∈ G
    · rw [step_forgiven hmark (hforgives.mpr hd)]
      refine ⟨?_, fun g => ?_⟩
      · rw [countSince_keep (by rw [hmark]; decide) fun hb => hb.2 hd, ← h.count]
      · -- the day itself is the latest forgiven one
        have hlast : IsGreatest {x | x ∈ G ∧ x < d + 1} d :=
          ⟨⟨hd, by omega⟩, fun x hx => by have := hx.2; omega⟩
        rw [Option.some.injEq]
        exact ⟨fun heq => heq ▸ hlast, fun hg => hlast.unique hg⟩
    · rw [step_break hmark fun hfor => hd (hforgives.mp hfor)]
      exact ⟨(countSince_break hf ⟨hmark, hd⟩).symm, hkeep hd⟩

/-- **The running count over a span** is the number of passes since the last miss that is not
forgiven, and keeps the latest forgiven day. -/
theorem run_agrees {G : Finset ℤ} {f e : ℤ} (hG : r.Forgiven mark f e G) (hs : s.count = 0)
    (hlast : s.last = none) (n : ℕ) (hn : f + n ≤ e) :
    Agrees mark G f (f + n) (run r mark f s n) := by
  induction n with
  | zero =>
    rw [Nat.cast_zero, add_zero, run_zero]
    refine ⟨by rw [hs, countSince_of_le le_rfl], fun g => ?_⟩
    rw [hlast]
    constructor
    · intro h
      cases h
    · rintro ⟨⟨hg, hgf⟩, -⟩
      have := Finset.mem_Ico.mp ((hG g).mp hg).1
      omega
  | succ n ih =>
    rw [run_succ, Nat.cast_succ, ← add_assoc]
    exact (ih (by omega)).step hG (by omega) (by omega)

/-! ## Better marks -/

/-- Days without a pass leave a count that stands at zero and has forgiven nothing. -/
theorem run_of_no_pass (hmin : 0 < r.minCount) (hs : s.count = 0) (n : ℕ)
    (hmark : ∀ k : ℕ, k < n → mark (day + k) ≠ .pass) : run r mark day s n = s := by
  induction n with
  | zero => rfl
  | succ n ih =>
    rw [run_succ, ih fun k hk => hmark k (by omega)]
    cases h : mark (day + n) with
    | pass => exact absurd h (hmark n (by omega))
    | neutral => exact step_neutral h
    | miss =>
      have hnot : ¬ s.Forgives r (day + n) := fun hfor => by
        have := hfor.2.1
        omega
      rw [step_break h hnot]
      cases s
      exact congrArg (State.mk · _ _) hs.symm

/-- The second count is ahead before `d`: it is not smaller, and where it has forgiven a day
that the first has not matched since, the first has restarted at that day or later. -/
structure Ahead (d : ℤ) (s t : State) : Prop where
  count : s.count ≤ t.count
  best : s.best ≤ t.best
  past : ∀ g ∈ t.last, g < d
  spent : ∀ g ∈ t.last, (∃ g' ∈ s.last, g ≤ g') ∨ g + 1 + s.count ≤ d

section Ahead

variable {r' : Rule} {mark' : ℤ → Mark} {t : State} {d : ℤ}

/-- A count that is ahead forgives a miss that the other one forgives. -/
theorem Ahead.forgives (hmin : r'.minCount = r.minCount) (hcool : r'.cooldown = r.cooldown)
    (hle : r.cooldown ≤ r.minCount) (henabled : r.enabled = true → r'.enabled = true)
    (h : Ahead d s t) (hs : s.Forgives r d) : t.Forgives r' d := by
  obtain ⟨hen, hcount, hcooled⟩ := hs
  refine ⟨henabled hen, hmin ▸ hcount.trans h.count, fun g hg => ?_⟩
  rw [hcool]
  rcases h.spent g hg with ⟨g', hg', hgg'⟩ | hrestart
  · have := hcooled g' hg'
    omega
  · -- the first count has grown to the minimum since `g`, so the cooldown has passed
    omega

/-- A day on which the first count restarts. -/
theorem Ahead.restart (h : Ahead d s t) :
    ∀ g ∈ t.last, (∃ g' ∈ s.last, g ≤ g') ∨ g + 1 + (0 : ℕ) ≤ d + 1 := by
  intro g hg
  have := h.past g hg
  exact Or.inr (by omega)

/-- A day on which neither of the two forgiven days changes and the first count grows by at most
one. -/
theorem Ahead.spent_succ (h : Ahead d s t) {c : ℕ} (hc : c ≤ s.count + 1) :
    ∀ g ∈ t.last, (∃ g' ∈ s.last, g ≤ g') ∨ g + 1 + c ≤ d + 1 := by
  intro g hg
  rcases h.spent g hg with hleft | hright
  · exact Or.inl hleft
  · exact Or.inr (by omega)

/-- **One day with a better mark keeps the second count ahead.** -/
theorem Ahead.step (hmin : r'.minCount = r.minCount) (hcool : r'.cooldown = r.cooldown)
    (hle : r.cooldown ≤ r.minCount) (henabled : r.enabled = true → r'.enabled = true)
    (hmark : mark d ≤ mark' d) (h : Ahead d s t) :
    Ahead (d + 1) (Tally.step r mark s d) (Tally.step r' mark' t d) := by
  have hpast : ∀ g ∈ t.last, g < d + 1 := fun g hg => by
    have := h.past g hg
    omega
  have hbest : t.best ≤ max t.best (t.count + 1) := le_max_left _ _
  cases ha : mark d with
  | pass =>
    have hb : mark' d = .pass := by
      rw [ha] at hmark
      cases hb : mark' d <;> rw [hb] at hmark <;> first | rfl | exact absurd hmark (by decide)
    rw [step_pass ha, step_pass hb]
    refine ⟨Nat.succ_le_succ h.count, max_le_max h.best (Nat.succ_le_succ h.count), hpast, ?_⟩
    exact h.spent_succ le_rfl
  | neutral =>
    rw [step_neutral ha]
    cases hb : mark' d with
    | pass =>
      rw [step_pass hb]
      exact ⟨Nat.le_succ_of_le h.count, h.best.trans hbest, hpast, h.spent_succ (by omega)⟩
    | neutral =>
      rw [step_neutral hb]
      exact ⟨h.count, h.best, hpast, h.spent_succ (by omega)⟩
    | miss =>
      rw [ha, hb] at hmark
      exact absurd hmark (by decide)
  | miss =>
    by_cases hs : s.Forgives r d
    · rw [step_forgiven ha hs]
      have hspent : ∀ g ∈ t.last, (∃ g' ∈ some d, g ≤ g') ∨ g + 1 + s.count ≤ d + 1 :=
        fun g hg => Or.inl ⟨d, rfl, (h.past g hg).le⟩
      cases hb : mark' d with
      | pass =>
        rw [step_pass hb]
        exact ⟨Nat.le_succ_of_le h.count, h.best.trans hbest, hpast, hspent⟩
      | neutral =>
        rw [step_neutral hb]
        exact ⟨h.count, h.best, hpast, hspent⟩
      | miss =>
        rw [step_forgiven hb (h.forgives hmin hcool hle henabled hs)]
        refine ⟨h.count, h.best, fun g hg => ?_, fun g hg => ?_⟩
        · obtain rfl := Option.some.inj hg
          omega
        · obtain rfl := Option.some.inj hg
          exact Or.inl ⟨d, rfl, le_rfl⟩
    · rw [step_break ha hs]
      cases hb : mark' d with
      | pass =>
        rw [step_pass hb]
        exact ⟨Nat.zero_le _, h.best.trans hbest, hpast, h.restart⟩
      | neutral =>
        rw [step_neutral hb]
        exact ⟨Nat.zero_le _, h.best, hpast, h.restart⟩
      | miss =>
        by_cases ht : t.Forgives r' d
        · rw [step_forgiven hb ht]
          refine ⟨Nat.zero_le _, h.best, fun g hg => ?_, fun g hg => ?_⟩
          · obtain rfl := Option.some.inj hg
            omega
          · obtain rfl := Option.some.inj hg
            exact Or.inr (by simp)
        · rw [step_break hb ht]
          exact ⟨le_rfl, h.best, hpast, h.restart⟩

/-- **Better marks never give a smaller count.** -/
theorem run_mono (hmin : r'.minCount = r.minCount) (hcool : r'.cooldown = r.cooldown)
    (hle : r.cooldown ≤ r.minCount) (henabled : r.enabled = true → r'.enabled = true) (n : ℕ)
    (hmark : ∀ k : ℕ, k < n → mark (day + k) ≤ mark' (day + k)) (h : Ahead day s t) :
    Ahead (day + n) (run r mark day s n) (run r' mark' day t n) := by
  induction n with
  | zero => rw [run_zero, run_zero, Nat.cast_zero, add_zero]; exact h
  | succ n ih =>
    rw [run_succ, run_succ, Nat.cast_succ, ← add_assoc]
    exact (ih fun k hk => hmark k (by omega)).step hmin hcool hle henabled (hmark n (by omega))

end Ahead

end Run

end Tally

import Mathlib

/-!
# Filling gaps from a generator

A filling visits a list of places in order.  A place that is taken is left alone;
at an open one the generator is drawn from, and the draw fails, or it writes the
place, or it passes the place by.  Which numbers a place gets depends on the places
before it that were open.

* `run_keeps`: what every write does, a run does.
* `run_eq_ok_iff`: a run succeeds if the draws of the open places do.
* `filter_open_run`: the places that a run leaves open are those that it passes by,
  which can be told from the store at the start.
* `rerun_iff`: a second run, from the restarted generator, leaves everything as the
  first one left it if and only if the numbers the generator starts with pass these
  places by again.
-/

/-- How the places of a store are filled. -/
structure Filling (σ γ ν ε : Type) where
  /-- Something is there already. -/
  Taken : ν → σ → Prop
  /-- What an open place draws: an error, or a write or none. -/
  draw : ν → γ → Except ε (Option (σ → σ) × γ)
  decTaken : ∀ v s, Decidable (Taken v s)

namespace Filling

variable {σ γ ν ε : Type} (F : Filling σ γ ν ε)

instance (v : ν) (s : σ) : Decidable (F.Taken v s) := F.decTaken v s

/-- One visit. -/
def visit (v : ν) (s : σ) (g : γ) : Except ε (σ × γ) :=
  if F.Taken v s then .ok (s, g)
  else
    match F.draw v g with
    | .error e => .error e
    | .ok (none, g') => .ok (s, g')
    | .ok (some write, g') => .ok (write s, g')

/-- The visits of a list of places. -/
def run : List ν → σ → γ → Except ε (σ × γ)
  | [], s, g => .ok (s, g)
  | v :: l, s, g => (F.visit v s g).bind fun p => run l p.1 p.2

/-- The open places of a store that are passed by, as far as the draws succeed. -/
def passedBy (s : σ) : List ν → γ → List ν
  | [], _ => []
  | v :: l, g =>
    if F.Taken v s then passedBy s l g
    else
      match F.draw v g with
      | .error _ => []
      | .ok (none, g') => v :: passedBy s l g'
      | .ok (some _, g') => passedBy s l g'

/-! ## One visit -/

theorem run_cons_of_taken {v : ν} {s : σ} (h : F.Taken v s) (l : List ν) (g : γ) :
    F.run (v :: l) s g = F.run l s g := by
  rw [run, visit, if_pos h]
  rfl

theorem run_cons_of_error {v : ν} {s : σ} {g : γ} {e : ε} (h : ¬ F.Taken v s)
    (hdraw : F.draw v g = .error e) (l : List ν) : F.run (v :: l) s g = .error e := by
  rw [run, visit, if_neg h, hdraw]
  rfl

theorem run_cons_of_none {v : ν} {s : σ} {g g' : γ} (h : ¬ F.Taken v s)
    (hdraw : F.draw v g = .ok (none, g')) (l : List ν) : F.run (v :: l) s g = F.run l s g' := by
  rw [run, visit, if_neg h, hdraw]
  rfl

theorem run_cons_of_some {v : ν} {s : σ} {g g' : γ} {write : σ → σ} (h : ¬ F.Taken v s)
    (hdraw : F.draw v g = .ok (some write, g')) (l : List ν) :
    F.run (v :: l) s g = F.run l (write s) g' := by
  rw [run, visit, if_neg h, hdraw]
  rfl

/-- A write that some draw of the place gives. -/
def Writes (v : ν) (write : σ → σ) : Prop := ∃ g g', F.draw v g = .ok (some write, g')

/-- **What every write does, a run does.** -/
theorem run_keeps {R : σ → σ → Prop} (hrefl : ∀ s, R s s)
    (htrans : ∀ {s t u}, R s t → R t u → R s u) {l : List ν}
    (hwrite : ∀ v ∈ l, ∀ write, F.Writes v write → ∀ s, ¬ F.Taken v s → R s (write s)) {s s' : σ}
    {g g' : γ} (h : F.run l s g = .ok (s', g')) : R s s' := by
  induction l generalizing s g with
  | nil =>
    obtain ⟨rfl, -⟩ := Prod.mk.inj (Except.ok.inj h)
    exact hrefl s
  | cons v l ih =>
    obtain ⟨hv, hl⟩ := List.forall_mem_cons.mp hwrite
    by_cases ht : F.Taken v s
    · rw [F.run_cons_of_taken ht] at h
      exact ih hl h
    · rcases hdraw : F.draw v g with e | ⟨_ | write, g₁⟩
      · rw [F.run_cons_of_error ht hdraw] at h
        exact absurd h (by simp)
      · rw [F.run_cons_of_none ht hdraw] at h
        exact ih hl h
      · rw [F.run_cons_of_some ht hdraw] at h
        exact htrans (hv write ⟨g, g₁, hdraw⟩ s ht) (ih hl h)

/-! ## Places that do not meet -/

/-- The writes of a place have no effect on whether another one is taken. -/
def Apart (v w : ν) : Prop := ∀ write, F.Writes v write → ∀ s, F.Taken w (write s) ↔ F.Taken w s

/-- The place is filled whatever the generator says, and without drawing from it. -/
def Steady (v : ν) : Prop := ∀ g, ∃ write, F.draw v g = .ok (some write, g)

/-- The draws of the place succeed. -/
def Sound (v : ν) : Prop := ∀ g, ∃ p, F.draw v g = .ok p

/-- The order of the two places makes no difference to which of them are open when it matters. -/
def Unrelated (v w : ν) : Prop := (F.Steady v ∨ F.Apart w v) ∧ (F.Steady w ∨ F.Apart v w)

/-- The places that are to be filled: what is written is taken from then on, and a draw fails
whatever the generator says, or never. -/
structure Lawful (l : List ν) : Prop where
  unrelated : l.Pairwise F.Unrelated
  taken : ∀ v ∈ l, ∀ write, F.Writes v write → ∀ s, F.Taken v (write s)
  mono : ∀ v ∈ l, ∀ write, F.Writes v write → ∀ s, ¬ F.Taken v s → ∀ w, F.Taken w s →
    F.Taken w (write s)
  fails : ∀ v ∈ l, ¬ F.Sound v → ∀ g, ∃ e, F.draw v g = .error e

variable {F}

theorem Lawful.tail {v : ν} {l : List ν} (h : F.Lawful (v :: l)) : F.Lawful l where
  unrelated := (List.pairwise_cons.mp h.unrelated).2
  taken w hw := h.taken w (List.mem_cons_of_mem _ hw)
  mono w hw := h.mono w (List.mem_cons_of_mem _ hw)
  fails w hw := h.fails w (List.mem_cons_of_mem _ hw)

theorem not_steady_of_none {v : ν} {g g' : γ} (h : F.draw v g = .ok (none, g')) : ¬ F.Steady v := by
  intro hs
  obtain ⟨write, hw⟩ := hs g
  rw [h] at hw
  exact absurd hw (by simp)

theorem Steady.sound {v : ν} (h : F.Steady v) : F.Sound v := by
  intro g
  obtain ⟨write, hw⟩ := h g
  exact ⟨_, hw⟩

/-- What is taken stays taken. -/
theorem Lawful.taken_run {l : List ν} (hl : F.Lawful l) {s s' : σ} {g g' : γ}
    (h : F.run l s g = .ok (s', g')) {w : ν} (hw : F.Taken w s) : F.Taken w s' :=
  F.run_keeps (R := fun s t => F.Taken w s → F.Taken w t) (fun _ => id) (fun h h' => h' ∘ h)
    (fun v hv write hwrite s hs => hl.mono v hv write hwrite s hs w) h hw

/-- A place that the others are apart from is taken afterwards if it was before. -/
theorem taken_run_iff {l : List ν} {w : ν} (hw : ∀ v ∈ l, F.Apart v w) {s s' : σ} {g g' : γ}
    (h : F.run l s g = .ok (s', g')) : F.Taken w s' ↔ F.Taken w s :=
  F.run_keeps (R := fun s t => F.Taken w t ↔ F.Taken w s) (fun _ => Iff.rfl)
    (fun h h' => h'.trans h) (fun v hv write hwrite s _ => hw v hv write hwrite s) h

/-! ## Which runs succeed -/

/-- **A run succeeds** if and only if the draws of all open places do. -/
theorem Lawful.run_eq_ok_iff {l : List ν} (hl : F.Lawful l) {s : σ} {g : γ} :
    (∃ p, F.run l s g = .ok p) ↔ ∀ v ∈ l, F.Taken v s ∨ F.Sound v := by
  induction l generalizing s g with
  | nil => exact iff_of_true ⟨_, rfl⟩ (by simp)
  | cons v l ih =>
    rw [List.forall_mem_cons]
    by_cases ht : F.Taken v s
    · rw [F.run_cons_of_taken ht, ih hl.tail]
      exact (and_iff_right (Or.inl ht)).symm
    · by_cases hs : F.Sound v
      · rw [and_iff_right (Or.inr hs)]
        obtain ⟨⟨_ | write, g'⟩, hdraw⟩ := hs g
        · rw [F.run_cons_of_none ht hdraw, ih hl.tail]
        · rw [F.run_cons_of_some ht hdraw, ih hl.tail]
          refine forall₂_congr fun w hw => ?_
          obtain ⟨-, hsteady | hapart⟩ := (List.pairwise_cons.mp hl.unrelated).1 w hw
          · exact iff_of_true (Or.inr hsteady.sound) (Or.inr hsteady.sound)
          · rw [hapart write ⟨g, g', hdraw⟩ s]
      · refine iff_of_false ?_ fun h => h.1.elim ht hs
        obtain ⟨e, he⟩ := hl.fails v List.mem_cons_self hs g
        rintro ⟨p, hp⟩
        rw [F.run_cons_of_error ht he] at hp
        exact absurd hp (by simp)

/-! ## What stays open -/

/-- Steady places have no part in which places are passed by. -/
theorem passedBy_congr {s t : σ} {l : List ν}
    (h : ∀ v ∈ l, F.Steady v ∨ (F.Taken v t ↔ F.Taken v s)) (g : γ) :
    F.passedBy t l g = F.passedBy s l g := by
  induction l generalizing g with
  | nil => rfl
  | cons v l ih =>
    obtain ⟨hv, hl⟩ := List.forall_mem_cons.mp h
    rw [passedBy, passedBy]
    rcases hv with hsteady | hv
    · obtain ⟨write, hwrite⟩ := hsteady g
      rw [hwrite]
      dsimp only
      rw [ih hl, ite_self, ite_self]
    · simp only [hv, ih hl]

theorem none_of_mem_passedBy {s : σ} {l : List ν} {g : γ} {v : ν} (h : v ∈ F.passedBy s l g) :
    ∃ g g', F.draw v g = .ok (none, g') := by
  induction l generalizing g with
  | nil => exact absurd h (by simp [passedBy])
  | cons w l ih =>
    rw [passedBy] at h
    split_ifs at h
    · exact ih h
    · rcases hdraw : F.draw w g with e | ⟨_ | write, g'⟩ <;> rw [hdraw] at h
      · exact absurd h (by simp)
      · rcases List.mem_cons.mp h with rfl | h
        · exact ⟨g, g', hdraw⟩
        · exact ih h
      · exact ih h

/-- Only the open places count. -/
theorem passedBy_filter (s : σ) (l : List ν) (g : γ) :
    F.passedBy s (l.filter fun v => ¬ F.Taken v s) g = F.passedBy s l g := by
  induction l generalizing g with
  | nil => rfl
  | cons v l ih =>
    by_cases ht : F.Taken v s
    · rw [List.filter_cons_of_neg (by simpa using ht), passedBy, if_pos ht, ih]
    · rw [List.filter_cons_of_pos (by simpa using ht), passedBy, passedBy]
      simp only [ih]

/-- **The places that a run leaves open** are those that it passes by. -/
theorem Lawful.filter_open_run {l : List ν} (hl : F.Lawful l) {s s' : σ} {g g' : γ}
    (h : F.run l s g = .ok (s', g')) :
    (l.filter fun v => ¬ F.Taken v s') = F.passedBy s l g := by
  induction l generalizing s g with
  | nil => rfl
  | cons v l ih =>
    obtain ⟨hv, -⟩ := List.pairwise_cons.mp hl.unrelated
    rw [passedBy]
    by_cases ht : F.Taken v s
    · rw [F.run_cons_of_taken ht] at h
      rw [if_pos ht, List.filter_cons_of_neg (by simpa using hl.tail.taken_run h ht)]
      exact ih hl.tail h
    · rw [if_neg ht]
      rcases hdraw : F.draw v g with e | ⟨_ | write, g₁⟩
      · rw [F.run_cons_of_error ht hdraw] at h
        exact absurd h (by simp)
      · rw [F.run_cons_of_none ht hdraw] at h
        have hopen : ¬ F.Taken v s' := by
          rw [taken_run_iff (fun w hw => (hv w hw).1.resolve_left (not_steady_of_none hdraw)) h]
          exact ht
        rw [List.filter_cons_of_pos (by simpa using hopen), ih hl.tail h]
      · rw [F.run_cons_of_some ht hdraw] at h
        have hwrite : F.Writes v write := ⟨g, g₁, hdraw⟩
        have hend : F.Taken v s' :=
          hl.tail.taken_run h (hl.taken v List.mem_cons_self write hwrite s)
        rw [List.filter_cons_of_neg (by simpa using hend), ih hl.tail h]
        exact passedBy_congr (fun w hw => (hv w hw).2.imp_right fun ha => ha write hwrite s) g₁

/-! ## The second run -/

section Coins

variable {α : Type} [LinearOrder α] (number : γ → α) (next : γ → γ) (chance : ν → α)

/-- The first numbers that a generator gives. -/
def numbers : ℕ → γ → List α
  | 0, _ => []
  | n + 1, g => number g :: numbers n (next g)

variable (F) in
/-- The place is filled if the next number is below its chance. -/
def Coin (v : ν) : Prop :=
  ∃ write, ∀ g, F.draw v g = .ok (if number g < chance v then some write else none, next g)

/-- The numbers pass all of the places by. -/
def PassesBy (l : List ν) (g : γ) : Prop :=
  l.Forall₂ (fun v x => chance v ≤ x) (numbers number next l.length g)

instance (l : List ν) (g : γ) : Decidable (PassesBy number next chance l g) :=
  inferInstanceAs (Decidable (List.Forall₂ _ _ _))

variable {number next chance}

@[simp] theorem passesBy_nil (g : γ) : PassesBy number next chance ([] : List ν) g :=
  List.Forall₂.nil

theorem passesBy_cons {v : ν} {l : List ν} {g : γ} :
    PassesBy number next chance (v :: l) g ↔
      chance v ≤ number g ∧ PassesBy number next chance l (next g) :=
  List.forall₂_cons

variable {l : List ν} {s : σ} {g : γ}

/-- If the numbers pass the open places by, the run leaves the store as it is. -/
theorem run_of_passesBy (hcoin : ∀ v ∈ l, ¬ F.Taken v s → F.Coin number next chance v)
    (h : PassesBy number next chance (l.filter fun v => ¬ F.Taken v s) g) :
    ∃ g', F.run l s g = .ok (s, g') := by
  induction l generalizing g with
  | nil => exact ⟨g, rfl⟩
  | cons v l ih =>
    obtain ⟨hv, hl⟩ := List.forall_mem_cons.mp hcoin
    by_cases ht : F.Taken v s
    · rw [List.filter_cons_of_neg (by simpa using ht)] at h
      rw [F.run_cons_of_taken ht]
      exact ih hl h
    · rw [List.filter_cons_of_pos (by simpa using ht), passesBy_cons] at h
      obtain ⟨write, hdraw⟩ := hv ht
      have hnone := hdraw g
      rw [if_neg (not_lt.mpr h.1)] at hnone
      rw [F.run_cons_of_none ht hnone]
      exact ih hl h.2

/-- Otherwise it fills one of them. -/
theorem Lawful.exists_filled (hlaw : F.Lawful l)
    (hcoin : ∀ v ∈ l, ¬ F.Taken v s → F.Coin number next chance v)
    (h : ¬ PassesBy number next chance (l.filter fun v => ¬ F.Taken v s) g) {s' : σ} {g' : γ}
    (hrun : F.run l s g = .ok (s', g')) : ∃ v ∈ l, ¬ F.Taken v s ∧ F.Taken v s' := by
  induction l generalizing g with
  | nil => exact absurd (passesBy_nil g) h
  | cons v l ih =>
    obtain ⟨hv, hl⟩ := List.forall_mem_cons.mp hcoin
    by_cases ht : F.Taken v s
    · rw [List.filter_cons_of_neg (by simpa using ht)] at h
      rw [F.run_cons_of_taken ht] at hrun
      obtain ⟨w, hw, hfilled⟩ := ih hlaw.tail hl h hrun
      exact ⟨w, List.mem_cons_of_mem _ hw, hfilled⟩
    · rw [List.filter_cons_of_pos (by simpa using ht), passesBy_cons] at h
      obtain ⟨write, hdraw⟩ := hv ht
      have hdraw := hdraw g
      by_cases hx : number g < chance v
      · rw [if_pos hx] at hdraw
        rw [F.run_cons_of_some ht hdraw] at hrun
        refine ⟨v, List.mem_cons_self, ht, hlaw.tail.taken_run hrun ?_⟩
        exact hlaw.taken v List.mem_cons_self write ⟨g, next g, hdraw⟩ s
      · rw [if_neg hx] at hdraw
        rw [F.run_cons_of_none ht hdraw] at hrun
        obtain ⟨w, hw, hfilled⟩ := ih hlaw.tail hl (fun h' => h ⟨not_lt.mp hx, h'⟩) hrun
        exact ⟨w, List.mem_cons_of_mem _ hw, hfilled⟩

/-- **The second run** may write other rows, and starts from a store in which the same places are
taken.  What is compared is a part of the store that tells which places are taken. -/
theorem Lawful.rerun_iff {F' : Filling σ γ ν ε} (hlaw : F.Lawful l) (hlaw' : F'.Lawful l)
    (hcoin : ∀ v ∈ l, (∃ g g', F.draw v g = .ok (none, g')) → F'.Coin number next chance v)
    {τ : Type} (part : σ → τ) (hpart : ∀ s t, part s = part t → ∀ v, F'.Taken v s → F'.Taken v t)
    {s' t : σ} {g₁ : γ} (h : F.run l s g = .ok (s', g₁))
    (ht : ∀ v, F'.Taken v t ↔ F.Taken v s') :
    (∃ t' g₂, F'.run l t g = .ok (t', g₂) ∧ part t' = part t) ↔
      PassesBy number next chance (F.passedBy s l g) g := by
  have hopen : (l.filter fun v => ¬ F'.Taken v t) = F.passedBy s l g := by
    rw [← hlaw.filter_open_run h]
    exact List.filter_congr fun v _ => by rw [decide_eq_decide, ht v]
  have hcoin' : ∀ v ∈ l, ¬ F'.Taken v t → F'.Coin number next chance v := by
    intro v hv hnot
    have hmem : v ∈ F.passedBy s l g := by
      rw [← hopen]
      exact List.mem_filter.mpr ⟨hv, by simpa using hnot⟩
    exact hcoin v hv (none_of_mem_passedBy hmem)
  rw [← hopen]
  constructor
  · rintro ⟨t', g₂, hrun, hsame⟩
    by_contra hnot
    obtain ⟨v, -, hv, hv'⟩ := hlaw'.exists_filled hcoin' hnot hrun
    exact hv (hpart t' t hsame v hv')
  · intro hpass
    obtain ⟨g₂, hrun⟩ := run_of_passesBy hcoin' hpass
    exact ⟨t, g₂, hrun, rfl⟩

end Coins

end Filling

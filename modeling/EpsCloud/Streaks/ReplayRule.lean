import EpsCloud.Library.Tally
import EpsCloud.Recompute.Streak

/-!
# The rule that the streak replay computes

Each day is a pass, a miss or neutral for a streak, and the replay is a running count
over these marks that forgives some misses.  So the general facts about such counts
say which misses are forgiven and what the figures of the state row are.

* `replayDay_eq_step`, `replayFrom_eq_run`: the loop of the replay is the running count.
* `replay_computes_rule`: the forgiven misses are determined by the declared rule, and
  the three figures follow from them.
-/

namespace EpsCloud

open Tally

/-- How a day counts for a streak on `today`: a logged pass; not logged, and today or a bad day;
or anything else. -/
def dayMark (db : Database) (streakId : ℕ) (today : Date) (d : Date) : Mark :=
  if entryOn db streakId d = some true then .pass
  else if entryOn db streakId d = none ∧ (d = today ∨ d ∈ badDays db) then .neutral
  else .miss

/-- The rule of the replay. -/
def graceRule (graceEnabled : Bool) : Rule := ⟨graceEnabled, graceMinStreak, graceCooldownDays⟩

/-- The loop variables as a running count. -/
def Replay.toState (acc : Replay) : State := ⟨acc.current, acc.record, acc.lastGrace⟩

/-- **One day of the replay is one day of the running count.** -/
theorem replayDay_eq_step (db : Database) (streakId : ℕ) (today : Date) (grace : Bool)
    (acc : Replay) (day : Date) :
    (replayDay (fun d => (loggedDays db streakId).lookup d) (badDays db) today grace acc
        day).toState =
      step (graceRule grace) (dayMark db streakId today) acc.toState day := by
  have hlogged : (loggedDays db streakId).lookup day = entryOn db streakId day :=
    lookup_loggedDays db streakId day
  rw [replayDay, hlogged]
  by_cases hpass : entryOn db streakId day = some true
  · rw [if_pos hpass, step_pass (by rw [dayMark, if_pos hpass])]
    rfl
  · rw [if_neg hpass]
    by_cases hneutral : entryOn db streakId day = none ∧ (day = today ∨ day ∈ badDays db)
    · rw [if_pos hneutral, step_neutral (by rw [dayMark, if_neg hpass, if_pos hneutral])]
    · have hmiss : dayMark db streakId today day = .miss := by
        rw [dayMark, if_neg hpass, if_neg hneutral]
      rw [if_neg hneutral]
      by_cases hforgive : canForgive grace acc day
      · rw [if_pos hforgive]
        exact (step_forgiven (r := graceRule grace) (s := acc.toState) hmiss hforgive).symm
      · rw [if_neg hforgive]
        exact (step_break (r := graceRule grace) (s := acc.toState) hmiss hforgive).symm

/-- The loop of the replay is the running count. -/
theorem replayFrom_eq_run (db : Database) (streakId : ℕ) (today : Date) (grace : Bool) (n : ℕ)
    (day : Date) (acc : Replay) :
    (replayFrom (fun d => (loggedDays db streakId).lookup d) (badDays db) today grace n day
        acc).toState =
      run (graceRule grace) (dayMark db streakId today) day acc.toState n := by
  induction n generalizing day acc with
  | zero => rfl
  | succ n ih => rw [replayFrom, ih, replayDay_eq_step, run_succ_left]

/-! ## Where the replay starts -/

/-- The first day that is logged for a streak. -/
def FirstLogged (db : Database) (streakId : ℕ) (first : Date) : Prop :=
  (entryOn db streakId first).isSome ∧ ∀ d, (entryOn db streakId d).isSome → first ≤ d

theorem mem_keys_loggedDays {db : Database} {streakId : ℕ} {d : Date} :
    d ∈ (loggedDays db streakId).map Prod.fst ↔ (entryOn db streakId d).isSome := by
  rw [mem_keys_iff_lookup_isSome, lookup_loggedDays, entryOn]

theorem firstDay_eq_of_firstLogged {db : Database} {streakId : ℕ} {first : Date}
    (h : FirstLogged db streakId first) (today : Date) :
    firstDay (loggedDays db streakId) today = first := by
  have hmin : ((loggedDays db streakId).map Prod.fst).min? = some first := by
    rw [List.min?_eq_some_iff]
    refine ⟨mem_keys_loggedDays.mpr h.1, fun d hd => h.2 d (mem_keys_loggedDays.mp hd)⟩
  rw [firstDay, hmin, Option.getD_some]

/-- Something is logged for a streak, and then there is a first such day, or nothing is. -/
theorem exists_firstLogged_or (db : Database) (streakId : ℕ) :
    (∃ first, FirstLogged db streakId first) ∨ loggedDays db streakId = [] := by
  cases hmin : ((loggedDays db streakId).map Prod.fst).min? with
  | none =>
    refine Or.inr ?_
    rw [List.min?_eq_none_iff, List.map_eq_nil_iff] at hmin
    exact hmin
  | some first =>
    obtain ⟨hmem, hle⟩ := List.min?_eq_some_iff.mp hmin
    exact Or.inl ⟨first, mem_keys_loggedDays.mp hmem,
      fun d hd => hle d (mem_keys_loggedDays.mpr hd)⟩

theorem dayMark_ne_pass {db : Database} {streakId : ℕ} {d : Date}
    (h : entryOn db streakId d = none) (today : Date) : dayMark db streakId today d ≠ .pass := by
  rw [dayMark, h, if_neg (by simp)]
  split_ifs <;> decide

/-- **The replay of a streak is a running count from any day on before which nothing is
logged**, over the days up to `today`. -/
theorem replay_eq_run (db : Database) (streakId : ℕ) (start today : Date) (grace : Bool)
    (record : ℕ) (hlogged : ∀ d < start, entryOn db streakId d = none) :
    (replay (loggedDays db streakId) (badDays db) today grace record).toState =
      run (graceRule grace) (dayMark db streakId today) start ⟨0, record, none⟩
        (today + 1 - start).toNat := by
  have hempty : ∀ (from' : Date) (n : ℕ),
      (∀ k : ℕ, k < n → entryOn db streakId (from' + k) = none) →
      run (graceRule grace) (dayMark db streakId today) from' ⟨0, record, none⟩ n =
        ⟨0, record, none⟩ := fun from' n h =>
    run_of_no_pass (Nat.succ_pos 6) rfl n fun k hk => dayMark_ne_pass (h k hk) today
  rw [replay, replayFrom_eq_run, Replay.toState]
  rcases exists_firstLogged_or db streakId with ⟨first, hfirst⟩ | hnone
  · rw [firstDay_eq_of_firstLogged hfirst]
    have hbefore : ∀ d < first, entryOn db streakId d = none := fun d hd =>
      Option.not_isSome_iff_eq_none.mp fun hsome => absurd (hfirst.2 d hsome) (not_le.mpr hd)
    have hstart : start ≤ first := by
      by_contra hlt
      exact Option.not_isSome_iff_eq_none.mpr (hlogged first (not_le.mp hlt)) hfirst.1
    by_cases htoday : first ≤ today
    · -- the days before the first logged one change nothing
      have hsplit : (today + 1 - start).toNat =
          (first - start).toNat + (today + 1 - first).toNat := by lia
      have hcast : start + ((first - start).toNat : ℤ) = first := by lia
      rw [hsplit, run_add, hempty start _ fun k hk => hbefore _ (by lia), hcast]
    · have hzero : (today + 1 - first).toNat = 0 := by lia
      rw [hzero, run_zero, hempty start _ fun k hk => hbefore _ (by lia)]
  · have hall : ∀ d, entryOn db streakId d = none := fun d => by
      rw [entryOn, ← lookup_loggedDays, hnone]
      rfl
    rw [hempty _ _ fun _ _ => hall _, hempty _ _ fun _ _ => hall _]

/-! ## The declared rule -/

/-- The misses from `first` to `today` that are forgiven: grace is enabled, at least seven passed
days lie between the last miss before that is not forgiven and the miss, and no forgiven miss lies
within the six days before it. -/
def ForgivenMisses (db : Database) (streakId : ℕ) (today : Date) (grace : Bool) (first : Date)
    (G : Finset Date) : Prop :=
  ∀ d, d ∈ G ↔ (first ≤ d ∧ d ≤ today ∧ dayMark db streakId today d = .miss) ∧
    grace = true ∧ 7 ≤ countSince (dayMark db streakId today) G first d ∧
    ∀ g ∈ G, ¬ (d - 6 ≤ g ∧ g < d)

theorem forgivenMisses_iff {db : Database} {streakId : ℕ} {today : Date} {grace : Bool}
    {first : Date} {G : Finset Date} :
    ForgivenMisses db streakId today grace first G ↔
      (graceRule grace).Forgiven (dayMark db streakId today) first (today + 1) G := by
  refine forall_congr' fun d => ?_
  have hcool : (∀ g ∈ G, ¬ (d - 6 ≤ g ∧ g < d)) ↔
      ∀ g ∈ G, g < d → (graceRule grace).cooldown ≤ d - g := by
    refine forall₂_congr fun g _ => ?_
    show _ ↔ (g < d → (7 : ℤ) ≤ d - g)
    lia
  have hspan : d ∈ Finset.Ico first (today + 1) ↔ first ≤ d ∧ d ≤ today := by
    rw [Finset.mem_Ico, Order.lt_add_one_iff]
  rw [Rule.Allows, hspan, hcool]
  refine iff_congr Iff.rfl ⟨?_, ?_⟩
  · rintro ⟨⟨hf, ht, hm⟩, h⟩
    exact ⟨⟨hf, ht⟩, hm, h⟩
  · rintro ⟨⟨hf, ht⟩, hm, h⟩
    exact ⟨⟨hf, ht, hm⟩, h⟩

/-- The largest count after a number of days is the largest count at the end of one of them. -/
theorem sup_count_range {mark : ℤ → Mark} {G : Finset ℤ} {first today : ℤ} {count : ℕ → ℕ}
    (hcount : ∀ k ≤ (today + 1 - first).toNat, count k = countSince mark G first (first + k)) :
    ((Finset.range ((today + 1 - first).toNat + 1)).sup count) =
      (Finset.Icc first today).sup fun d => countSince mark G first (d + 1) := by
  refine le_antisymm (Finset.sup_le fun k hk => ?_) (Finset.sup_le fun d hd => ?_)
  · have hle : k ≤ (today + 1 - first).toNat := Nat.lt_succ_iff.mp (Finset.mem_range.mp hk)
    rw [hcount k hle]
    cases k with
    | zero => rw [Nat.cast_zero, add_zero, countSince_of_le le_rfl]; exact Nat.zero_le _
    | succ k =>
      have hd : first + (k : ℤ) ∈ Finset.Icc first today := Finset.mem_Icc.mpr (by omega)
      rw [Nat.cast_succ, ← add_assoc]
      exact Finset.le_sup (f := fun d => countSince mark G first (d + 1)) hd
  · have hd' := Finset.mem_Icc.mp hd
    have hk : (d + 1 - first).toNat ∈ Finset.range ((today + 1 - first).toNat + 1) :=
      Finset.mem_range.mpr (by omega)
    have hcast : first + ((d + 1 - first).toNat : ℤ) = d + 1 := by omega
    have h := Finset.le_sup (f := count) hk
    rw [hcount _ (by omega), hcast] at h
    exact h

section Figures

variable {db : Database} {k : ℕ} {c : Clock} {g : Bool}

/-- With nothing logged up to today the row says zero, no date and the previous record. -/
theorem recomputedStreakState_of_nothing_logged
    (hnone : ∀ d ≤ c.today, entryOn db k d = none) :
    (recomputedStreakState db k c g).currentStreak = 0 ∧
      (recomputedStreakState db k c g).lastGraceUsedDate = none ∧
      (recomputedStreakState db k c g).personalRecord =
        previousRecord (db.streakState.lookup k) := by
  have hrun := replay_eq_run db k (c.today + 1) c.today g
    (previousRecord (db.streakState.lookup k))
    fun d hd => hnone d (Order.lt_add_one_iff.mp hd)
  rw [sub_self, Int.toNat_zero, run_zero] at hrun
  exact ⟨congrArg State.count hrun, congrArg State.last hrun, congrArg State.best hrun⟩

/-- The figures of a log that starts today or before, in terms of its forgiven misses. -/
theorem recomputedStreakState_of_forgiven {first : Date} {G : Finset Date}
    (hfirst : FirstLogged db k first) (htoday : first ≤ c.today)
    (hG : (graceRule g).Forgiven (dayMark db k c.today) first (c.today + 1) G) :
    (recomputedStreakState db k c g).currentStreak =
        countSince (dayMark db k c.today) G first (c.today + 1) ∧
      (∀ d, (recomputedStreakState db k c g).lastGraceUsedDate = some d ↔
        IsGreatest (G : Set Date) d) ∧
      (recomputedStreakState db k c g).personalRecord =
        max (previousRecord (db.streakState.lookup k))
          ((Finset.Icc first c.today).sup fun d =>
            countSince (dayMark db k c.today) G first (d + 1)) := by
  have hrun := replay_eq_run db k first c.today g
    (previousRecord (db.streakState.lookup k))
    fun d hd => Option.not_isSome_iff_eq_none.mp fun hsome =>
      absurd (hfirst.2 d hsome) (not_le.mpr hd)
  have hagrees := fun n hn => run_agrees hG
    (s := ⟨0, previousRecord (db.streakState.lookup k), none⟩) rfl rfl n hn
  have hend : first + ((c.today + 1 - first).toNat : ℤ) = c.today + 1 := by lia
  obtain ⟨hcount, hlast⟩ := hagrees (c.today + 1 - first).toNat hend.le
  rw [← hrun, hend] at hcount hlast
  refine ⟨hcount, fun d => ?_, ?_⟩
  · have hset : {x | x ∈ G ∧ x < c.today + 1} = (G : Set Date) := by
      ext x
      exact ⟨fun hx => hx.1, fun hx => ⟨hx, (Finset.mem_Ico.mp ((hG x).mp hx).1).2⟩⟩
    rw [← hset]
    exact hlast d
  · have hbest : (run (graceRule g) (dayMark db k c.today) first
        ⟨0, previousRecord (db.streakState.lookup k), none⟩ (c.today + 1 - first).toNat).best = _ :=
      best_run rfl (c.today + 1 - first).toNat
    rw [← hrun, sup_count_range fun n hn => (hagrees n (by lia)).count] at hbest
    exact hbest

end Figures

/-- **The streak replay computes its declared rule.**  From the first logged day on there is
exactly one set of forgiven misses.  The count is the number of passes after the last miss that is
not forgiven, the last grace date is the latest forgiven miss, and the personal record is the
larger of the previous one and the largest such count at the end of a day.  With nothing logged up
to `today` the row says zero, no date and the previous record. -/
theorem replay_computes_rule (db : Database) (streakId : ℕ) (clock : Clock) (grace : Bool) :
    (∀ first, FirstLogged db streakId first →
      ∃ G, (ForgivenMisses db streakId clock.today grace first G ∧
          ∀ G', ForgivenMisses db streakId clock.today grace first G' → G' = G) ∧
        (recomputedStreakState db streakId clock grace).currentStreak =
          countSince (dayMark db streakId clock.today) G first (clock.today + 1) ∧
        (∀ g, (recomputedStreakState db streakId clock grace).lastGraceUsedDate = some g ↔
          IsGreatest (G : Set Date) g) ∧
        (recomputedStreakState db streakId clock grace).personalRecord =
          max (previousRecord (db.streakState.lookup streakId))
            ((Finset.Icc first clock.today).sup fun d =>
              countSince (dayMark db streakId clock.today) G first (d + 1))) ∧
    ((∀ d ≤ clock.today, entryOn db streakId d = none) →
      (recomputedStreakState db streakId clock grace).currentStreak = 0 ∧
        (recomputedStreakState db streakId clock grace).lastGraceUsedDate = none ∧
        (recomputedStreakState db streakId clock grace).personalRecord =
          previousRecord (db.streakState.lookup streakId)) := by
  refine ⟨fun first hfirst => ?_, recomputedStreakState_of_nothing_logged⟩
  obtain ⟨G, hG, hunique⟩ :=
    (graceRule grace).existsUnique_forgiven (dayMark db streakId clock.today) first
      (clock.today + 1)
  refine ⟨G, ⟨forgivenMisses_iff.mpr hG, fun G' hG' => hunique G' (forgivenMisses_iff.mp hG')⟩, ?_⟩
  by_cases htoday : first ≤ clock.today
  · exact recomputedStreakState_of_forgiven hfirst htoday hG
  · -- the log starts after today
    have hnone : ∀ d ≤ clock.today, entryOn db streakId d = none := fun d hd =>
      Option.not_isSome_iff_eq_none.mp fun hsome => htoday ((hfirst.2 d hsome).trans hd)
    obtain ⟨hcurrent, hlast, hrecord⟩ :=
      recomputedStreakState_of_nothing_logged (g := grace) hnone
    have hempty : Finset.Icc first clock.today = ∅ := Finset.Icc_eq_empty htoday
    rw [hcurrent, hlast, hrecord, hempty, Finset.sup_empty,
      countSince_of_le (Int.add_one_le_iff.mpr (not_le.mp htoday))]
    refine ⟨rfl, fun g => ?_, (Nat.max_zero _).symm⟩
    constructor
    · intro h
      cases h
    · intro h
      have hspan := Finset.mem_Ico.mp ((hG g).mp h.1).1
      exact absurd (hspan.1.trans (Order.lt_add_one_iff.mp hspan.2)) htoday

/-- Seven passes, from 2026-01-06 on. -/
def weekOfPasses : Database :=
  { habitLog := (List.range 7).foldl
      (fun log i => log.put (739622 + i, 1) (some { passed := true })) ∅ }

theorem firstLogged_weekOfPasses : FirstLogged weekOfPasses 1 739622 := by
  have hlogged : ∀ d ∈ (loggedDays weekOfPasses 1).map Prod.fst, 739622 ≤ d := by decide
  exact ⟨by decide, fun d hd => hlogged d (mem_keys_loggedDays.mpr hd)⟩

/-- The day after the seventh pass is missed and forgiven, and the count stands the day after. -/
theorem replay_computes_rule_weekOfPasses :
    (∃ G, ForgivenMisses weekOfPasses 1 739630 true 739622 G ∧
      IsGreatest (G : Set Date) 739629 ∧
      countSince (dayMark weekOfPasses 1 739630) G 739622 739631 = 7) ∧
      (recomputedStreakState weekOfPasses 1 ⟨739621, 0⟩ true).currentStreak = 0 := by
  have hbefore : ∀ d ≤ (739621 : Date), entryOn weekOfPasses 1 d = none := fun d hd =>
    Option.not_isSome_iff_eq_none.mp fun hsome =>
      absurd ((firstLogged_weekOfPasses.2 d hsome).trans hd) (by decide)
  obtain ⟨G, ⟨hG, -⟩, hcurrent, hgrace, -⟩ :=
    (replay_computes_rule weekOfPasses 1 ⟨739630, 0⟩ true).1 739622 firstLogged_weekOfPasses
  refine ⟨⟨G, hG, (hgrace 739629).mp (by decide), ?_⟩,
    ((replay_computes_rule weekOfPasses 1 ⟨739621, 0⟩ true).2 hbefore).1⟩
  exact hcurrent.symm.trans (by decide)

end EpsCloud

import EpsCloud.Recompute.Streak

/-!
# A replay on a later day

A replay gives today the benefit of the doubt: a day without an entry counts as
missed only once it is over.  So when days go by and nothing is recorded, the
replay of the same log turns the days that were left without an entry, from the
day of the earlier replay on, into misses.

* `replay_succ`: one day later.
* `replay_later`: any number of days later, the replay is the earlier one after the
  days missed since.
* `current_afterMisses_eq_iff`: misses leave the count exactly when it is zero, or
  grace absorbs all of them.
-/

namespace EpsCloud

/-! ## Misses -/

/-- A missed day: grace absorbs it or the count starts over. -/
def miss (graceEnabled : Bool) (acc : Replay) (day : Date) : Replay :=
  if canForgive graceEnabled acc day then { acc with lastGrace := some day }
  else { acc with current := 0 }

/-- The replay after missed days. -/
def afterMisses (graceEnabled : Bool) (acc : Replay) (days : List Date) : Replay :=
  days.foldl (miss graceEnabled) acc

/-- Grace absorbs every one of the days: it is on, the streak is long enough to spend it, and
the days are far enough apart, and from the last forgiven one. -/
def Absorbed (graceEnabled : Bool) (current : ℕ) (lastGrace : Option Date) (days : List Date) :
    Prop :=
  days = [] ∨ (graceEnabled = true ∧ graceMinStreak ≤ current ∧
    (lastGrace.toList ++ days).IsChain fun a b => graceCooldownDays ≤ b - a)

theorem current_afterMisses_of_zero (graceEnabled : Bool) {acc : Replay} (h : acc.current = 0)
    (days : List Date) : (afterMisses graceEnabled acc days).current = 0 := by
  induction days generalizing acc with
  | nil => exact h
  | cons day days ih =>
    refine ih ?_
    rw [miss]
    split_ifs
    · exact h
    · rfl

theorem absorbed_cons_iff {graceEnabled : Bool} {acc : Replay} {day : Date} {days : List Date} :
    Absorbed graceEnabled acc.current acc.lastGrace (day :: days) ↔
      canForgive graceEnabled acc day ∧
        Absorbed graceEnabled acc.current (some day) days := by
  have hchain : (acc.lastGrace.toList ++ day :: days).IsChain
      (fun a b => graceCooldownDays ≤ b - a) ↔
      cooledDown acc.lastGrace day ∧
        (day :: days).IsChain fun a b => graceCooldownDays ≤ b - a := by
    cases hg : acc.lastGrace with
    | none => simp [cooledDown]
    | some g => simp [cooledDown, List.isChain_cons_cons]
  rw [Absorbed, Absorbed, canForgive, hchain]
  simp only [reduceCtorEq, false_or, Option.toList_some, List.singleton_append]
  constructor
  · rintro ⟨hon, hlong, hcool, hrest⟩
    exact ⟨⟨hon, hlong, hcool⟩, Or.inr ⟨hon, hlong, hrest⟩⟩
  · rintro ⟨⟨hon, hlong, hcool⟩, rfl | ⟨-, -, hrest⟩⟩
    · exact ⟨hon, hlong, hcool, List.isChain_singleton _⟩
    · exact ⟨hon, hlong, hcool, hrest⟩

/-- **When misses leave the count.** -/
theorem current_afterMisses_eq_iff (graceEnabled : Bool) (acc : Replay) (days : List Date) :
    (afterMisses graceEnabled acc days).current = acc.current ↔
      acc.current = 0 ∨ Absorbed graceEnabled acc.current acc.lastGrace days := by
  by_cases hzero : acc.current = 0
  · rw [current_afterMisses_of_zero graceEnabled hzero, hzero]
    simp
  · rw [or_iff_right hzero]
    induction days generalizing acc with
    | nil => exact ⟨fun _ => Or.inl rfl, fun _ => rfl⟩
    | cons day days ih =>
      rw [absorbed_cons_iff, afterMisses, List.foldl_cons, miss]
      by_cases hf : canForgive graceEnabled acc day
      · rw [if_pos hf, and_iff_right hf]
        exact ih { acc with lastGrace := some day } hzero
      · rw [if_neg hf]
        have hreset : (afterMisses graceEnabled { acc with current := 0 } days).current = 0 :=
          current_afterMisses_of_zero graceEnabled rfl days
        rw [afterMisses] at hreset
        rw [hreset]
        exact ⟨fun h => absurd h.symm hzero, fun h => absurd h.1 hf⟩

/-! ## The loop, one day longer -/

section Loop

variable {logged : Date → Option Bool} {bad : List Date} {today today' : Date} {grace : Bool}

theorem replayFrom_concat (n : ℕ) (day : Date) (acc : Replay) :
    replayFrom logged bad today grace (n + 1) day acc =
      replayDay logged bad today grace (replayFrom logged bad today grace n day acc) (day + n) := by
  induction n generalizing day acc with
  | zero =>
    rw [replayFrom, replayFrom, replayFrom, Nat.cast_zero, add_zero]
  | succ n ih =>
    rw [replayFrom, ih, replayFrom]
    congr 1
    push_cast
    ring

/-- Only the turn of today knows which day is today. -/
theorem replayDay_of_ne {day t : Date} (h : day ≠ today) (h' : day ≠ t) (acc : Replay) :
    replayDay logged bad today grace acc day = replayDay logged bad t grace acc day := by
  simp only [replayDay, h, h', false_or]

theorem replayFrom_of_lt {n : ℕ} {day : Date} (h : day + n ≤ today) (h' : day + n ≤ today')
    (acc : Replay) :
    replayFrom logged bad today grace n day acc = replayFrom logged bad today' grace n day acc := by
  induction n generalizing day acc with
  | zero => rfl
  | succ n ih =>
    push_cast at h h'
    rw [replayFrom, replayFrom, replayDay_of_ne (t := today') (by lia) (by lia)]
    exact ih (by lia) (by lia) _

/-- A day that is over and has no entry is a miss, unless it was a bad day. -/
theorem replayDay_over {day : Date} (hday : day ≠ today) (acc : Replay) :
    replayDay logged bad today grace acc day =
      if logged day = none ∧ day ∉ bad then miss grace acc day
      else replayDay logged bad day grace acc day := by
  rw [replayDay, replayDay, miss]
  cases hlog : logged day with
  | some b => cases b <;> simp
  | none =>
    by_cases hbad : day ∈ bad
    · simp [hbad]
    · simp [hday, hbad]

end Loop

/-! ## The replay, days later -/

/-- The days from `first` up to, but not including, `today` that have no entry and were no bad
days. -/
def missedDays (logged : Date → Option Bool) (bad : List Date) (first today : Date) : List Date :=
  ((List.range (today - first).toNat).map fun i : ℕ => first + i).filter fun d =>
    logged d = none ∧ d ∉ bad

theorem missedDays_self (logged : Date → Option Bool) (bad : List Date) (today : Date) :
    missedDays logged bad today today = [] := by
  rw [missedDays, sub_self]
  rfl

theorem missedDays_succ (logged : Date → Option Bool) (bad : List Date) {first today : Date}
    (h : first ≤ today) :
    missedDays logged bad first (today + 1) = missedDays logged bad first today ++
      if logged today = none ∧ today ∉ bad then [today] else [] := by
  have hlen : (today + 1 - first).toNat = (today - first).toNat + 1 := by lia
  have hlast : first + (((today - first).toNat : ℕ) : ℤ) = today := by lia
  rw [missedDays, missedDays, hlen, List.range_succ, List.map_append, List.filter_append,
    List.map_singleton, hlast]
  congr 1
  split_ifs with hmissed
  · exact List.filter_cons_of_pos (by simpa using hmissed)
  · exact List.filter_cons_of_neg (by simpa using hmissed)

section Later

variable {entries : List (Date × Bool)} {bad : List Date} {grace : Bool} {record : ℕ}

theorem firstDay_of_ne_nil (h : entries ≠ []) (today today' : Date) :
    firstDay entries today = firstDay entries today' := by
  obtain ⟨first, hfirst⟩ := Option.isSome_iff_exists.mp
    (List.isSome_min?_of_ne_nil (l := entries.map Prod.fst) (by simpa using h))
  rw [firstDay, firstDay, hfirst]
  rfl

theorem firstDay_le {d : Date} {b : Bool} (h : (d, b) ∈ entries) (today : Date) :
    firstDay entries today ≤ d := by
  have hmem : d ∈ entries.map Prod.fst := List.mem_map.mpr ⟨(d, b), h, rfl⟩
  cases hmin : (entries.map Prod.fst).min? with
  | none =>
    rw [List.min?_eq_none_iff] at hmin
    rw [hmin] at hmem
    exact absurd hmem List.not_mem_nil
  | some first =>
    rw [firstDay, hmin]
    exact (List.min?_eq_some_iff.mp hmin).2 d hmem

/-- An empty log counts nothing. -/
theorem current_replay_nil (today : Date) : (replay [] bad today grace record).current = 0 := by
  have hlen : (today + 1 - today).toNat = 1 := by lia
  rw [replay, firstDay, List.map_nil, List.min?_nil, Option.getD_none, hlen, replayFrom, replayFrom,
    replayDay]
  simp

/-- **One day later.**  If the log has started and has no entry for tomorrow, tomorrow's replay
is today's after today is over. -/
theorem replay_succ (hne : entries ≠ []) {today : Date} (hfirst : firstDay entries today ≤ today)
    (hnext : entries.lookup (today + 1) = none) :
    replay entries bad (today + 1) grace record =
      if entries.lookup today = none ∧ today ∉ bad then
        miss grace (replay entries bad today grace record) today
      else replay entries bad today grace record := by
  have hday := firstDay_of_ne_nil hne (today + 1) today
  obtain ⟨n, hn⟩ : ∃ n : ℕ, today = firstDay entries today + n :=
    ⟨(today - firstDay entries today).toNat, by lia⟩
  have hlen : (today + 1 - firstDay entries today).toNat = n + 1 := by lia
  have hlen' : (today + 1 + 1 - firstDay entries today).toNat = n + 2 := by lia
  have hfirstDays : replayFrom (fun d => entries.lookup d) bad (today + 1) grace n
      (firstDay entries today) ⟨0, record, none⟩ =
      replayFrom (fun d => entries.lookup d) bad today grace n
        (firstDay entries today) ⟨0, record, none⟩ := replayFrom_of_lt (by lia) (by lia) _
  rw [replay, replay, hday, hlen, hlen', replayFrom_concat, replayFrom_concat, replayFrom_concat,
    hfirstDays]
  have hlast : firstDay entries today + ((n + 1 : ℕ) : ℤ) = today + 1 := by
    push_cast
    lia
  rw [hlast, ← hn]
  generalize replayFrom (fun d => entries.lookup d) bad today grace n (firstDay entries today)
    ⟨0, record, none⟩ = acc
  -- tomorrow has no entry, and is not over
  have htomorrow : ∀ acc : Replay, replayDay (fun d => entries.lookup d) bad (today + 1) grace acc
      (today + 1) = acc := fun acc => by
    rw [replayDay, if_neg (by simp [hnext]), if_pos ⟨hnext, Or.inl rfl⟩]
  rw [htomorrow, replayDay_over (by lia)]
  split_ifs with hmissed
  · rw [replayDay, if_neg (by simp [hmissed.1]), if_pos ⟨hmissed.1, Or.inl rfl⟩]
  · rfl

/-- **Any number of days later.** -/
theorem replay_later (hne : entries ≠ []) {first today : Date} (hle : first ≤ today)
    (hentries : ∀ e ∈ entries, e.1 ≤ first) :
    replay entries bad today grace record =
      afterMisses grace (replay entries bad first grace record)
        (missedDays (fun d => entries.lookup d) bad first today) := by
  obtain ⟨n, rfl⟩ : ∃ n : ℕ, today = first + n := ⟨(today - first).toNat, by lia⟩
  induction n with
  | zero =>
    rw [Nat.cast_zero, add_zero, missedDays_self]
    rfl
  | succ n ih =>
    have hle' : first ≤ first + (n : ℤ) := by lia
    have hnext : entries.lookup (first + (n : ℤ) + 1) = none := by
      refine Option.not_isSome_iff_eq_none.mp fun hsome => ?_
      obtain ⟨e, he, heq⟩ := List.mem_map.mp (mem_keys_iff_lookup_isSome.mpr hsome)
      have := hentries e he
      lia
    obtain ⟨⟨d, b⟩, he⟩ := List.exists_mem_of_ne_nil entries hne
    have hfirst : firstDay entries (first + (n : ℤ)) ≤ first + (n : ℤ) :=
      le_trans (firstDay_le he _) (le_trans (hentries _ he) hle')
    rw [Nat.cast_succ, ← add_assoc, replay_succ hne hfirst hnext, missedDays_succ _ _ hle', ih hle']
    split_ifs
    · rw [afterMisses, afterMisses, List.foldl_concat]
    · rw [List.append_nil]

end Later

end EpsCloud

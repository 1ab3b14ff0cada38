import EpsCloud.Schema.Tables

/-!
# Rebuilding a streak's state row

`app.recompute.recompute_streak_state`: the whole log of one streak is replayed,
one day at a time, and the state row is overwritten with what comes out.

* `replayDay` is the body of the loop, `replayFrom` the loop, and `replay` the
  computation from the two queries to the final figures.
* `replay_congr`: the figures depend on the log only through the entry of each
  day and on the bad days only through which days they are, not on the order in
  which the rows are returned.
* `replay_current`, `replay_lastGrace`: the count and the last grace date do not
  depend on the record that the replay starts from.
-/

namespace EpsCloud

/-- A streak has to reach this length before a missed day can be forgiven. -/
def graceMinStreak : ℕ := 7

/-- Once a miss has been forgiven, this many days must pass before another one is. -/
def graceCooldownDays : ℤ := 7

/-- The loop variables of the replay. -/
structure Replay where
  current : ℕ
  record : ℕ
  lastGrace : Option Date
  deriving DecidableEq, Repr

/-- `last_grace is None or (day - last_grace).days >= GRACE_COOLDOWN_DAYS`. -/
def cooledDown (lastGrace : Option Date) (day : Date) : Prop :=
  ∀ g ∈ lastGrace, graceCooldownDays ≤ day - g

instance (lastGrace : Option Date) (day : Date) : Decidable (cooledDown lastGrace day) :=
  inferInstanceAs (Decidable (∀ g ∈ lastGrace, _))

/-- Whether grace absorbs a miss on `day`. -/
def canForgive (graceEnabled : Bool) (acc : Replay) (day : Date) : Prop :=
  graceEnabled = true ∧ graceMinStreak ≤ acc.current ∧ cooledDown acc.lastGrace day

instance (graceEnabled : Bool) (acc : Replay) (day : Date) :
    Decidable (canForgive graceEnabled acc day) :=
  inferInstanceAs (Decidable (_ ∧ _))

section Loop

variable (logged : Date → Option Bool) (badDays : List Date) (today : Date) (graceEnabled : Bool)

/-- One day of the replay: the body of the `while` loop. -/
def replayDay (acc : Replay) (day : Date) : Replay :=
  let passed := logged day
  if passed = some true then
    { acc with current := acc.current + 1, record := max acc.record (acc.current + 1) }
  else if passed = none ∧ (day = today ∨ day ∈ badDays) then acc
  else if canForgive graceEnabled acc day then { acc with lastGrace := some day }
  else { acc with current := 0 }

/-- The `while` loop over `n` days from `day` on. -/
def replayFrom : ℕ → Date → Replay → Replay
  | 0, _, acc => acc
  | n + 1, day, acc =>
    replayFrom n (day + 1) (replayDay logged badDays today graceEnabled acc day)

end Loop

/-- `min(logged) if logged else today`. -/
def firstDay (entries : List (Date × Bool)) (today : Date) : Date :=
  ((entries.map Prod.fst).min?).getD today

/-- The replay of a log, from a record that is already there. -/
def replay (entries : List (Date × Bool)) (badDays : List Date) (today : Date)
    (graceEnabled : Bool) (record : ℕ) : Replay :=
  let day := firstDay entries today
  replayFrom (fun d => entries.lookup d) badDays today graceEnabled (today + 1 - day).toNat day
    ⟨0, record, none⟩

/-- `{row.date: row.passed for row in select(HabitLog).where(streak_id)}`. -/
def loggedDays (db : Database) (streakId : ℕ) : List (Date × Bool) :=
  db.habitLog.rows.filterMap fun e => if e.1.2 = streakId then some (e.1.1, e.2.passed) else none

/-- `select(DailyState.date).where(DailyState.bad_day.is_(True))`. -/
def badDays (db : Database) : List Date :=
  db.dailyState.rows.filterMap fun e => if e.2.badDay then some e.1 else none

/-- The record of the state row that is there, or of the row a first recompute adds. -/
def previousRecord (state : Option StreakState) : ℕ :=
  match state with
  | some state => state.personalRecord
  | none => 0

/-- The state row that a replay writes. -/
def stateOf (acc : Replay) (now : Moment) : StreakState :=
  { currentStreak := acc.current
    personalRecord := acc.record
    lastGraceUsedDate := acc.lastGrace
    lastRecomputedAt := now }

/-- `recompute_streak_state`: the state row that it returns. -/
def recomputedStreakState (db : Database) (streakId : ℕ) (clock : Clock) (graceEnabled : Bool) :
    StreakState :=
  stateOf (replay (loggedDays db streakId) (badDays db) clock.today graceEnabled
    (previousRecord (db.streakState.lookup streakId))) clock.now

/-- `recompute_streak_state`: replay every logged day for one streak and rewrite its state
row. -/
def recomputeStreakState (db : Database) (streakId : ℕ) (clock : Clock) (graceEnabled : Bool) :
    Database :=
  let state := recomputedStreakState db streakId clock graceEnabled
  { db with streakState := db.streakState.insert streakId state }

/-! ## What the queries return -/

theorem mem_loggedDays {db : Database} {streakId : ℕ} {d : Date} {b : Bool} :
    (d, b) ∈ loggedDays db streakId ↔
      (db.habitLog.lookup (d, streakId)).map HabitLog.passed = some b := by
  rw [loggedDays, List.mem_filterMap]
  constructor
  · rintro ⟨⟨⟨d', s'⟩, row⟩, hmem, heq⟩
    by_cases hs : s' = streakId
    · rw [if_pos hs, Option.some.injEq, Prod.mk.injEq] at heq
      obtain ⟨rfl, rfl⟩ := heq
      rw [← hs, Table.mem_rows.mp hmem, Option.map_some]
    · rw [if_neg hs] at heq
      exact absurd heq (by simp)
  · intro h
    obtain ⟨row, hrow, rfl⟩ := Option.map_eq_some_iff.mp h
    exact ⟨((d, streakId), row), Table.mem_rows.mpr hrow, if_pos rfl⟩

theorem mem_badDays {db : Database} {d : Date} :
    d ∈ badDays db ↔ (db.dailyState.lookup d).map DailyState.badDay = some true := by
  rw [badDays, List.mem_filterMap]
  constructor
  · rintro ⟨⟨d', row⟩, hmem, heq⟩
    by_cases hb : row.badDay = true
    · rw [if_pos hb, Option.some.injEq] at heq
      rw [← heq, Table.mem_rows.mp hmem, Option.map_some, hb]
    · rw [if_neg hb] at heq
      exact absurd heq (by simp)
  · intro h
    obtain ⟨row, hrow, hb⟩ := Option.map_eq_some_iff.mp h
    exact ⟨(d, row), Table.mem_rows.mpr hrow, if_pos hb⟩

/-- In an association list without repeated keys, the pairs are the lookups. -/
theorem lookup_eq_some_iff_mem {l : List (Date × Bool)} (hl : (l.map Prod.fst).Nodup) {d : Date}
    {b : Bool} : l.lookup d = some b ↔ (d, b) ∈ l := by
  rw [List.lookup_eq_some_iff]
  constructor
  · rintro ⟨before, after, rfl, -⟩
    exact List.mem_append_right _ List.mem_cons_self
  · intro hmem
    obtain ⟨before, after, rfl⟩ := List.append_of_mem hmem
    refine ⟨before, after, rfl, fun p hp => ?_⟩
    rw [List.map_append, List.map_cons, List.nodup_append] at hl
    have hne : p.1 ≠ d := hl.2.2 p.1 (List.mem_map_of_mem hp) d List.mem_cons_self
    exact bne_iff_ne.mpr hne.symm

theorem nodup_loggedDays (db : Database) (streakId : ℕ) :
    ((loggedDays db streakId).map Prod.fst).Nodup := by
  have hrows := (Table.nodup_keys_rows db.habitLog)
  rw [loggedDays, List.map_filterMap]
  rw [List.Nodup, List.pairwise_map] at hrows
  rw [List.Nodup, List.pairwise_filterMap]
  refine hrows.imp ?_
  rintro ⟨⟨d, s⟩, row⟩ ⟨⟨d', s'⟩, row'⟩ hne x hx y hy hxy
  by_cases hs : s = streakId
  · by_cases hs' : s' = streakId
    · simp only [hs, hs', if_true, Option.map_some, Option.some.injEq] at hx hy
      exact hne (by rw [Prod.mk.injEq, hs, hs', hx, hy]; exact ⟨hxy, rfl⟩)
    · simp [hs'] at hy
  · simp [hs] at hx

@[simp] theorem lookup_loggedDays (db : Database) (streakId : ℕ) (d : Date) :
    (loggedDays db streakId).lookup d =
      (db.habitLog.lookup (d, streakId)).map HabitLog.passed := by
  refine Option.ext fun b => ?_
  rw [lookup_eq_some_iff_mem (nodup_loggedDays db streakId), mem_loggedDays]

/-! ## What the replay depends on -/

theorem replayFrom_congr {logged logged' : Date → Option Bool} {bad bad' : List Date}
    (hlog : ∀ d, logged d = logged' d) (hbad : ∀ d, d ∈ bad ↔ d ∈ bad') (today : Date)
    (grace : Bool) (n : ℕ) (day : Date) (acc : Replay) :
    replayFrom logged bad today grace n day acc =
      replayFrom logged' bad' today grace n day acc := by
  have hday : ∀ acc day, replayDay logged bad today grace acc day =
      replayDay logged' bad' today grace acc day := by
    intro acc day
    simp only [replayDay, hlog, hbad]
  induction n generalizing day acc with
  | zero => rfl
  | succ n ih => rw [replayFrom, replayFrom, hday, ih]

/-- Two logs with the same days start on the same day. -/
theorem firstDay_congr {l l' : List (Date × Bool)} (today : Date)
    (h : ∀ d, d ∈ l.map Prod.fst ↔ d ∈ l'.map Prod.fst) : firstDay l today = firstDay l' today := by
  have hmin : (l.map Prod.fst).min? = (l'.map Prod.fst).min? := by
    refine Option.ext fun a => ?_
    rw [List.min?_eq_some_iff, List.min?_eq_some_iff]
    simp only [h]
  rw [firstDay, firstDay, hmin]

theorem mem_keys_iff_lookup_isSome {l : List (Date × Bool)} {d : Date} :
    d ∈ l.map Prod.fst ↔ (l.lookup d).isSome := by
  rw [List.lookup_isSome_iff, List.mem_map]
  constructor
  · rintro ⟨e, he, rfl⟩
    exact ⟨e, he, beq_self_eq_true _⟩
  · rintro ⟨e, he, hkey⟩
    exact ⟨e, he, (beq_iff_eq.mp hkey).symm⟩

/-- **The replay reads its log day by day.** -/
theorem replay_congr {l l' : List (Date × Bool)} {bad bad' : List Date}
    (hlog : ∀ d, l.lookup d = l'.lookup d) (hbad : ∀ d, d ∈ bad ↔ d ∈ bad') (today : Date)
    (grace : Bool) (record : ℕ) :
    replay l bad today grace record = replay l' bad' today grace record := by
  have hfirst : firstDay l today = firstDay l' today :=
    firstDay_congr today fun d => by
      rw [mem_keys_iff_lookup_isSome, mem_keys_iff_lookup_isSome, hlog]
  rw [replay, replay, hfirst]
  exact replayFrom_congr hlog hbad today grace _ _ _

theorem replayFrom_figures (logged : Date → Option Bool) (bad : List Date) (today : Date)
    (grace : Bool) (n : ℕ) (day : Date) {acc acc' : Replay} (hc : acc.current = acc'.current)
    (hg : acc.lastGrace = acc'.lastGrace) :
    (replayFrom logged bad today grace n day acc).current =
        (replayFrom logged bad today grace n day acc').current ∧
      (replayFrom logged bad today grace n day acc).lastGrace =
        (replayFrom logged bad today grace n day acc').lastGrace := by
  induction n generalizing day acc acc' with
  | zero => exact ⟨hc, hg⟩
  | succ n ih =>
    rw [replayFrom, replayFrom]
    have hforgive : canForgive grace acc day ↔ canForgive grace acc' day := by
      rw [canForgive, canForgive, hc, hg]
    apply ih
    · simp only [replayDay, hforgive, hc]
      split_ifs <;> first | rfl | exact hc
    · simp only [replayDay, hforgive, hg]
      split_ifs <;> first | rfl | exact hg

theorem replay_current (entries : List (Date × Bool)) (bad : List Date) (today : Date)
    (grace : Bool) (record record' : ℕ) :
    (replay entries bad today grace record).current =
      (replay entries bad today grace record').current := by
  rw [replay, replay]
  exact (replayFrom_figures _ _ _ _ _ _ (by rfl) (by rfl)).1

theorem replay_lastGrace (entries : List (Date × Bool)) (bad : List Date) (today : Date)
    (grace : Bool) (record record' : ℕ) :
    (replay entries bad today grace record).lastGrace =
      (replay entries bad today grace record').lastGrace := by
  rw [replay, replay]
  exact (replayFrom_figures _ _ _ _ _ _ (by rfl) (by rfl)).2

/-- The count and the last grace date that a full replay of a streak gives. -/
def replayedFigures (db : Database) (streakId : ℕ) (today : Date) (graceEnabled : Bool) :
    ℕ × Option Date :=
  let acc := replay (loggedDays db streakId) (badDays db) today graceEnabled 0
  (acc.current, acc.lastGrace)

/-- The count and the last grace date of a state row. -/
def StreakState.figures (state : StreakState) : ℕ × Option Date :=
  (state.currentStreak, state.lastGraceUsedDate)

/-- **A recompute writes the replayed figures.** -/
theorem figures_recomputedStreakState (db : Database) (streakId : ℕ) (clock : Clock)
    (graceEnabled : Bool) :
    (recomputedStreakState db streakId clock graceEnabled).figures =
      replayedFigures db streakId clock.today graceEnabled := by
  rw [StreakState.figures, replayedFigures]
  exact Prod.ext (replay_current _ _ _ _ _ _) (replay_lastGrace _ _ _ _ _ _)

/-- What is recorded for a streak on a day. -/
def entryOn (db : Database) (streakId : ℕ) (d : Date) : Option Bool :=
  (db.habitLog.lookup (d, streakId)).map HabitLog.passed

/-- The day is marked as a bad day. -/
def IsBadDay (db : Database) (d : Date) : Prop :=
  (db.dailyState.lookup d).map DailyState.badDay = some true

/-- **The figures depend on what is recorded only.** -/
theorem replayedFigures_congr {db db' : Database} {streakId : ℕ}
    (hlog : ∀ d, entryOn db streakId d = entryOn db' streakId d)
    (hbad : ∀ d, IsBadDay db d ↔ IsBadDay db' d) (today : Date) (grace : Bool) :
    replayedFigures db streakId today grace = replayedFigures db' streakId today grace := by
  have h : replay (loggedDays db streakId) (badDays db) today grace 0 =
      replay (loggedDays db' streakId) (badDays db') today grace 0 := by
    refine replay_congr (fun d => ?_) (fun d => ?_) today grace 0
    · rw [lookup_loggedDays, lookup_loggedDays]
      exact hlog d
    · rw [mem_badDays, mem_badDays]
      exact hbad d
  rw [replayedFigures, replayedFigures, h]

end EpsCloud

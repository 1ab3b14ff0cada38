import EpsCloud.Routes.Settings
import EpsCloud.Streaks.RecordedHistory
import EpsCloud.Streaks.ReplayRule

/-!
# The personal record over whole runs

The count and the last grace date of a state row are rebuilt by every recompute.
The personal record is not: a replay starts from the record of the row that is
there.  To say what it means over a run, every call of `recompute_streak_state`
is noted with the database that it reads.

* `recomputed_record`: one recompute takes the larger of the previous record and
  the longest count of its replay.
* `handleRecord_spec`: a request edits what is recorded, or the settings, and then
  recomputes some streaks one after the other.
* `personal_record_sound`: so after any run the record is the largest of the
  longest counts, whatever was corrected in between.
-/

namespace EpsCloud

open Tally

/-! ## One recompute -/

/-- The count after the first `n` days of the replay of a streak. -/
def countAfter (db : Database) (streakId : ℕ) (today : Date) (graceEnabled : Bool) (n : ℕ) : ℕ :=
  (replayFrom (fun d => (loggedDays db streakId).lookup d) (badDays db) today graceEnabled n
    (firstDay (loggedDays db streakId) today) ⟨0, 0, none⟩).current

/-- The longest unbroken count that the replay of a streak reaches. -/
def longestCount (db : Database) (streakId : ℕ) (today : Date) (graceEnabled : Bool) : ℕ :=
  (Finset.range ((today + 1 - firstDay (loggedDays db streakId) today).toNat + 1)).sup
    (countAfter db streakId today graceEnabled)

/-- The counts do not depend on the record that the replay starts from. -/
theorem countAfter_eq_count_run (db : Database) (streakId : ℕ) (today : Date) (grace : Bool)
    (record n : ℕ) :
    countAfter db streakId today grace n =
      (run (graceRule grace) (dayMark db streakId today) (firstDay (loggedDays db streakId) today)
        ⟨0, record, none⟩ n).count := by
  have hsame := (replayFrom_figures (fun d => (loggedDays db streakId).lookup d) (badDays db) today
    grace n (firstDay (loggedDays db streakId) today)
    (show (⟨0, 0, none⟩ : Replay).current = (⟨0, record, none⟩ : Replay).current from rfl) rfl).1
  rw [countAfter, hsame]
  exact congrArg State.count (replayFrom_eq_run db streakId today grace n _ _)

/-- A call of `recompute_streak_state`, with the database that it reads. -/
structure Recompute where
  db : Database
  streakId : ℕ
  clock : Clock
  graceEnabled : Bool

namespace Recompute

/-- The state row that the call writes. -/
def row (c : Recompute) : StreakState :=
  recomputedStreakState c.db c.streakId c.clock c.graceEnabled

/-- The longest count of its replay. -/
def longest (c : Recompute) : ℕ := longestCount c.db c.streakId c.clock.today c.graceEnabled

end Recompute

/-- **The record that a recompute writes** is the larger of the previous one and the longest count
of its replay. -/
theorem recomputed_record (c : Recompute) :
    c.row.personalRecord =
      max (previousRecord (c.db.streakState.lookup c.streakId)) c.longest := by
  have hrun : c.row.personalRecord = (run (graceRule c.graceEnabled)
      (dayMark c.db c.streakId c.clock.today)
      (firstDay (loggedDays c.db c.streakId) c.clock.today)
      ⟨0, previousRecord (c.db.streakState.lookup c.streakId), none⟩
      (c.clock.today + 1 - firstDay (loggedDays c.db c.streakId) c.clock.today).toNat).best :=
    congrArg State.best (replayFrom_eq_run c.db c.streakId c.clock.today c.graceEnabled _ _ _)
  rw [hrun, best_run rfl, Recompute.longest, longestCount]
  congr 1
  exact Finset.sup_congr rfl fun n _ => (countAfter_eq_count_run _ _ _ _ _ n).symm

/-- The count that a recompute writes is one of those that its replay reaches. -/
theorem recomputed_current_le (c : Recompute) : c.row.currentStreak ≤ c.longest := by
  have hcurrent : c.row.currentStreak = countAfter c.db c.streakId c.clock.today c.graceEnabled
      (c.clock.today + 1 - firstDay (loggedDays c.db c.streakId) c.clock.today).toNat :=
    replay_current _ _ _ _ _ 0
  rw [hcurrent]
  exact Finset.le_sup (f := countAfter _ _ _ _) (Finset.self_mem_range_succ _)

/-! ## The calls of a run -/

/-- A request that changes what a streak's replay reads, or its rule. -/
inductive RecordRequest where
  | markHabit (clock : Clock) (date : String) (streakId : ℕ) (mark : String)
  | toggleBadDay (clock : Clock) (date : String)
  | toggleGrace

/-- The database after a request. -/
def handleRecord (db : Database) : RecordRequest → Database
  | .markHabit clock date streakId mark => afterRequest db (markHabit clock date streakId mark db)
  | .toggleBadDay clock date => afterRequest db (toggleBadDay clock date db)
  | .toggleGrace => toggleGrace db

/-- The calls of the loop over the active streaks. -/
def loopCalls (clock : Clock) (grace : Bool) : List ℕ → Database → List Recompute
  | [], _ => []
  | id :: ids, db =>
    ⟨db, id, clock, grace⟩ :: loopCalls clock grace ids (recomputeStreakState db id clock grace)

/-- What `mark_habit` checks, with the day and the mark that it goes on with. -/
def checkedMark (db : Database) (date : String) (streakId : ℕ) (mark : String) :
    Except Failure (Date × Bool) := do
  let day ← parseDate date
  let passed ← parseMark mark
  let _ ← foundOr404 (db.getStreak streakId)
  return (day, passed)

/-- The calls of `recompute_streak_state` that a request makes. -/
def recordCalls (db : Database) : RecordRequest → List Recompute
  | .markHabit clock date streakId mark =>
    match checkedMark db date streakId mark with
    | .ok (day, passed) =>
      [⟨habitEdited clock day streakId passed db, streakId, clock, graceEnabled db⟩]
    | .error _ => []
  | .toggleBadDay clock date =>
    match parseDate date with
    | .ok day => loopCalls clock (graceEnabled db) db.activeStreakIds (badDayEdited clock day db)
    | .error _ => []
  | .toggleGrace => []

theorem markHabit_of_checked {db : Database} {date mark : String} {streakId : ℕ} {day : Date}
    {passed : Bool} (h : checkedMark db date streakId mark = .ok (day, passed)) (clock : Clock) :
    markHabit clock date streakId mark db =
      .ok (recomputeStreakState (habitEdited clock day streakId passed db) streakId clock
        (graceEnabled db)) := by
  simp only [checkedMark, bind_eq_ok, pure, Except.pure, Except.ok.injEq, Prod.mk.injEq,
    parseDate_eq_ok, foundOr404_eq_ok] at h
  obtain ⟨day, hday, passed, hmark, streak, hstreak, rfl, rfl⟩ := h
  exact markHabit_eq_ok.mpr ⟨day, passed, hday, hmark, ⟨streak, hstreak⟩, rfl⟩

theorem markHabit_of_refused {db : Database} {date mark : String} {streakId : ℕ} {e : Failure}
    (h : checkedMark db date streakId mark = .error e) (clock : Clock) :
    afterRequest db (markHabit clock date streakId mark db) = db := by
  cases hok : markHabit clock date streakId mark db with
  | error e => rfl
  | ok db' =>
    obtain ⟨day, passed, hday, hmark, ⟨streak, hstreak⟩, -⟩ := markHabit_eq_ok.mp hok
    have hchecked : checkedMark db date streakId mark = .ok (day, passed) := by
      simp only [checkedMark, bind_eq_ok, pure, Except.pure, Except.ok.injEq, Prod.mk.injEq,
        parseDate_eq_ok, foundOr404_eq_ok]
      exact ⟨day, hday, passed, hmark, streak, hstreak, rfl, rfl⟩
    rw [h] at hchecked
    cases hchecked

/-- **What a request does** to the state rows: it edits other tables and then recomputes some
streaks, and the calls that are noted are those. -/
theorem handleRecord_spec (db : Database) (req : RecordRequest) :
    ∃ edited clock grace ids, edited.streakState = db.streakState ∧
      handleRecord db req = recomputeStreaks clock grace ids edited ∧
      recordCalls db req = loopCalls clock grace ids edited := by
  have hnothing : ∀ req, handleRecord db req = db → recordCalls db req = [] →
      ∃ edited clock grace ids, edited.streakState = db.streakState ∧
        handleRecord db req = recomputeStreaks clock grace ids edited ∧
        recordCalls db req = loopCalls clock grace ids edited := fun req hdb hcalls =>
    ⟨db, ⟨0, 0⟩, true, [], rfl, hdb, hcalls⟩
  cases req with
  | markHabit clock date streakId mark =>
    cases h : checkedMark db date streakId mark with
    | ok edit =>
      refine ⟨habitEdited clock edit.1 streakId edit.2 db, clock, graceEnabled db, [streakId],
        rfl, ?_, ?_⟩
      · rw [handleRecord, markHabit_of_checked h]
        rfl
      · rw [recordCalls, h]
        rfl
    | error e =>
      refine hnothing _ (markHabit_of_refused h clock) ?_
      rw [recordCalls, h]
  | toggleBadDay clock date =>
    cases h : parseDate date with
    | ok day =>
      refine ⟨badDayEdited clock day db, clock, graceEnabled db, db.activeStreakIds, rfl, ?_, ?_⟩
      · rw [handleRecord, toggleBadDay_eq_ok.mpr ⟨day, parseDate_eq_ok.mp h, rfl⟩]
        rfl
      · rw [recordCalls, h]
    | error e =>
      refine hnothing _ ?_ ?_
      · rw [handleRecord, toggleBadDay, h]
        rfl
      · rw [recordCalls, h]
  | toggleGrace =>
    exact ⟨toggleGrace db, ⟨0, 0⟩, true, [], rfl, rfl, rfl⟩

/-- A run so far: the database, and the calls of `recompute_streak_state`, the latest last. -/
structure Observed where
  db : Database
  calls : List Recompute

/-- A request, observed. -/
def Observed.after (s : Observed) (req : RecordRequest) : Observed :=
  ⟨handleRecord s.db req, s.calls ++ recordCalls s.db req⟩

/-- The calls for one streak. -/
def callsFor (streakId : ℕ) (calls : List Recompute) : List Recompute :=
  calls.filter fun c => c.streakId = streakId

/-! ## What the record means -/

/-- What a state row and the calls that wrote it say: the row is the one that the last call wrote,
no call wrote a count above the record, the records never went down, and the record of the row is
the largest of the longest counts of all calls. -/
structure RecordSound (row : Option StreakState) (calls : List Recompute) : Prop where
  row_eq : row = calls.getLast?.map Recompute.row
  bounded : ∀ c ∈ calls, 0 ≤ c.row.currentStreak ∧ c.row.currentStreak ≤ c.row.personalRecord
  ascending : (calls.map fun c => c.row.personalRecord).Pairwise (· ≤ ·)
  greatest : ∀ state ∈ row,
    IsGreatest {n | ∃ c ∈ calls, c.longest = n} state.personalRecord

namespace RecordSound

variable {row : Option StreakState} {calls : List Recompute}

theorem nil : RecordSound none [] :=
  ⟨rfl, by simp, List.Pairwise.nil, by simp⟩

/-- No call has left a longer count than the record. -/
theorem longest_le (h : RecordSound row calls) {c : Recompute} (hc : c ∈ calls) :
    c.longest ≤ previousRecord row := by
  cases row with
  | none =>
    have hnil : calls = [] := by
      have hlast := h.row_eq.symm
      rwa [Option.map_eq_none_iff, List.getLast?_eq_none_iff] at hlast
    rw [hnil] at hc
    exact absurd hc List.not_mem_nil
  | some state => exact (h.greatest state rfl).2 ⟨c, hc, rfl⟩

/-- No call has left a larger record than the one that is stored. -/
theorem record_le (h : RecordSound row calls) {c : Recompute} (hc : c ∈ calls) :
    c.row.personalRecord ≤ previousRecord row := by
  rcases List.eq_nil_or_concat calls with hnil | ⟨before, last, hlast⟩
  · rw [hnil] at hc
    exact absurd hc List.not_mem_nil
  · rw [List.concat_eq_append] at hlast
    rw [hlast] at hc
    have hrow : row = some last.row := by
      rw [h.row_eq, hlast, List.getLast?_concat, Option.map_some]
    have hasc := h.ascending
    rw [hlast, List.map_append, List.pairwise_append] at hasc
    rw [hrow]
    rcases List.mem_append.mp hc with hbefore | hlast
    · exact hasc.2.2 _ (List.mem_map_of_mem hbefore) _ (by simp [previousRecord])
    · rw [List.mem_singleton.mp hlast]
      exact le_rfl

/-- **One more call for the streak.** -/
theorem concat (h : RecordSound row calls) {c : Recompute}
    (hread : c.db.streakState.lookup c.streakId = row) :
    RecordSound (some c.row) (calls ++ [c]) := by
  have hrecord := recomputed_record c
  rw [hread] at hrecord
  refine ⟨?_, fun c' hc' => ?_, ?_, fun state hstate => ?_⟩
  · rw [List.getLast?_concat, Option.map_some]
  · rcases List.mem_append.mp hc' with hold | hnew
    · exact h.bounded c' hold
    · rw [List.mem_singleton.mp hnew]
      refine ⟨Nat.zero_le _, (recomputed_current_le c).trans ?_⟩
      rw [hrecord]
      exact le_max_right _ _
  · rw [List.map_append, List.pairwise_append]
    refine ⟨h.ascending, List.pairwise_singleton _ _, fun n hn m hm => ?_⟩
    obtain ⟨c', hc', rfl⟩ := List.mem_map.mp hn
    rw [List.mem_singleton.mp hm]
    exact (h.record_le hc').trans (le_of_le_of_eq (le_max_left _ _) hrecord.symm)
  · cases hstate
    rw [hrecord]
    constructor
    · by_cases hle : previousRecord row ≤ c.longest
      · exact ⟨c, List.mem_append_right _ (List.mem_singleton_self c), (max_eq_right hle).symm⟩
      · -- the old record stays, and it is the longest count of an earlier call
        rw [max_eq_left (not_le.mp hle).le]
        cases row with
        | none => exact absurd (Nat.zero_le _) hle
        | some state =>
          obtain ⟨c', hc', hlongest⟩ := (h.greatest state rfl).1
          exact ⟨c', List.mem_append_left _ hc', hlongest⟩
    · rintro n ⟨c', hc', rfl⟩
      rcases List.mem_append.mp hc' with hold | hnew
      · exact (h.longest_le hold).trans (le_max_left _ _)
      · rw [List.mem_singleton.mp hnew]
        exact le_max_right _ _

end RecordSound

/-- One call of `recompute_streak_state`, for this streak or another one. -/
theorem recordSound_recompute {db : Database} {calls : List Recompute} {k : ℕ}
    (h : RecordSound (db.streakState.lookup k) (callsFor k calls)) (id : ℕ)
    (clock : Clock) (grace : Bool) :
    RecordSound ((recomputeStreakState db id clock grace).streakState.lookup k)
      (callsFor k (calls ++ [⟨db, id, clock, grace⟩])) := by
  rw [recomputeStreakState]
  by_cases hk : id = k
  · subst hk
    have hcalls : callsFor id (calls ++ [⟨db, id, clock, grace⟩]) =
        callsFor id calls ++ [⟨db, id, clock, grace⟩] := by
      simp [callsFor]
    rw [AList.lookup_insert, hcalls]
    exact h.concat (c := ⟨db, id, clock, grace⟩) rfl
  · have hcalls : callsFor k (calls ++ [⟨db, id, clock, grace⟩]) = callsFor k calls := by
      simp [callsFor, hk]
    rw [AList.lookup_insert_ne fun heq => hk heq.symm, hcalls]
    exact h

/-- The loop over the active streaks. -/
theorem recordSound_recomputeStreaks {k : ℕ} (clock : Clock) (grace : Bool) (ids : List ℕ)
    {db : Database} {calls : List Recompute}
    (h : RecordSound (db.streakState.lookup k) (callsFor k calls)) :
    RecordSound ((recomputeStreaks clock grace ids db).streakState.lookup k)
      (callsFor k (calls ++ loopCalls clock grace ids db)) := by
  induction ids generalizing db calls with
  | nil =>
    rw [loopCalls, List.append_nil]
    exact h
  | cons id ids ih =>
    rw [loopCalls, List.append_cons]
    exact ih (recordSound_recompute h id clock grace)

/-- One request keeps the record sound. -/
theorem recordSound_after {s : Observed} {k : ℕ}
    (h : RecordSound (s.db.streakState.lookup k) (callsFor k s.calls)) (req : RecordRequest) :
    RecordSound ((s.after req).db.streakState.lookup k) (callsFor k (s.after req).calls) := by
  obtain ⟨edited, clock, grace, ids, hedited, hdb, hcalls⟩ := handleRecord_spec s.db req
  rw [Observed.after, hdb, hcalls]
  rw [← hedited] at h
  exact recordSound_recomputeStreaks clock grace ids h

/-- **The personal record is sound over whole runs.**  From a database without a state row of the
streak, and after any sequence of habit marks, bad-day flips and grace toggles on any days: the row
is the one that the last recompute of the streak wrote, its count does not exceed its record, the
record went down at no recompute, and it is the largest of the longest unbroken counts that the
replays of all those recomputes reached. -/
theorem personal_record_sound (db : Database) (streakId : ℕ)
    (hnew : db.streakState.lookup streakId = none) (reqs : List RecordRequest) :
    let s := reqs.foldl Observed.after ⟨db, []⟩
    RecordSound (s.db.streakState.lookup streakId) (callsFor streakId s.calls) := by
  refine Runs.foldl_invariant (C := fun _ _ => True)
    (I := fun s : Observed =>
      RecordSound (s.db.streakState.lookup streakId) (callsFor streakId s.calls))
    (fun s req h _ => recordSound_after h req) ?_ fun _ _ => trivial
  rw [hnew]
  exact RecordSound.nil

/-- A pass, taken back, with grace switched off in between. -/
theorem personal_record_sound_oneStreak :
    let s := [RecordRequest.markHabit ⟨739623, 0⟩ "2026-01-05" 1 "pass", .toggleGrace,
      .toggleBadDay ⟨739624, 1⟩ "2026-01-04",
      .markHabit ⟨739624, 2⟩ "2026-01-05" 1 "pass"].foldl Observed.after ⟨oneStreak, []⟩
    RecordSound (s.db.streakState.lookup 1) (callsFor 1 s.calls) :=
  personal_record_sound oneStreak 1 rfl _

end EpsCloud

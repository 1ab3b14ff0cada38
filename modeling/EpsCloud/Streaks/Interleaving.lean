import EpsCloud.Library.ReadCommitted
import EpsCloud.Streaks.RecordedHistory

/-!
# Two edits of one streak at the same time

`gunicorn` serves requests from several threads and several replicas, each in a
transaction of its own, and no isolation level is set, so they run under
READ COMMITTED.  Here `mark_habit` and `toggle_bad_day` are the statements that
they send, in the order they send them.  Each one writes its event row, reads the
whole log, and then overwrites the state row with what it replayed.

The unit of work sends an `INSERT` for a row that it did not find, and for one that
it found an `UPDATE` of the columns whose value is not the loaded one.

* `program_alone`: a request alone leaves what its handler leaves.
* `reads_program`: what it does depends on the rows its queries return only.
* `concurrent_edits_replayed`: in a run in which no request commits an event row
  that another one under way has already read past, the state row is the replay of
  the log after every commit.
* `concurrent_marks_lose_update`: two marks of one streak that both read before
  either commits leave a count that is not the replay.
-/

namespace EpsCloud

open ReadCommitted Runs

/-- The key of a row that the two requests write. -/
inductive RowKey where
  | habit (day : Date) (streakId : ℕ)
  | daily (day : Date)
  | state (streakId : ℕ)
  deriving DecidableEq

/-- The row of a key. -/
def RowKey.Row : RowKey → Type
  | .habit _ _ => HabitLog
  | .daily _ => DailyState
  | .state _ => StreakState

/-- The row of a key, in the database. -/
def Database.getRow (db : Database) : (k : RowKey) → Option k.Row
  | .habit day streakId => db.habitLog.lookup (day, streakId)
  | .daily day => db.dailyState.lookup day
  | .state streakId => db.streakState.lookup streakId

/-- The database with the row of a key written or removed. -/
def Database.putRow (db : Database) : (k : RowKey) → Option k.Row → Database
  | .habit day streakId, row => { db with habitLog := db.habitLog.put (day, streakId) row }
  | .daily day, row => { db with dailyState := db.dailyState.put day row }
  | .state streakId, row => { db with streakState := db.streakState.put streakId row }

/-- The tables that neither request writes. -/
def Database.others (db : Database) : Database :=
  { db with habitLog := ∅, dailyState := ∅, streakState := ∅, editLog := [] }

/-- The database as a store of these rows. -/
def store : RowStore Database RowKey EditLog Database RowKey.Row where
  get := Database.getRow
  put := Database.putRow
  append db row := { db with editLog := db.editLog ++ [row] }
  rest := Database.others
  get_put_self := by
    rintro db (⟨day, streakId⟩ | day | streakId) row <;> exact Table.lookup_put_self _ _ _
  get_put_ne := by
    rintro db (⟨day, streakId⟩ | day | streakId) row (⟨day', streakId'⟩ | day' | streakId') hne
    case habit.habit => exact Table.lookup_put_ne _ _ fun h => hne (by cases h; rfl)
    case daily.daily => exact Table.lookup_put_ne _ _ fun h => hne (by cases h; rfl)
    case state.state => exact Table.lookup_put_ne _ _ fun h => hne (by cases h; rfl)
    all_goals rfl
  get_append := by rintro db row (⟨day, streakId⟩ | day | streakId) <;> rfl
  rest_put := by rintro db (⟨day, streakId⟩ | day | streakId) row <;> rfl
  rest_append _ _ := rfl

/-! ## What the unit of work sends -/

/-- A column after an `UPDATE` that sets it only if it is not as loaded. -/
def setColumn {α : Type} [DecidableEq α] (loaded value current : α) : α :=
  if value = loaded then current else value

theorem setColumn_loaded {α : Type} [DecidableEq α] (loaded value : α) :
    setColumn loaded value loaded = value := by
  rw [setColumn]
  split_ifs with h
  · exact h.symm
  · rfl

/-- An `UPDATE` of `habit_log`. -/
def updateHabit (loaded value current : HabitLog) : HabitLog :=
  { passed := setColumn loaded.passed value.passed current.passed
    editedAt := setColumn loaded.editedAt value.editedAt current.editedAt }

/-- An `UPDATE` of `daily_state`. -/
def updateDaily (loaded value current : DailyState) : DailyState :=
  { badDay := setColumn loaded.badDay value.badDay current.badDay
    editedAt := setColumn loaded.editedAt value.editedAt current.editedAt }

/-- An `UPDATE` of `streak_state`. -/
def updateState (loaded value current : StreakState) : StreakState :=
  { currentStreak := setColumn loaded.currentStreak value.currentStreak current.currentStreak
    personalRecord := setColumn loaded.personalRecord value.personalRecord current.personalRecord
    lastGraceUsedDate :=
      setColumn loaded.lastGraceUsedDate value.lastGraceUsedDate current.lastGraceUsedDate
    lastRecomputedAt :=
      setColumn loaded.lastRecomputedAt value.lastRecomputedAt current.lastRecomputedAt }

/-- The statement that brings a row from how it was loaded to how the session has it.  An
`INSERT` of a row that is there and an `UPDATE` of one that is not raise. -/
def rowStatement {ρ : Type} (update : ρ → ρ → ρ → ρ) (loaded value : Option ρ)
    (current : Option ρ) : Option (Option ρ) :=
  match loaded, value with
  | _, none => some none
  | none, some value =>
    match current with
    | none => some (some value)
    | some _ => none
  | some loaded, some value =>
    match current with
    | none => none
    | some current => some (some (update loaded value current))

/-- On the row as it was loaded the statement leaves the row as the session has it. -/
theorem rowStatement_loaded {ρ : Type} {update : ρ → ρ → ρ → ρ}
    (hupdate : ∀ loaded value, update loaded value loaded = value) (loaded value : Option ρ) :
    rowStatement update loaded value loaded = some value := by
  cases value with
  | none => rfl
  | some value =>
    cases loaded with
    | none => rfl
    | some loaded => exact congrArg (fun r => some (some r)) (hupdate loaded value)

theorem updateHabit_loaded (loaded value : HabitLog) : updateHabit loaded value loaded = value := by
  rw [updateHabit, setColumn_loaded, setColumn_loaded]

theorem updateDaily_loaded (loaded value : DailyState) :
    updateDaily loaded value loaded = value := by
  rw [updateDaily, setColumn_loaded, setColumn_loaded]

theorem updateState_loaded (loaded value : StreakState) :
    updateState loaded value loaded = value := by
  rw [updateState, setColumn_loaded, setColumn_loaded, setColumn_loaded, setColumn_loaded]

/-! ## The two requests as transactions -/

/-- A transaction of the application. -/
abbrev Transaction := Program Database RowKey EditLog RowKey.Row

/-- The query for one row. -/
def one (k : RowKey) : RowKey → Bool := fun k' => k' = k

/-- `select(HabitLog).where(HabitLog.streak_id == streak_id)`. -/
def habitsOf (streakId : ℕ) : RowKey → Bool
  | .habit _ id => id = streakId
  | _ => false

/-- `select(DailyState.date)`. -/
def allDays : RowKey → Bool
  | .daily _ => true
  | _ => false

/-- `recompute_streak_state`, and what comes after it. -/
def recomputeStatements (clock : Clock) (grace : Bool) (streakId : ℕ) (next : Transaction) :
    Transaction :=
  .read (habitsOf streakId) fun db =>
    let logged := loggedDays db streakId
    .read allDays fun db =>
      let bad := badDays db
      .read (one (.state streakId)) fun db =>
        let loaded := db.streakState.lookup streakId
        let acc := replay logged bad clock.today grace (previousRecord loaded)
        .write (.state streakId)
          (rowStatement updateState loaded (some (stateOf acc clock.now))) next

/-- `mark_habit` past its checks. -/
def recordStatements (clock : Clock) (day : Date) (streakId : ℕ) (passed : Bool) : Transaction :=
  .read (one (.habit day streakId)) fun db =>
    let entry := db.habitLog.lookup (day, streakId)
    let change := habitChange entry passed clock.now
    .check (auditRows (habitTarget day streakId) (change.old.map .bool) (change.new.map .bool) day
      clock.today) fun rows =>
    .readRest fun db =>
      let grace := graceEnabled db
      .write (.habit day streakId) (rowStatement updateHabit entry change.row) <|
      .appendAll rows <|
      recomputeStatements clock grace streakId .commit

/-- `mark_habit`. -/
def markStatements (clock : Clock) (date : String) (streakId : ℕ) (mark : String) : Transaction :=
  .check (parseDate date) fun day =>
  .check (parseMark mark) fun passed =>
  .readRest fun db =>
  .check (foundOr404 (db.getStreak streakId)) fun _ => recordStatements clock day streakId passed

/-- `toggle_bad_day` past its check. -/
def flipStatements (clock : Clock) (day : Date) : Transaction :=
  .read (one (.daily day)) fun db =>
    let daily := db.dailyState.lookup day
    let change := badDayChange daily clock.now
    .check (auditRows (badDayTarget day) (change.old.map .bool) (change.new.map .bool) day
      clock.today) fun rows =>
    .readRest fun db =>
      let grace := graceEnabled db
      .readRest fun db =>
        .write (.daily day) (rowStatement updateDaily daily change.row) <|
        .appendAll rows <|
        db.activeStreakIds.foldr (recomputeStatements clock grace) .commit

/-- `toggle_bad_day`. -/
def toggleStatements (clock : Clock) (date : String) : Transaction :=
  .check (parseDate date) fun day => flipStatements clock day

/-- A request that recomputes streaks, with the clock that its process reads. -/
inductive StreakEdit where
  | markHabit (clock : Clock) (date : String) (streakId : ℕ) (mark : String)
  | toggleBadDay (clock : Clock) (date : String)

/-- The statements that a request sends. -/
def StreakEdit.program : StreakEdit → Transaction
  | .markHabit clock date streakId mark => markStatements clock date streakId mark
  | .toggleBadDay clock date => toggleStatements clock date

/-- The day of a request. -/
def StreakEdit.today : StreakEdit → Date
  | .markHabit clock _ _ _ => clock.today
  | .toggleBadDay clock _ => clock.today

/-- The request is about this streak. -/
def StreakEdit.Affects (db : Database) (k : ℕ) : StreakEdit → Prop
  | .markHabit _ _ streakId _ => streakId = k
  | .toggleBadDay _ _ => Streak.Active db k

/-- What the request does when it is alone. -/
def handleAlone (db : Database) : StreakEdit → Except Failure Database
  | .markHabit clock date streakId mark => markHabit clock date streakId mark db
  | .toggleBadDay clock date => toggleBadDay clock date db

/-! ## A request alone -/

theorem recomputeStatements_alone (clock : Clock) (grace : Bool) (streakId : ℕ)
    (next : Transaction) (db : Database) :
    (recomputeStatements clock grace streakId next).alone store db =
      next.alone store (recomputeStreakState db streakId clock grace) := by
  have hrow := rowStatement_loaded updateState_loaded (db.streakState.lookup streakId)
    (some (recomputedStreakState db streakId clock grace))
  show ((rowStatement updateState (db.streakState.lookup streakId)
    (some (recomputedStreakState db streakId clock grace)) (db.streakState.lookup streakId)).bind
      fun v => next.alone store (db.putRow (.state streakId) v)) = _
  rw [hrow, Option.bind_some]
  rfl

theorem recomputeAll_alone (clock : Clock) (grace : Bool) (ids : List ℕ) (db : Database) :
    (ids.foldr (recomputeStatements clock grace) .commit).alone store db =
      some (recomputeStreaks clock grace ids db) := by
  induction ids generalizing db with
  | nil => rfl
  | cons id ids ih =>
    rw [List.foldr_cons, recomputeStatements_alone, ih]
    rfl

/-- The edit log after the rows of an audit. -/
theorem foldl_append_editLog (rows : List EditLog) (db : Database) :
    rows.foldl store.append db = { db with editLog := db.editLog ++ rows } := by
  induction rows generalizing db with
  | nil => rw [List.foldl_nil, List.append_nil]
  | cons row rows ih =>
    rw [List.foldl_cons, ih]
    show ({ db with editLog := db.editLog ++ [row] ++ rows } : Database) = _
    rw [List.append_assoc, List.singleton_append]

/-- The statements of an edit: the event row, the rows of its audit, and the rest. -/
theorem editStatements_alone {k : RowKey} {loaded value : Option k.Row}
    {update : k.Row → k.Row → k.Row → k.Row}
    (hupdate : ∀ loaded value, update loaded value loaded = value) {db : Database}
    (hloaded : db.getRow k = loaded) (rows : List EditLog) (next : Transaction) :
    (Program.write k (rowStatement update loaded value) (.appendAll rows next)).alone store db =
      next.alone store
        { db.putRow k value with editLog := (db.putRow k value).editLog ++ rows } := by
  rw [Program.alone]
  show (rowStatement update loaded value (db.getRow k)).bind _ = _
  rw [hloaded, rowStatement_loaded hupdate, Option.bind_some, Program.alone_appendAll,
    foldl_append_editLog]
  rfl

theorem recordStatements_alone (clock : Clock) (day : Date) (streakId : ℕ) (passed : Bool)
    (db : Database) :
    (recordStatements clock day streakId passed).alone store db =
      some (recomputeStreakState (habitEdited clock day streakId passed db) streakId clock
        (graceEnabled db)) := by
  simp only [recordStatements, auditRows_eq_due (eqTellsChange_map_bool _ _)]
  refine (editStatements_alone (k := .habit day streakId) updateHabit_loaded rfl _ _).trans ?_
  rw [recomputeStatements_alone]
  rfl

theorem flipStatements_alone (clock : Clock) (day : Date) (db : Database) :
    (flipStatements clock day).alone store db =
      some (recomputeStreaks clock (graceEnabled db) db.activeStreakIds
        (badDayEdited clock day db)) := by
  simp only [flipStatements, auditRows_eq_due (eqTellsChange_map_bool _ _)]
  refine (editStatements_alone (k := .daily day) updateDaily_loaded rfl _ _).trans ?_
  rw [recomputeAll_alone]
  rfl

/-- **A request alone leaves what its handler leaves.** -/
theorem program_alone (req : StreakEdit) (db : Database) :
    req.program.alone store db = (handleAlone db req).toOption := by
  cases req with
  | markHabit clock date streakId mark =>
    show (markStatements clock date streakId mark).alone store db =
      (markHabit clock date streakId mark db).toOption
    rw [markStatements, markHabit]
    cases parseDate date with
    | error e => rfl
    | ok day =>
      cases parseMark mark with
      | error e => rfl
      | ok passed =>
        show (Program.check (foundOr404 (db.getStreak streakId)) _).alone store db = Except.toOption
          (foundOr404 (db.getStreak streakId) >>= fun _ => recordHabit clock day streakId passed db)
        cases foundOr404 (db.getStreak streakId) with
        | error e => rfl
        | ok streak =>
          refine (recordStatements_alone clock day streakId passed db).trans ?_
          exact congrArg Except.toOption (recordHabit_eq clock day streakId passed db).symm
  | toggleBadDay clock date =>
    show (toggleStatements clock date).alone store db = (toggleBadDay clock date db).toOption
    rw [toggleStatements]
    cases hday : parseDate date with
    | error e =>
      rw [toggleBadDay, hday]
      rfl
    | ok day =>
      refine (flipStatements_alone clock day db).trans ?_
      exact congrArg Except.toOption
        (toggleBadDay_eq_ok.mpr ⟨day, parseDate_eq_ok.mp hday, rfl⟩).symm

/-! ## What a request reads -/

theorem others_congr {db db' : Database} (h : store.rest db = store.rest db') :
    db.streaks = db'.streaks ∧ db.settings = db'.settings := by
  have hstreaks : db.others.streaks = db'.others.streaks := congrArg Database.streaks h
  have hsettings : db.others.settings = db'.others.settings := congrArg Database.settings h
  exact ⟨hstreaks, hsettings⟩

theorem recomputeStatements_reads (clock : Clock) (grace : Bool) (streakId : ℕ)
    {next : Transaction} (hnext : next.Reads store) :
    (recomputeStatements clock grace streakId next).Reads store := by
  refine ⟨fun db db' _ hrows => ?_, fun db => ⟨fun db₁ db₁' _ hrows => ?_, fun db₁ =>
    ⟨fun db₂ db₂' _ hrows => ?_, fun _ => hnext⟩⟩⟩
  · have hlog : ∀ bad today grace record, replay (loggedDays db streakId) bad today grace record =
        replay (loggedDays db' streakId) bad today grace record := by
      intro bad today grace record
      refine replay_congr (fun d => ?_) (fun _ => Iff.rfl) today grace record
      rw [lookup_loggedDays, lookup_loggedDays]
      exact congrArg (Option.map HabitLog.passed)
        (hrows (.habit d streakId) (decide_eq_true rfl))
    simp only [hlog]
  · have hbad : ∀ logged today grace record, replay logged (badDays db₁) today grace record =
        replay logged (badDays db₁') today grace record := by
      intro logged today grace record
      refine replay_congr (fun _ => rfl) (fun d => ?_) today grace record
      rw [mem_badDays, mem_badDays]
      have hrow : db₁.dailyState.lookup d = db₁'.dailyState.lookup d := hrows (.daily d) rfl
      rw [hrow]
    simp only [hbad]
  · have hstate : db₂.streakState.lookup streakId = db₂'.streakState.lookup streakId :=
      hrows (.state streakId) (decide_eq_true rfl)
    simp only [hstate]

theorem recordStatements_reads (clock : Clock) (day : Date) (streakId : ℕ) (passed : Bool) :
    (recordStatements clock day streakId passed).Reads store := by
  refine ⟨fun db db' _ hrows => ?_, fun db => Program.reads_check store _ fun rows =>
    Program.reads_readRest store (fun db db' hrest => ?_) fun db =>
      Program.reads_appendAll store rows (recomputeStatements_reads clock _ streakId trivial)⟩
  · have hentry : db.habitLog.lookup (day, streakId) = db'.habitLog.lookup (day, streakId) :=
      hrows (.habit day streakId) (decide_eq_true rfl)
    simp only [hentry]
  · simp only [graceEnabled, (others_congr hrest).2]

theorem flipStatements_reads (clock : Clock) (day : Date) :
    (flipStatements clock day).Reads store := by
  refine ⟨fun db db' _ hrows => ?_, fun db => Program.reads_check store _ fun rows =>
    Program.reads_readRest store (fun db db' hrest => ?_) fun db =>
      Program.reads_readRest store (fun db db' hrest => ?_) fun db =>
        Program.reads_appendAll store rows ?_⟩
  · have hdaily : db.dailyState.lookup day = db'.dailyState.lookup day :=
      hrows (.daily day) (decide_eq_true rfl)
    simp only [hdaily]
  · simp only [graceEnabled, (others_congr hrest).2]
  · simp only [Database.activeStreakIds, (others_congr hrest).1]
  · generalize db.activeStreakIds = ids
    induction ids with
    | nil => exact trivial
    | cons id ids ih => exact recomputeStatements_reads clock _ id ih

/-- **What a request does depends on the rows its queries return only.** -/
theorem reads_program (req : StreakEdit) : req.program.Reads store := by
  cases req with
  | markHabit clock date streakId mark =>
    refine Program.reads_check store _ fun day => Program.reads_check store _ fun passed =>
      Program.reads_readRest store (fun db db' hrest => ?_) fun db =>
        Program.reads_check store _ fun _ => recordStatements_reads clock day streakId passed
    simp only [Database.getStreak, (others_congr hrest).1]
  | toggleBadDay clock date =>
    exact Program.reads_check store _ fun day => flipStatements_reads clock day

/-! ## Side by side -/

/-- A request that succeeds alone leaves the replay in the row of a streak it affects. -/
theorem handleAlone_shown {req : StreakEdit} {db db' : Database} {k : ℕ}
    (h : handleAlone db req = .ok db') (hk : req.Affects db k) :
    shownFigures db' k = some (replayedFigures db' k req.today (graceEnabled db')) := by
  cases req with
  | markHabit clock date streakId mark =>
    obtain ⟨day, passed, -, -, -, rfl⟩ := markHabit_eq_ok.mp h
    obtain rfl : streakId = k := hk
    rw [shownFigures_recompute, if_pos rfl]
    rfl
  | toggleBadDay clock date =>
    obtain ⟨day, -, rfl⟩ := toggleBadDay_eq_ok.mp h
    obtain ⟨rows, hrows⟩ := recomputeStreaks_frame clock (graceEnabled db) db.activeStreakIds
      (badDayEdited clock day db)
    have hmem : k ∈ db.activeStreakIds := hk
    rw [recomputeStreaks_spec, if_pos hmem, hrows]
    rfl

/-- **No lost update, unless a commit overwrites what was read.**  Any number of requests that
affect one streak run side by side, their statements in any order.  If no commit finds another
request under way that has already read a row the committing one wrote, then after every commit
the streak's state row shows the replay of the log and the bad days as they are then, on the
day of the request that committed last. -/
theorem concurrent_edits_replayed {ι : Type} [Fintype ι] [DecidableEq ι] (db : Database) (k : ℕ)
    (requests : ι → StreakEdit) (haffects : ∀ i, (requests i).Affects db k) (schedule : List ι)
    (hunread : ∀ x ∈ trace (step store) (.start (fun i => (requests i).program) db) schedule,
      CommitsUnread x.1 x.2) (i : ι)
    (hi : (schedule.foldl (step store)
      (.start (fun i => (requests i).program) db)).order.getLast? = some i) :
    let final := (schedule.foldl (step store) (.start (fun i => (requests i).program) db)).store
    shownFigures final k =
      some (replayedFigures final k (requests i).today (graceEnabled final)) := by
  obtain ⟨before, hrest, halone⟩ :=
    (serial_run (fun i => reads_program (requests i)) db hunread).last hi
  rw [program_alone] at halone
  have hok : handleAlone before (requests i) = .ok (schedule.foldl (step store)
      (.start (fun i => (requests i).program) db)).store := by
    cases hres : handleAlone before (requests i) with
    | error e =>
      rw [hres] at halone
      cases halone
    | ok db' =>
      rw [hres] at halone
      exact congrArg Except.ok (Option.some.inj halone)
  refine handleAlone_shown hok ?_
  have hk := haffects i
  cases hreq : requests i with
  | markHabit clock date streakId mark =>
    rw [hreq] at hk
    exact hk
  | toggleBadDay clock date =>
    rw [hreq] at hk
    have hids : before.activeStreakIds = db.activeStreakIds := by
      rw [Database.activeStreakIds, Database.activeStreakIds, (others_congr hrest).1]
    show k ∈ before.activeStreakIds
    rw [hids]
    exact hk

/-- A streak whose row says that nothing has been counted yet. -/
def countedStreak : Database :=
  { streaks := [{ id := 1 }]
    streakState := (∅ : Table ℕ StreakState).put 1 (some ⟨0, 0, none, 0⟩) }

/-- On 2026-01-06, ticks for the day before and for the day itself. -/
def twoTicks : Bool → StreakEdit
  | false => .markHabit ⟨739622, 0⟩ "2026-01-05" 1 "pass"
  | true => .markHabit ⟨739622, 1⟩ "2026-01-06" 1 "pass"

/-- The second tick has looked its entry up when the first one runs to its end. -/
theorem concurrent_edits_replayed_twoTicks :
    let final := (([true, true, true, false, true] ++ List.replicate 10 false ++
      List.replicate 6 true).foldl (step store)
        (.start (fun i => (twoTicks i).program) countedStreak)).store
    shownFigures final 1 =
      some (replayedFigures final 1 (twoTicks true).today (graceEnabled final)) :=
  concurrent_edits_replayed countedStreak 1 twoTicks (fun i => by cases i <;> rfl) _ (by decide)
    true (by decide)

/-- **A lost update.**  Both ticks read before either commits, so each replay misses the other
entry, and the row of the later one stays: it shows a count of one where the log has two. -/
theorem concurrent_marks_lose_update :
    let final := (List.replicate 8 false ++ List.replicate 7 true ++ List.replicate 2 false ++
      List.replicate 2 true).foldl (step store)
        (.start (fun i => (twoTicks i).program) countedStreak)
    final.order = [false, true] ∧ shownFigures final.store 1 = some (1, none) ∧
      replayedFigures final.store 1 739622 (graceEnabled final.store) = (2, none) := by
  decide

end EpsCloud

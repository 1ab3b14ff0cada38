import EpsCloud.Library.Filling
import EpsCloud.Recompute.Streak
import EpsCloud.Recompute.Tracker
import EpsCloud.Routes.Journal
import EpsCloud.Seeding.Install
import EpsCloud.Time.Range

/-!
# The seeding

`seed.py`: after the definition rows, every entry of the last 56 days, every note,
task and calendar entry is a place that is filled unless something is there already.
Whether an activity was done on a day is left to the generator, so an open place can
stay open.

* `written_of_writes`: a write leaves the tables with one more row.
* `Written.taken_iff`, `Written.extends`: it fills the place it is for and no other, and
  leaves the rows that are there.
* `exists_tracker_of_none`: only the places of trackers are passed by.
-/

namespace EpsCloud

/-- `random.Random`, as far as the seeding draws from it. -/
structure Rng (γ : Type) where
  /-- `random.Random(7)`, as every process starts with it. -/
  start : γ
  random : γ → ℚ × γ
  randint : ℤ → ℤ → γ → ℤ × γ
  uniform : ℚ → ℚ → γ → ℚ × γ
  randrange : ℤ → ℤ → ℤ → γ → ℤ × γ

/-- The number that `random()` gives. -/
def Rng.number {γ : Type} (rng : Rng γ) (g : γ) : ℚ := (rng.random g).1

/-- The generator after it. -/
def Rng.next {γ : Type} (rng : Rng γ) (g : γ) : γ := (rng.random g).2

/-- A row of `TASKS`; the numbers are days from today. -/
structure SeedTask where
  name : String
  deadline : Option ℤ
  scheduled : Option ℤ
  timeOfDay : Option TimeOfDay
  vital : Bool
  done : Option ℤ
  deriving DecidableEq

/-- A place that the seeding looks at. -/
inductive Place where
  | habit (day : Date) (streakId : ℕ)
  | tracker (day : Date) (trackerId : ℕ) (chance : ℚ)
  | metric (day : Date) (row : NamedMetric)
  | note (day : Date) (text : String)
  | badDay (day : Date)
  | task (today : Date) (row : SeedTask)
  | event (day : Date) (title : String) (timeOfDay : TimeOfDay)
  deriving DecidableEq

/-- What a place is matched by: the primary key of its row, or the name of the task. -/
inductive PlaceKey where
  | habitLog (key : Date × ℕ)
  | trackerEvents (key : Date × ℕ)
  | metricLog (key : Date × ℕ)
  | dailyNotes (key : Date)
  | dailyState (key : Date)
  | tasks (name : String)
  | calendarCache (key : String)
  deriving DecidableEq

/-- `f"seed-{day.isoformat()}-{title.lower().replace(' ', '-')}"` -/
def seedEventId (day : Date) (title : String) : String :=
  "seed-" ++ isoformat day ++ "-" ++ title.toLower.replace " " "-"

def Place.key : Place → PlaceKey
  | .habit day streakId => .habitLog (day, streakId)
  | .tracker day trackerId _ => .trackerEvents (day, trackerId)
  | .metric day row => .metricLog (day, row.id)
  | .note day _ => .dailyNotes day
  | .badDay day => .dailyState day
  | .task _ row => .tasks row.name
  | .event day title _ => .calendarCache (seedEventId day title)

/-- Something is there already. -/
def PlaceKey.Taken (a : SeededTables) : PlaceKey → Prop
  | .habitLog key => (a.habitLog.lookup key).isSome
  | .trackerEvents key => (a.trackerEvents.lookup key).isSome
  | .metricLog key => (a.metricLog.lookup key).isSome
  | .dailyNotes key => (a.dailyNotes.lookup key).isSome
  | .dailyState key => (a.dailyState.lookup key).isSome
  | .tasks name => ∃ task ∈ a.tasks, task.name = name
  | .calendarCache key => ∃ event ∈ a.calendarCache, event.eventId = key

instance (a : SeededTables) (key : PlaceKey) : Decidable (key.Taken a) := by
  cases key <;> unfold PlaceKey.Taken <;> infer_instance

/-- What is taken stays taken as long as rows are only added. -/
theorem Extends.taken {a b : SeededTables} (h : Extends a b) {key : PlaceKey}
    (hkey : key.Taken a) : key.Taken b := by
  cases key with
  | habitLog key => exact h.habitLog.isSome hkey
  | trackerEvents key => exact h.trackerEvents.isSome hkey
  | metricLog key => exact h.metricLog.isSome hkey
  | dailyNotes key => exact h.dailyNotes.isSome hkey
  | dailyState key => exact h.dailyState.isSome hkey
  | tasks name =>
    obtain ⟨task, htask, hname⟩ := hkey
    exact ⟨task, h.tasks.subset htask, hname⟩
  | calendarCache key =>
    obtain ⟨event, hevent, hid⟩ := hkey
    exact ⟨event, h.calendarCache.subset hevent, hid⟩

/-! ## What is written -/

namespace Install

variable (s : Install)

/-- `db_session.add(HabitLog(date=day, streak_id=streak.id, passed=passed))` -/
def addHabitLog (key : Date × ℕ) (passed : Bool) : Install :=
  { s with db := { s.db with habitLog := s.db.habitLog.insert key { passed } } }

/-- `db_session.add(TrackerEvent(date=day, tracker_id=tracker.id, activity_done=True))` -/
def addTrackerEvent (key : Date × ℕ) : Install :=
  { s with db := { s.db with
      trackerEvents := s.db.trackerEvents.insert key { activityDone := true } } }

/-- `db_session.add(MetricLog(date=day, metric_id=metric.id, value=value))` -/
def addMetricLog (key : Date × ℕ) (value : Decimal) : Install :=
  { s with db := { s.db with metricLog := s.db.metricLog.insert key { value } } }

/-- `db_session.add(DailyNote(date=day, note_text=text))` -/
def addDailyNote (day : Date) (text : String) : Install :=
  { s with db := { s.db with dailyNotes := s.db.dailyNotes.insert day { noteText := text } } }

/-- `db_session.add(DailyState(date=day, bad_day=True))` -/
def addDailyState (day : Date) : Install :=
  { s with db := { s.db with dailyState := s.db.dailyState.insert day { badDay := true } } }

/-- `db_session.add(Task(..))`: the row gets the next id. -/
def addTask (new : ℕ → Task) : Install :=
  { s with db := { s.db with
      tasks := s.db.tasks ++ [new s.db.taskSeq]
      taskSeq := s.db.taskSeq + 1 } }

/-- `db_session.add(CalendarEvent(..))` -/
def addCalendarEvent (event : CalendarEvent) : Install :=
  { s with db := { s.db with calendarCache := s.db.calendarCache ++ [event] } }

end Install

/-- `value or default` for a whole number or `None`. -/
def orDefault (value : Option ℤ) (default : ℤ) : ℤ :=
  match value with
  | none => default
  | some n => if n = 0 then default else n

/-- `decimal.Decimal(str(round(x, 1)))` -/
def roundedToTenths (x : ℚ) : Decimal :=
  .finite (Json.roundHalfEven (10 * x) < 0) (Json.roundHalfEven (10 * x)).natAbs (-1)

/-- The scale from which a value is drawn. -/
def NamedMetric.scale (metric : NamedMetric) : ℤ × ℤ :=
  (orDefault metric.scaleMin 1, orDefault metric.scaleMax 5)

/-- `today + datetime.timedelta(days=offset) if offset is not None else None` -/
def dayAt (today : Date) : Option ℤ → Except Failure (Option Date)
  | none => .ok none
  | some offset => (checkedDay (today + offset)).map some

section Draws

variable {γ : Type} (rng : Rng γ) (zone : Zone) (clock : Clock)

/-- The value of a metric on a day; `randint` raises `ValueError` on an empty range. -/
def drawMetric (metric : NamedMetric) (g : γ) : Except Failure (Decimal × γ) :=
  if metric.metricType = .scale then
    if metric.scale.2 < metric.scale.1 then .error .raised
    else
      let p := rng.randint metric.scale.1 metric.scale.2 g
      .ok (.ofInt p.1, p.2)
  else if metric.name = "Sleep" then
    let p := rng.uniform (11 / 2) (17 / 2) g
    .ok (roundedToTenths p.1, p.2)
  else
    let p := rng.randrange 3000 14000 250 g
    .ok (.ofInt p.1, p.2)

/-- The row of a task.  Its stamps are 56 days and 2 days back. -/
def seededTask (row : SeedTask) (deadline scheduledFor : Option Date) (id : ℕ) : Task :=
  { id
    name := row.name
    deadline
    scheduledFor
    scheduledTime := row.timeOfDay
    vital := row.vital
    createdAt := clock.now - daysToMicroseconds 56
    lastUserInteractionAt := clock.now - daysToMicroseconds 2
    completedAt := row.done.map fun offset => clock.now + daysToMicroseconds offset }

/-- The row of a calendar entry, from the start that `datetime.combine` gives. -/
def seededEvent (day : Date) (title : String) (timeOfDay : TimeOfDay) : CalendarEvent :=
  let wall := day * dayLength + timeOfDay.microseconds
  { eventId := seedEventId day title
    startAt := ⟨wall - zone.wallOffset wall, zone.wallOffset wall⟩
    date := day }

/-- What an open place draws and writes. -/
def Place.draw : Place → γ → Except Failure (Option (Install → Install) × γ)
  | .habit day streakId, g =>
    -- mostly kept, with the odd miss: 0.16 as a floating-point number
    .ok (some fun s => s.addHabitLog (day, streakId) (5764607523034235 / 2 ^ 55 < rng.number g),
      rng.next g)
  | .tracker day trackerId chance, g =>
    .ok (if rng.number g < chance then some fun s => s.addTrackerEvent (day, trackerId) else none,
      rng.next g)
  | .metric day row, g =>
    (drawMetric rng row g).map fun p => (some fun s => s.addMetricLog (day, row.id) p.1, p.2)
  | .note day text, g => .ok (some fun s => s.addDailyNote day text, g)
  | .badDay day, g => .ok (some fun s => s.addDailyState day, g)
  | .task today row, g =>
    (dayAt today row.deadline).bind fun deadline =>
      (dayAt today row.scheduled).bind fun scheduledFor =>
        .ok (some fun s => s.addTask (seededTask clock row deadline scheduledFor), g)
  | .event day title timeOfDay, g =>
    .ok (some fun s => s.addCalendarEvent (seededEvent zone day title timeOfDay), g)

/-- The places of the seeding and how they are filled. -/
def seedFilling : Filling Install γ Place Failure where
  Taken v s := v.key.Taken s.tables
  draw := Place.draw rng zone clock
  decTaken _ _ := inferInstance

end Draws

/-! ## What a write does -/

section Writes

variable {γ : Type} {rng : Rng γ} {zone : Zone} {clock : Clock}

/-- The tables with one more row, which is for the key. -/
inductive Written (a : SeededTables) : PlaceKey → SeededTables → Prop
  | habitLog (key r) : Written a (.habitLog key) { a with habitLog := a.habitLog.insert key r }
  | trackerEvents (key r) :
    Written a (.trackerEvents key) { a with trackerEvents := a.trackerEvents.insert key r }
  | metricLog (key r) : Written a (.metricLog key) { a with metricLog := a.metricLog.insert key r }
  | dailyNotes (key r) :
    Written a (.dailyNotes key) { a with dailyNotes := a.dailyNotes.insert key r }
  | dailyState (key r) :
    Written a (.dailyState key) { a with dailyState := a.dailyState.insert key r }
  | tasks (r : Task) : Written a (.tasks r.name) { a with tasks := a.tasks ++ [r] }
  | calendarCache (r : CalendarEvent) :
    Written a (.calendarCache r.eventId) { a with calendarCache := a.calendarCache ++ [r] }

theorem write_eq_of_ok {w write : Install → Install} {g g' : γ}
    (h : (.ok (some w, g) : Except Failure _) = .ok (some write, g')) : w = write :=
  Option.some.inj (Prod.mk.inj (Except.ok.inj h)).1

/-- **What a write leaves**: a row for its key, and nothing else. -/
theorem written_of_writes {v : Place} {write : Install → Install}
    (h : (seedFilling rng zone clock).Writes v write) (s : Install) :
    Written s.tables v.key (write s).tables := by
  obtain ⟨g, g', h⟩ := h
  replace h : v.draw rng zone clock g = .ok (some write, g') := h
  cases v with
  | habit day streakId =>
    obtain rfl := write_eq_of_ok h
    exact .habitLog _ _
  | tracker day trackerId chance =>
    obtain ⟨hwrite, -⟩ := Prod.mk.inj (Except.ok.inj h)
    split_ifs at hwrite
    obtain rfl := Option.some.inj hwrite
    exact .trackerEvents _ _
  | metric day row =>
    rw [Place.draw] at h
    rcases hdraw : drawMetric rng row g with e | p <;> rw [hdraw] at h
    · exact absurd h (by simp [Except.map])
    obtain rfl := write_eq_of_ok h
    exact .metricLog _ _
  | note day text =>
    obtain rfl := write_eq_of_ok h
    exact .dailyNotes _ _
  | badDay day =>
    obtain rfl := write_eq_of_ok h
    exact .dailyState _ _
  | task today row =>
    obtain ⟨deadline, -, h⟩ := bind_eq_ok.mp h
    obtain ⟨scheduledFor, -, h⟩ := bind_eq_ok.mp h
    obtain rfl := write_eq_of_ok h
    exact .tasks (seededTask clock row deadline scheduledFor _)
  | event day title timeOfDay =>
    obtain rfl := write_eq_of_ok h
    exact .calendarCache (seededEvent zone day title timeOfDay)

theorem exists_mem_concat {ρ κ : Type} (l : List ρ) (r : ρ) (f : ρ → κ) (k : κ) :
    (∃ x ∈ l ++ [r], f x = k) ↔ k = f r ∨ ∃ x ∈ l, f x = k := by
  simp only [List.mem_append, List.mem_singleton, or_and_right, exists_or, exists_eq_left]
  rw [or_comm, eq_comm]

/-- **A write fills the place** it is for and no other. -/
theorem Written.taken_iff {a b : SeededTables} {key : PlaceKey} (h : Written a key b)
    (key' : PlaceKey) : key'.Taken b ↔ key' = key ∨ key'.Taken a := by
  cases h with
  | tasks r =>
    cases key' with
    | tasks name =>
      rw [PlaceKey.tasks.injEq]
      exact exists_mem_concat _ _ _ _
    | _ => exact (or_iff_right (by simp)).symm
  | calendarCache r =>
    cases key' with
    | calendarCache key =>
      rw [PlaceKey.calendarCache.injEq]
      exact exists_mem_concat _ _ _ _
    | _ => exact (or_iff_right (by simp)).symm
  | _ => cases key' <;> simp [PlaceKey.Taken, AList.lookup_isSome]

/-- It leaves the rows that are there. -/
theorem Written.extends {a b : SeededTables} {key : PlaceKey} (h : Written a key b)
    (hopen : ¬ key.Taken a) : Extends a b := by
  cases h with
  | habitLog key r =>
    have hnone := Option.not_isSome_iff_eq_none.mp hopen
    exact { Extends.refl a with habitLog := Table.within_insert hnone r }
  | trackerEvents key r =>
    have hnone := Option.not_isSome_iff_eq_none.mp hopen
    exact { Extends.refl a with trackerEvents := Table.within_insert hnone r }
  | metricLog key r =>
    have hnone := Option.not_isSome_iff_eq_none.mp hopen
    exact { Extends.refl a with metricLog := Table.within_insert hnone r }
  | dailyNotes key r =>
    have hnone := Option.not_isSome_iff_eq_none.mp hopen
    exact { Extends.refl a with dailyNotes := Table.within_insert hnone r }
  | dailyState key r =>
    have hnone := Option.not_isSome_iff_eq_none.mp hopen
    exact { Extends.refl a with dailyState := Table.within_insert hnone r }
  | tasks r => exact { Extends.refl a with tasks := List.prefix_append _ _ }
  | calendarCache r => exact { Extends.refl a with calendarCache := List.prefix_append _ _ }

/-! ## What a draw does -/

/-- The draw of the place does not raise. -/
def Place.Drawable : Place → Prop
  | .metric _ row => row.metricType = .scale → row.scale.1 ≤ row.scale.2
  | .task today row =>
    (∀ offset ∈ row.deadline, DayExists (today + offset)) ∧
      ∀ offset ∈ row.scheduled, DayExists (today + offset)
  | _ => True

instance (v : Place) : Decidable v.Drawable := by
  cases v <;> unfold Place.Drawable <;> infer_instance

theorem dayAt_eq_ok {today : Date} {offset : Option ℤ}
    (h : ∀ k ∈ offset, DayExists (today + k)) :
    dayAt today offset = .ok (offset.map (today + ·)) := by
  cases offset with
  | none => rfl
  | some k =>
    rw [dayAt, checkedDay, if_pos (h k rfl)]
    rfl

theorem dayAt_eq_error {today : Date} {offset : Option ℤ}
    (h : ¬ ∀ k ∈ offset, DayExists (today + k)) : dayAt today offset = .error .raised := by
  cases offset with
  | none => exact absurd h (by simp)
  | some k =>
    have hk : ¬ DayExists (today + k) := by simpa using h
    rw [dayAt, checkedDay, if_neg hk]
    rfl

theorem drawMetric_eq_error_iff {metric : NamedMetric} {g : γ} :
    (∃ e, drawMetric rng metric g = .error e) ↔
      metric.metricType = .scale ∧ metric.scale.2 < metric.scale.1 := by
  rw [drawMetric]
  split_ifs with hscale hempty hsleep
  · exact iff_of_true ⟨_, rfl⟩ ⟨hscale, hempty⟩
  · exact iff_of_false (by simp) fun h => hempty h.2
  · exact iff_of_false (by simp) fun h => hscale h.1
  · exact iff_of_false (by simp) fun h => hscale h.1

theorem draw_of_drawable {v : Place} (h : v.Drawable) (g : γ) :
    ∃ p, v.draw rng zone clock g = .ok p := by
  cases v with
  | metric day row =>
    rw [Place.draw]
    rcases hdraw : drawMetric rng row g with e | p
    · obtain ⟨hscale, hempty⟩ := drawMetric_eq_error_iff.mp ⟨e, hdraw⟩
      exact absurd hempty (not_lt.mpr (h hscale))
    · exact ⟨_, rfl⟩
  | task today row =>
    rw [Place.draw, dayAt_eq_ok h.1, dayAt_eq_ok h.2]
    exact ⟨_, rfl⟩
  | habit | tracker | note | badDay | event => exact ⟨_, rfl⟩

theorem draw_of_not_drawable {v : Place} (h : ¬ v.Drawable) (g : γ) :
    ∃ e, v.draw rng zone clock g = .error e := by
  cases v with
  | metric day row =>
    rw [Place.Drawable, Classical.not_imp, not_le] at h
    obtain ⟨e, he⟩ := drawMetric_eq_error_iff.mpr h
    rw [Place.draw, he]
    exact ⟨e, rfl⟩
  | task today row =>
    rw [Place.draw]
    by_cases hdeadline : ∀ k ∈ row.deadline, DayExists (today + k)
    · rw [dayAt_eq_ok hdeadline, dayAt_eq_error fun hs => h ⟨hdeadline, hs⟩]
      exact ⟨_, rfl⟩
    · rw [dayAt_eq_error hdeadline]
      exact ⟨_, rfl⟩
  | habit | tracker | note | badDay | event => exact absurd trivial h

theorem sound_iff {v : Place} : (seedFilling rng zone clock).Sound v ↔ v.Drawable := by
  constructor
  · intro hsound
    by_contra hnot
    obtain ⟨p, hp⟩ := hsound rng.start
    obtain ⟨e, he⟩ : ∃ e, v.draw rng zone clock rng.start = .error e :=
      draw_of_not_drawable hnot rng.start
    exact absurd (he.symm.trans hp) (by simp)
  · intro h g
    exact draw_of_drawable h g

/-- The chance of a tracker's place. -/
def Place.chance : Place → ℚ
  | .tracker _ _ chance => chance
  | _ => 0

/-- **Only the places of trackers are passed by.** -/
theorem exists_tracker_of_none {v : Place} {g g' : γ}
    (h : v.draw rng zone clock g = .ok (none, g')) :
    ∃ day trackerId chance, v = .tracker day trackerId chance ∧ chance ≤ rng.number g := by
  cases v with
  | tracker day trackerId chance =>
    obtain ⟨hnone, -⟩ := Prod.mk.inj (Except.ok.inj h)
    split_ifs at hnone with hlt
    exact ⟨day, trackerId, chance, rfl, not_lt.mp hlt⟩
  | metric day row =>
    rw [Place.draw] at h
    rcases hdraw : drawMetric rng row g with e | p <;> rw [hdraw] at h
    · exact absurd h (by simp [Except.map])
    · exact absurd (Prod.mk.inj (Except.ok.inj h)).1 (by simp)
  | task today row =>
    obtain ⟨deadline, -, h⟩ := bind_eq_ok.mp h
    obtain ⟨scheduledFor, -, h⟩ := bind_eq_ok.mp h
    exact absurd (Prod.mk.inj (Except.ok.inj h)).1 (by simp)
  | habit | note | badDay | event => exact absurd (Prod.mk.inj (Except.ok.inj h)).1 (by simp)

/-- They depend on the numbers only, not on the clock. -/
theorem coin_of_none {v : Place} {g g' : γ} (h : v.draw rng zone clock g = .ok (none, g'))
    (clock' : Clock) :
    (seedFilling rng zone clock').Coin rng.number rng.next Place.chance v := by
  obtain ⟨day, trackerId, chance, rfl, -⟩ := exists_tracker_of_none h
  exact ⟨_, fun _ => rfl⟩

end Writes

end EpsCloud

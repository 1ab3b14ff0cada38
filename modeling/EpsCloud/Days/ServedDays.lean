import EpsCloud.Library.Fallible
import EpsCloud.Routes.DayView
import EpsCloud.Time.Range

/-!
# Which days can be served

The journal takes every date that `fromisoformat` reads, from 0001-01-01 to
9999-12-31.  To list the tasks of a day that is not today it computes the local
midnights of that day and of the next one in UTC, and the local date on which a task
with a deadline was created; each of them may leave the range of the standard
library, which raises.

The handlers of `app.routes.journal` are written here with that arithmetic checked.

* `dayItemsChecked_eq_ok`, `dayItemsChecked_eq_error`: the checked list is the unchecked one, or
  it raises.
* `servedOrRefused_iff`: when a date is served, or refused with 404.
-/

namespace EpsCloud

open KeySort

/-! ## The source, with checked arithmetic -/

/-- `task_ctx`, where the limit of staleness and the day after are computed. -/
def taskCtxChecked (task : Task) (today : Date) (now : Moment) : Except Failure TaskCtx := do
  if task.completedAt.isNone then
    let _ ← checkedMoment (now - daysToMicroseconds staleAfterDays)
  let _ ← checkedDay (today + 1)
  return taskCtx task today now

/-- `local_day_start_utc(day + datetime.timedelta(days=1))`. -/
def localDayEnd (zone : Zone) (day : Date) : Except Failure Moment :=
  checkedDay (day + 1) >>= localDayStart zone

/-- `task.deadline is not None and local_date_of(task.created_at) <= day`. -/
def withinDeadline (zone : Zone) (day : Date) (task : Task) : Except Failure Bool :=
  if task.deadline.isSome then (localDate zone task.createdAt).map fun d => decide (d ≤ day)
  else .ok false

/-- The turn of `day_items`' loop over tasks. -/
def dayItemChecked (zone : Zone) (dayStart dayEnd : Moment) (day : Date) (now : Moment)
    (task : Task) : Except Failure (Option DayItem) :=
  if ∃ c ∈ task.completedAt, c < dayStart then .ok none
  else
    let doneHere := decide (∃ c ∈ task.completedAt, c < dayEnd)
    if task.HiddenOn day then .ok none
    else do
      let within ← withinDeadline zone day task
      if doneHere ∨ task.scheduledFor = some day ∨ within then
        (taskCtxChecked task day now).map fun ctx => some (.task ctx doneHere)
      else .ok none

/-- `day_items`. -/
def dayItemsChecked (zone : Zone) (db : Database) (day : Date) (now : Moment) :
    Except Failure (List DayItem) := do
  let dayStart ← localDayStart zone day
  let dayEnd ← localDayEnd zone day
  let rows ← (unarchivedTasks db).mapM (dayItemChecked zone dayStart dayEnd day now)
  return sortByKey DayItem.sortKey
    (rows.reduceOption ++ (db.calendarCache.filter fun e => e.date = day).map .event)

/-- What the journal's template is given. -/
structure DayPage where
  day : Date
  today : Date
  items : List DayItem
  rows : List HabitRow
  trackers : List TrackerRow
  metrics : List MetricRow
  badDay : Bool
  noteText : String

/-- The page that is rendered with the items of its day. -/
def pageOf (db : Database) (day today : Date) (items : List DayItem) : DayPage :=
  { day := day
    today := today
    items := items
    rows := habitRows db day
    trackers := trackerRows db day
    metrics := metricRows db day
    badDay := ((db.dailyState.lookup day).map DailyState.badDay).getD false
    noteText := ((db.dailyNotes.lookup day).map DailyNote.noteText).getD "" }

/-- `day`: the page of a date. -/
def dayPage (zone : Zone) (db : Database) (date : String) (now : Moment) :
    Except Failure DayPage := do
  let day ← parseDate date
  let today ← localDate zone now
  (if day ≠ today then dayItemsChecked zone db day now else .ok []).map (pageOf db day today)

/-! ## When they succeed -/

/-- The process's clock reads a moment that lies more than a week inside the calendar. -/
def ClockInRange (now : Moment) : Prop :=
  9 * dayLength ≤ now ∧ now < maxDay * dayLength

instance (now : Moment) : Decidable (ClockInRange now) := inferInstanceAs (Decidable (_ ∧ _))

/-- The loop asks for the local date on which the task was created: it has a deadline, was not
finished before the day began, and is not hidden. -/
def Task.AsksCreated (task : Task) (zone : Zone) (day : Date) : Prop :=
  (∀ c ∈ task.completedAt, localDayStartUtc zone day ≤ c) ∧ ¬ task.HiddenOn day ∧
    task.deadline.isSome = true

/-- The task was created at a moment that exists on the local clock. -/
def Task.CreatedInRange (task : Task) (zone : Zone) : Prop :=
  MomentExists (task.createdAt + zone.utcoffset task.createdAt)

section Checked

variable {zone : Zone} {db : Database} {day : Date} {now : Moment}

theorem taskCtxChecked_eq (hnow : ClockInRange now) (hday : day + 1 ≤ maxDay) (hpos : 1 ≤ day)
    (task : Task) : taskCtxChecked task day now = .ok (taskCtx task day now) := by
  have hstale : checkedMoment (now - daysToMicroseconds staleAfterDays) =
      .ok (now - daysToMicroseconds staleAfterDays) := by
    refine if_pos ⟨?_, ?_⟩
    · have : dayLength + daysToMicroseconds staleAfterDays ≤ 9 * dayLength := by decide
      linarith [hnow.1]
    · have : maxDay * dayLength ≤ (maxDay + 1) * dayLength + daysToMicroseconds staleAfterDays := by
        decide
      linarith [hnow.2]
  have hnext : checkedDay (day + 1) = .ok (day + 1) := if_pos ⟨by linarith, hday⟩
  rw [taskCtxChecked, hstale, hnext]
  split_ifs <;> rfl

/-- **The turn of a task** is the unchecked one if the local date of its creation exists, where that
is asked for. -/
theorem dayItemChecked_eq_ok (hnow : ClockInRange now) (hday : day + 1 ≤ maxDay) (hpos : 1 ≤ day)
    {task : Task} (h : task.AsksCreated zone day → task.CreatedInRange zone) :
    dayItemChecked zone (localDayStartUtc zone day) (localDayStartUtc zone (day + 1)) day now task =
      .ok (dayItem zone day now task) := by
  by_cases hearly : ∃ c ∈ task.completedAt, c < localDayStartUtc zone day
  · rw [dayItemChecked, dayItem, if_pos hearly, if_pos hearly]
  by_cases hhidden : task.HiddenOn day
  · rw [dayItemChecked, dayItem, if_neg hearly, if_neg hearly, if_pos hhidden, if_pos hhidden]
  have hstart : ∀ c ∈ task.completedAt, localDayStartUtc zone day ≤ c := fun c hc =>
    not_lt.mp fun hlt => hearly ⟨c, hc, hlt⟩
  have hwithin : withinDeadline zone day task =
      .ok (decide (task.deadline.isSome ∧ localDateOf zone task.createdAt ≤ day)) := by
    rw [withinDeadline]
    by_cases hdeadline : task.deadline.isSome = true
    · have hcreated : MomentExists (task.createdAt + zone.utcoffset task.createdAt) :=
        h ⟨hstart, hhidden, hdeadline⟩
      rw [if_pos hdeadline, localDate_eq_ok, if_pos hcreated]
      simp [hdeadline, Except.map]
    · rw [if_neg hdeadline]
      simp [hdeadline]
  rw [dayItemChecked, dayItem, if_neg hearly, if_neg hearly, hwithin,
    taskCtxChecked_eq hnow hday hpos]
  dsimp only
  rw [if_neg hhidden, if_neg hhidden]
  simp only [bind, Except.bind, decide_eq_true_eq]
  split_ifs <;> rfl

/-- A local date of creation that does not exist makes the turn raise. -/
theorem dayItemChecked_eq_error {task : Task} (hasks : task.AsksCreated zone day)
    (hcreated : ¬ task.CreatedInRange zone) :
    dayItemChecked zone (localDayStartUtc zone day) (localDayStartUtc zone (day + 1)) day now task =
      .error .raised := by
  obtain ⟨hstart, hhidden, hdeadline⟩ := hasks
  have hlocal : localDate zone task.createdAt = .error .raised := by
    rw [localDate_eq_ok]
    exact if_neg hcreated
  rw [dayItemChecked, if_neg fun ⟨c, hc, hlt⟩ => absurd (hstart c hc) (not_le.mpr hlt)]
  dsimp only
  rw [if_neg hhidden, withinDeadline, if_pos hdeadline, hlocal]
  rfl

/-- The local midnights of the day exist, and so does the local date of creation of every task that
is asked for it. -/
structure Listable (zone : Zone) (db : Database) (day : Date) : Prop where
  notLast : day ≠ maxDay
  notAhead : ¬ (day = 1 ∧ 0 < zone.wallOffset dayLength)
  created : ∀ task ∈ unarchivedTasks db, task.AsksCreated zone day → task.CreatedInRange zone

/-- The end of a day exists unless the day is the last one. -/
theorem localDayEnd_eq_ok (hzone : zone.OffsetsWithinADay) (hday : DayExists day)
    (hlast : day ≠ maxDay) :
    localDayEnd zone day = .ok (localDayStartUtc zone (day + 1)) := by
  have hnext : DayExists (day + 1) :=
    ⟨by linarith [hday.1], lt_of_le_of_ne hday.2 hlast⟩
  rw [localDayEnd, checkedDay, if_pos hnext]
  show localDayStart zone (day + 1) = _
  rw [localDayStart_eq_ok hzone hnext, if_neg]
  exact fun hfirst => absurd hfirst.1 (by linarith [hday.1])

/-- **The checked list is the unchecked one** on a day that can be listed. -/
theorem dayItemsChecked_eq_ok (hzone : zone.OffsetsWithinADay) (hnow : ClockInRange now)
    (hday : DayExists day) (h : Listable zone db day) :
    dayItemsChecked zone db day now = .ok (dayItems zone db day now) := by
  have hlt : day + 1 ≤ maxDay := lt_of_le_of_ne hday.2 h.notLast
  have hstart : localDayStart zone day = .ok (localDayStartUtc zone day) := by
    rw [localDayStart_eq_ok hzone hday, if_neg h.notAhead]
  have hend := localDayEnd_eq_ok hzone hday h.notLast
  have hrows : (unarchivedTasks db).mapM (dayItemChecked zone (localDayStartUtc zone day)
      (localDayStartUtc zone (day + 1)) day now) =
      .ok ((unarchivedTasks db).map (dayItem zone day now)) :=
    Fallible.mapM_eq_ok fun task htask =>
      dayItemChecked_eq_ok hnow hlt hday.1 (h.created task htask)
  have hreduce : ((unarchivedTasks db).map (dayItem zone day now)).reduceOption =
      (unarchivedTasks db).filterMap (dayItem zone day now) := by
    rw [List.reduceOption, List.filterMap_map]
    rfl
  simp only [dayItemsChecked, hstart, hend, hrows, bind, Except.bind, pure, Except.pure, hreduce,
    dayItems]

/-- A day that cannot be listed raises. -/
theorem dayItemsChecked_eq_error (hzone : zone.OffsetsWithinADay) (hnow : ClockInRange now)
    (hday : DayExists day) (h : ¬ Listable zone db day) :
    dayItemsChecked zone db day now = .error .raised := by
  rw [dayItemsChecked]
  by_cases hahead : day = 1 ∧ 0 < zone.wallOffset dayLength
  · rw [localDayStart_eq_ok hzone hday, if_pos hahead]
    rfl
  have hstart : localDayStart zone day = .ok (localDayStartUtc zone day) := by
    rw [localDayStart_eq_ok hzone hday, if_neg hahead]
  by_cases hlast : day = maxDay
  · have hend : localDayEnd zone day = .error .raised := by
      rw [localDayEnd, checkedDay, if_neg fun hexists => absurd hexists.2 (by rw [hlast]; decide)]
      rfl
    rw [hstart, hend]
    rfl
  have hend := localDayEnd_eq_ok hzone hday hlast
  have hlt : day + 1 ≤ maxDay := lt_of_le_of_ne hday.2 hlast
  have hrows : (unarchivedTasks db).mapM (dayItemChecked zone (localDayStartUtc zone day)
      (localDayStartUtc zone (day + 1)) day now) = .error .raised := by
    refine Fallible.mapM_eq_error (fun task _ => ?_) ?_
    · by_cases hturn : task.AsksCreated zone day → task.CreatedInRange zone
      · exact Or.inr ⟨_, dayItemChecked_eq_ok hnow hlt hday.1 hturn⟩
      · obtain ⟨hasks, hcreated⟩ := Classical.not_imp.mp hturn
        exact Or.inl (dayItemChecked_eq_error hasks hcreated)
    · by_contra hnone
      refine h ⟨hlast, hahead, fun task htask hasks => ?_⟩
      by_contra hcreated
      exact hnone ⟨task, htask, dayItemChecked_eq_error hasks hcreated⟩
  simp only [hstart, hend, hrows, bind, Except.bind]

/-! ## Which dates are served -/

/-- The page is served, or the request answers 404. -/
def ServedOrRefused (zone : Zone) (db : Database) (date : String) (now : Moment) : Prop :=
  (∃ page, dayPage zone db date now = .ok page) ∨ dayPage zone db date now = .error (.abort 404)

/-- The process's clock has a local date. -/
theorem localDate_of_clockInRange (hzone : zone.OffsetsWithinADay) (hnow : ClockInRange now) :
    localDate zone now = .ok (localDateOf zone now) := by
  obtain ⟨hlow, hhigh⟩ := hzone _ (PiecewiseOffset.offsetFrom_mem zone.initial zone.transitions now)
  have hexists : MomentExists (now + zone.utcoffset now) := by
    unfold Zone.utcoffset
    have hfirst : dayLength + dayLength ≤ 9 * dayLength := by decide
    have hlast : maxDay * dayLength + dayLength ≤ (maxDay + 1) * dayLength := by decide
    exact ⟨by linarith [hnow.1], by linarith [hnow.2]⟩
  rw [localDate_eq_ok, if_pos hexists]

theorem dayPage_eq (hzone : zone.OffsetsWithinADay) (hnow : ClockInRange now) {date : String}
    (hdate : fromisoformat date = some day) :
    dayPage zone db date now =
      (if day ≠ currentDate zone now then dayItemsChecked zone db day now else .ok []).map
        (pageOf db day (currentDate zone now)) := by
  have htoday : localDate zone now = .ok (currentDate zone now) :=
    localDate_of_clockInRange hzone hnow
  rw [dayPage, parseDate_eq_ok.mpr hdate, htoday]
  rfl

end Checked

/-- **Which dates are served.**  A date is served, or refused with 404, exactly when it is no date,
is today, or is a day that can be listed: it is not the last one, not the first one in a zone ahead
of UTC, and no task that is asked for its local creation date was created outside of the
calendar. -/
theorem servedOrRefused_iff (zone : Zone) (hzone : zone.OffsetsWithinADay) (db : Database)
    (now : Moment) (hnow : ClockInRange now) (date : String) :
    ServedOrRefused zone db date now ↔
      ∀ day, fromisoformat date = some day → day = currentDate zone now ∨ Listable zone db day := by
  unfold ServedOrRefused
  cases hdate : fromisoformat date with
  | none =>
    have habort : dayPage zone db date now = .error (.abort 404) := by
      rw [dayPage, parseDate, hdate]
      rfl
    exact iff_of_true (Or.inr habort) (by simp)
  | some day =>
    rw [dayPage_eq hzone hnow hdate]
    have hday := fromisoformat_mem hdate
    by_cases htoday : day = currentDate zone now
    · rw [if_neg (not_not.mpr htoday)]
      refine iff_of_true (Or.inl ⟨_, rfl⟩) fun day' h => ?_
      obtain rfl := Option.some.inj h
      exact Or.inl htoday
    rw [if_pos htoday]
    by_cases hlistable : Listable zone db day
    · rw [dayItemsChecked_eq_ok hzone hnow hday hlistable]
      refine iff_of_true (Or.inl ⟨_, rfl⟩) fun day' h => ?_
      obtain rfl := Option.some.inj h
      exact Or.inr hlistable
    · rw [dayItemsChecked_eq_error hzone hnow hday hlistable]
      exact iff_of_false (by simp [Except.map]) fun h => (h day rfl).elim htoday hlistable

/-- A zone an hour ahead of UTC. -/
def hourAhead : Zone := ⟨3600000000, [], spaced_nil⟩

theorem servedOrRefused_iff_firstDay :
    ServedOrRefused utcZone {} "0001-01-01" (739622 * dayLength) := by
  refine (servedOrRefused_iff utcZone ?_ {} (739622 * dayLength) (by decide) "0001-01-01").mpr ?_
  · intro o ho
    obtain rfl := List.mem_singleton.mp ho
    decide
  · intro day hday
    have hfirst : fromisoformat "0001-01-01" = some 1 := by decide
    obtain rfl := Option.some.inj (hfirst.symm.trans hday)
    exact Or.inr ⟨by decide, by decide, fun task htask => absurd htask (by simp [unarchivedTasks])⟩

/-- The last day of the calendar is not served, and neither is the first one in a zone ahead of
UTC. -/
theorem not_servedOrRefused_lastDay :
    ¬ ServedOrRefused utcZone {} "9999-12-31" (739622 * dayLength) ∧
      ¬ ServedOrRefused hourAhead {} "0001-01-01" (739622 * dayLength) := by
  have hlast : dayPage utcZone {} "9999-12-31" (739622 * dayLength) = .error .raised := rfl
  have hfirst : dayPage hourAhead {} "0001-01-01" (739622 * dayLength) = .error .raised := rfl
  unfold ServedOrRefused
  rw [hlast, hfirst]
  simp

end EpsCloud

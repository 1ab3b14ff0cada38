import EpsCloud.Routes.Ordering

/-!
# Events and timed tasks on one scale

A task carries the wall-clock time the user gave it, while an event carries an
instant, and the driver writes that instant with an offset of its own choice, that
of the connection.  `default_key` reads the hour and the minute the event is
written with, not the ones that the user's zone shows.

* `onLocalScale_iff`: an event stands among the timed tasks by its local minute
  exactly when the offset it is returned with shows the local minute of the day.
* `orderedByLocalTime_iff`: it stands by its local time, to the microsecond, exactly
  when moreover no task of the same minute is later, since the scale has no seconds
  and the tasks are fetched first.
* `showsLocalMinute_iff_of_wholeMinutes`: for offsets of whole minutes, exactly when
  the two offsets differ by whole days, if at all.
-/

namespace EpsCloud

open KeySort

/-! ## The local clock -/

/-- The time of the day that the zone's clock shows at a moment, in microseconds. -/
def Zone.timeOfDay (zone : Zone) (moment : Moment) : ℤ :=
  (moment + zone.utcoffset moment) % dayLength

/-- The minute of the day that the zone's clock shows at a moment. -/
def Zone.minuteOfDay (zone : Zone) (moment : Moment) : ℤ := zone.timeOfDay moment / 60000000

theorem Zone.timeOfDay_nonneg (zone : Zone) (moment : Moment) : 0 ≤ zone.timeOfDay moment :=
  Int.emod_nonneg _ dayLength_pos.ne'

theorem Zone.timeOfDay_lt (zone : Zone) (moment : Moment) :
    (zone.timeOfDay moment).toNat < 86400000000 := by
  have hlt : zone.timeOfDay moment < 86400000000 := Int.emod_lt_of_pos _ dayLength_pos
  have hnonneg := zone.timeOfDay_nonneg moment
  omega

theorem hour_lt {clock : ℕ} (h : clock < 86400000000) : clock / 3600000000 < 24 :=
  Nat.div_lt_of_lt_mul h

/-- The local wall-clock time of a moment. -/
def Zone.wallClock (zone : Zone) (moment : Moment) : TimeOfDay where
  hour := ⟨(zone.timeOfDay moment).toNat / 3600000000, hour_lt (zone.timeOfDay_lt moment)⟩
  minute := ⟨(zone.timeOfDay moment).toNat / 60000000 % 60, Nat.mod_lt _ (Nat.zero_lt_succ 59)⟩
  second := ⟨(zone.timeOfDay moment).toNat / 1000000 % 60, Nat.mod_lt _ (Nat.zero_lt_succ 59)⟩
  microsecond :=
    ⟨(zone.timeOfDay moment).toNat % 1000000, Nat.mod_lt _ (Nat.zero_lt_succ 999999)⟩

/-- The wall-clock time is the time that the clock shows, and nothing is rounded. -/
theorem microseconds_wallClock (zone : Zone) (moment : Moment) :
    (zone.wallClock moment).microseconds = zone.timeOfDay moment := by
  have hnonneg := zone.timeOfDay_nonneg moment
  rw [TimeOfDay.microseconds, TimeOfDay.minutes, Zone.wallClock]
  dsimp only
  omega

theorem minutes_wallClock (zone : Zone) (moment : Moment) :
    (zone.wallClock moment).minutes = zone.minuteOfDay moment := by
  rw [← TimeOfDay.microseconds_ediv, microseconds_wallClock, Zone.minuteOfDay]

/-! ## Rows with a time -/

/-- The scheduled time of a task row that has no manual key. -/
def Row.scheduledTime? : Row → Option TimeOfDay
  | .task ctx => if ctx.task.sortOrder = none then ctx.task.scheduledTime else none
  | _ => none

/-- The scheduled minute of a task row that has no manual key. -/
def Row.scheduledMinute? (row : Row) : Option ℤ := row.scheduledTime?.map TimeOfDay.minutes

/-- The event and the timed tasks are ordered by their local times: it has the key of a task that
is scheduled at its local wall-clock time, and on every day list it comes after no later and before
no earlier task. -/
structure OnLocalScale (zone : Zone) (event : CalendarEvent) : Prop where
  key : ∀ ctx : TaskCtx,
    ctx.task.scheduledTime = some (zone.wallClock event.startAt.instant) →
      defaultKey (.event event) = defaultKey (.task ctx)
  order : ∀ (db : Database) (today : Date) (now : Moment),
    (dayList db today now).Pairwise fun a b =>
      (a = .event event → ∀ minute ∈ b.scheduledMinute?,
        zone.minuteOfDay event.startAt.instant ≤ minute) ∧
      (b = .event event → ∀ minute ∈ a.scheduledMinute?,
        minute ≤ zone.minuteOfDay event.startAt.instant)

/-- In these rows the event and the timed tasks stand in the order of their local times. -/
def OrderedByLocalTime (zone : Zone) (event : CalendarEvent) (rows : List Row) : Prop :=
  rows.Pairwise fun a b =>
    (a = .event event → ∀ time ∈ b.scheduledTime?,
      zone.timeOfDay event.startAt.instant ≤ time.microseconds) ∧
    (b = .event event → ∀ time ∈ a.scheduledTime?,
      time.microseconds ≤ zone.timeOfDay event.startAt.instant)

/-- When the event is among the rows, no timed task of the same minute is later than the event. -/
def NoneLaterInMinute (zone : Zone) (event : CalendarEvent) (rows : List Row) : Prop :=
  .event event ∈ rows → ∀ row ∈ rows, ∀ time ∈ row.scheduledTime?,
    time.minutes = zone.minuteOfDay event.startAt.instant →
      time.microseconds ≤ zone.timeOfDay event.startAt.instant

/-- The time is written with the hour and the minute that the zone's clock shows. -/
def AwareTime.ShowsLocalMinute (t : AwareTime) (zone : Zone) : Prop :=
  (t.instant + t.offset) / 60000000 ≡ (t.instant + zone.utcoffset t.instant) / 60000000
    [ZMOD 1440]

/-! ## Minutes of the day -/

/-- The minute of the day is the number of minutes, up to whole days. -/
theorem minute_of_day (wall : ℤ) : wall % dayLength / 60000000 = wall / 60000000 % 1440 := by
  rw [dayLength]
  omega

theorem showsLocalMinute_iff {t : AwareTime} {zone : Zone} :
    t.ShowsLocalMinute zone ↔ t.minuteOfDay = zone.minuteOfDay t.instant := by
  rw [AwareTime.minuteOfDay, Zone.minuteOfDay, Zone.timeOfDay, minute_of_day, minute_of_day]
  exact Iff.rfl

/-- **For offsets of whole minutes** the two clocks show the same minute of the day exactly when
the offsets differ by whole days. -/
theorem showsLocalMinute_iff_of_wholeMinutes {t : AwareTime} {zone : Zone}
    (hoffset : 60000000 ∣ t.offset) (hzone : 60000000 ∣ zone.utcoffset t.instant) :
    t.ShowsLocalMinute zone ↔ dayLength ∣ t.offset - zone.utcoffset t.instant := by
  obtain ⟨a, ha⟩ := hoffset
  obtain ⟨b, hb⟩ := hzone
  rw [AwareTime.ShowsLocalMinute, ha, hb, Int.add_mul_ediv_left _ _ (by norm_num),
    Int.add_mul_ediv_left _ _ (by norm_num), Int.ModEq, dayLength]
  omega

/-! ## The scale -/

theorem defaultKey_task_of_scheduled (ctx : TaskCtx) {time : TimeOfDay}
    (h : ctx.task.scheduledTime = some time) :
    defaultKey (.task ctx) = bandTimed + time.minutes := by
  rw [defaultKey, h, TimeOfDay.minutes]
  exact add_assoc _ _ _

/-- A timed task without a manual key stands at its minute. -/
theorem effectiveKey_of_scheduledTime {row : Row} {time : TimeOfDay}
    (h : time ∈ row.scheduledTime?) : effectiveKey row = bandTimed + time.minutes := by
  cases row with
  | event event => exact absurd h (by simp [Row.scheduledTime?])
  | tracker tracker state status => exact absurd h (by simp [Row.scheduledTime?])
  | task ctx =>
    rw [Row.scheduledTime?] at h
    split_ifs at h with hkey
    · rw [effectiveKey, hkey]
      exact defaultKey_task_of_scheduled _ h
    · exact absurd h (by simp)

theorem effectiveKey_of_scheduledMinute {row : Row} {minute : ℤ}
    (h : minute ∈ row.scheduledMinute?) : effectiveKey row = bandTimed + minute := by
  obtain ⟨time, htime, rfl⟩ := Option.map_eq_some_iff.mp h
  exact effectiveKey_of_scheduledTime htime

/-- **When an event stands at its local minute.** -/
theorem onLocalScale_iff (zone : Zone) (event : CalendarEvent) :
    OnLocalScale zone event ↔ event.startAt.ShowsLocalMinute zone := by
  rw [showsLocalMinute_iff]
  constructor
  · intro h
    let task : Task :=
      { id := 0, name := "", scheduledTime := some (zone.wallClock event.startAt.instant),
        lastUserInteractionAt := 0, createdAt := 0 }
    have hkey := h.key (taskCtx task 0 0) rfl
    rw [defaultKey_task_of_scheduled (taskCtx task 0 0) rfl, minutes_wallClock,
      defaultKey] at hkey
    exact add_left_cancel hkey
  · intro h
    have hevent : effectiveKey (.event event) =
        bandTimed + zone.minuteOfDay event.startAt.instant := by
      rw [effectiveKey, defaultKey, h]
    refine ⟨fun ctx htime => ?_, fun db today now => ?_⟩
    · rw [defaultKey_task_of_scheduled _ htime, minutes_wallClock]
      exact hevent
    · rw [dayList_eq]
      refine (pairwise_sortByKey effectiveKey _).imp fun {a b} hab => ⟨?_, ?_⟩
      · rintro rfl minute hminute
        rw [hevent, effectiveKey_of_scheduledMinute hminute] at hab
        exact le_of_add_le_add_left hab
      · rintro rfl minute hminute
        rw [hevent, effectiveKey_of_scheduledMinute hminute] at hab
        exact le_of_add_le_add_left hab

/-! ## Inside one minute -/

/-- The tasks are fetched before the events. -/
theorem pairwise_baseRows (db : Database) (today : Date) (now : Moment) :
    (baseRows db today now).Pairwise fun a b =>
      ∀ event, a = .event event → b.scheduledTime? = none := by
  have hlater : ∀ row ∈ (db.calendarCache.filter fun e => e.date = today).map Row.event ++
      (activeTrackers db).filterMap (dayTracker db today), row.scheduledTime? = none := by
    intro row hrow
    rcases List.mem_append.mp hrow with hrow | hrow
    · obtain ⟨event, -, rfl⟩ := List.mem_map.mp hrow
      rfl
    · obtain ⟨tracker, -, hrow⟩ := List.mem_filterMap.mp hrow
      rw [dayTracker] at hrow
      split at hrow
      · cases hrow
      · split_ifs at hrow
        · obtain ⟨status, -, rfl⟩ := Option.map_eq_some_iff.mp hrow
          rfl
  rw [baseRows, List.append_assoc, List.pairwise_append]
  refine ⟨?_, ?_, fun _ _ b hb _ _ => hlater b hb⟩
  · refine List.pairwise_of_forall_mem_list fun a ha _ _ event heq => ?_
    obtain ⟨task, -, htask⟩ := List.mem_filterMap.mp ha
    obtain ⟨ctx, -, rfl⟩ := Option.map_eq_some_iff.mp htask
    cases heq
  · exact List.pairwise_of_forall_mem_list fun _ _ b hb _ _ => hlater b hb

/-- The rows of a day list, with the key of the event's local minute: a timed task stands before
the event when its minute is not later. -/
theorem pairwise_dayList (db : Database) (today : Date) (now : Moment) :
    (dayList db today now).Pairwise fun a b =>
      effectiveKey a < effectiveKey b ∨ (effectiveKey a = effectiveKey b ∧
        ∀ event, a = .event event → b.scheduledTime? = none) := by
  rw [dayList_eq]
  exact pairwise_sortByKey_stable effectiveKey (pairwise_baseRows db today now)

section InOneMinute

variable {zone : Zone} {event : CalendarEvent} {db : Database} {today : Date} {now : Moment}

theorem microseconds_lt_of_minutes_lt {time : TimeOfDay} {moment : Moment}
    (h : time.minutes < zone.minuteOfDay moment) : time.microseconds < zone.timeOfDay moment := by
  rw [← time.microseconds_ediv, Zone.minuteOfDay] at h
  exact lt_of_not_ge fun hle => absurd (Int.ediv_le_ediv (by norm_num) hle) (not_le.mpr h)

theorem timeOfDay_lt_of_minutes_lt {time : TimeOfDay} {moment : Moment}
    (h : zone.minuteOfDay moment < time.minutes) : zone.timeOfDay moment < time.microseconds := by
  rw [← time.microseconds_ediv, Zone.minuteOfDay] at h
  exact lt_of_not_ge fun hle => absurd (Int.ediv_le_ediv (by norm_num) hle) (not_le.mpr h)

theorem noneLaterInMinute_of_ordered (hshows : event.startAt.minuteOfDay =
    zone.minuteOfDay event.startAt.instant)
    (h : OrderedByLocalTime zone event (dayList db today now)) :
    NoneLaterInMinute zone event (dayList db today now) := by
  intro hevent row hrow time htime hminute
  have hkeys : effectiveKey (.event event) = effectiveKey row := by
    rw [effectiveKey_of_scheduledTime htime, hminute, effectiveKey, defaultKey, hshows]
  have hne : Row.event event ≠ row := by
    rintro rfl
    cases htime
  rcases or_of_pairwise (h.and (pairwise_dayList db today now)) hevent hrow hne with hab | hba
  · rcases hab.2 with hlt | ⟨-, hnone⟩
    · exact absurd hkeys hlt.ne
    · rw [hnone event rfl] at htime
      cases htime
  · exact hba.1.2 rfl time htime

theorem ordered_of_noneLaterInMinute (hshows : event.startAt.minuteOfDay =
    zone.minuteOfDay event.startAt.instant)
    (h : NoneLaterInMinute zone event (dayList db today now)) :
    OrderedByLocalTime zone event (dayList db today now) := by
  have hkey : effectiveKey (.event event) =
      bandTimed + zone.minuteOfDay event.startAt.instant := by
    rw [effectiveKey, defaultKey, hshows]
  refine (pairwise_dayList db today now).imp_of_mem fun {a b} ha hb hab => ⟨?_, ?_⟩
  · rintro rfl time htime
    rw [hkey, effectiveKey_of_scheduledTime htime] at hab
    rcases hab with hlt | ⟨-, hnone⟩
    · exact (timeOfDay_lt_of_minutes_lt (lt_of_add_lt_add_left hlt)).le
    · rw [hnone event rfl] at htime
      cases htime
  · rintro rfl time htime
    rw [hkey, effectiveKey_of_scheduledTime htime] at hab
    rcases hab with hlt | ⟨heq, -⟩
    · exact (microseconds_lt_of_minutes_lt (lt_of_add_lt_add_left hlt)).le
    · exact h hb a ha time htime (add_left_cancel heq)

end InOneMinute

/-- **When an event stands at its local time.**  It shares the scale with the timed tasks, and
stands among those of a day list by its local time to the microsecond, exactly when the offset it
is returned with shows the local minute and no task of that minute is later than the event. -/
theorem orderedByLocalTime_iff (zone : Zone) (event : CalendarEvent) (db : Database) (today : Date)
    (now : Moment) :
    OnLocalScale zone event ∧ OrderedByLocalTime zone event (dayList db today now) ↔
      event.startAt.ShowsLocalMinute zone ∧
        NoneLaterInMinute zone event (dayList db today now) := by
  rw [onLocalScale_iff]
  refine and_congr_right fun hshows => ?_
  rw [showsLocalMinute_iff] at hshows
  exact ⟨noneLaterInMinute_of_ordered hshows, ordered_of_noneLaterInMinute hshows⟩

/-- Berlin in the winter. -/
def berlinWinter : Zone := ⟨3600000000, [], spaced_nil⟩

/-- A meeting at 09:00 in Berlin on 2026-01-06, returned through a connection in UTC. -/
def nineInBerlin : CalendarEvent :=
  { eventId := "e1", startAt := ⟨739622 * dayLength + 8 * 3600000000, 0⟩, date := 739622 }

/-- The meeting has the key of 08:00. -/
theorem not_onLocalScale_nineInBerlin : ¬ OnLocalScale berlinWinter nineInBerlin := by
  intro h
  let task : Task :=
    { id := 1, name := "stretch", scheduledFor := some 739622,
      scheduledTime := some (timeAt 9 0 (by decide)), lastUserInteractionAt := 0, createdAt := 0 }
  exact absurd (h.key (taskCtx task 739622 0) (by decide)) (by decide)

end EpsCloud

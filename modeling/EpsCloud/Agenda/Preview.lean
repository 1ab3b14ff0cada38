import EpsCloud.Agenda.Coverage
import EpsCloud.Routes.DayView
import EpsCloud.Routes.Ordering

/-!
# The preview of a coming day

`build_agenda` groups the week ahead by day, `day_items` lists a day for the
journal, and `day_list` is the agenda of that day once it has come.  The three
select their tasks by different tests and sort them by different keys.  On the
tasks that are previewed they agree, ties included, as each of the sorts is
stable and each of the queries returns the tasks in the same order.

* `previewed_dayItems`, `previewed_dayList`: the previewed tasks among the rows of
  the day's page and among those of its day list, as sorted lists of tasks.
* `groups_of_day`: the group of a day.
* `preview_agrees`: the preview agrees with the day's own page, and, while no task
  changes, with the agenda of that day.
-/

namespace EpsCloud

open KeySort Grouping Selection

/-- The local clock is never set back by more than a day. -/
def Zone.SetBackByADayAtMost (zone : Zone) : Prop :=
  ∀ m m' : Moment, m ≤ m' → m + zone.utcoffset m ≤ m' + zone.utcoffset m' + dayLength

/-- The task is one that the agenda of `today` previews under `day`: open, not vital, not overdue,
not hidden by a reminder, and planned for that day, or due on it if it is not planned. -/
def Task.PreviewedOn (task : Task) (today day : Date) : Prop :=
  (task.archivedAt = none ∧ task.completedAt = none) ∧ task.vital = false ∧
    overdueDays task today = 0 ∧ ¬ task.HiddenOn today ∧ task.day = some day

instance (task : Task) (today day : Date) : Decidable (task.PreviewedOn today day) :=
  inferInstanceAs (Decidable (_ ∧ _))

/-- The task of a row of the day's page. -/
def DayItem.task? : DayItem → Option Task
  | .task ctx _ => some ctx.task
  | .event _ => none

/-- The tasks of a day's page, in its order. -/
def tasksOfItems (items : List DayItem) : List Task := items.filterMap DayItem.task?

/-- The previewed tasks of a day, in the order in which the day's page lists them. -/
def previewedItems (zone : Zone) (db : Database) (today day : Date) (now : Moment) : List Task :=
  (tasksOfItems (dayItems zone db day now)).filter (Task.PreviewedOn · today day)

/-- The preview of a coming day agrees with that day's own page. -/
structure PreviewAgrees (zone : Zone) (db : Database) (today day : Date) (now : Moment) :
    Prop where
  /-- the page lists every previewed task, once -/
  listed : (previewedItems zone db today day now).Perm
    (db.tasks.filter (Task.PreviewedOn · today day))
  /-- the group shows the first of them, in the order of the page -/
  group : ((buildAgenda zone db today now).upcoming.filter fun g => g.date = day).map
      (fun g => g.rows.map TaskCtx.task) =
    if previewedItems zone db today day now = [] then []
    else [(previewedItems zone db today day now).take upcomingPerDay]
  /-- shown and hidden ones are all of them -/
  total : ∀ g ∈ (buildAgenda zone db today now).upcoming, g.date = day →
    g.rows.length + g.hidden = (db.tasks.filter (Task.PreviewedOn · today day)).length
  /-- on the day itself, those past their deadline by then are in the overdue block -/
  overdue : ∀ (later : Database) (moment : Moment), later.tasks = db.tasks →
    ∀ task ∈ previewedItems zone db today day now, overdueDays task day ≠ 0 →
      task ∈ (buildAgenda zone later day moment).overdue.map TaskCtx.task
  /-- and the others in the day list, in the same order -/
  day : ∀ (later : Database) (moment : Moment), later.tasks = db.tasks →
    (tasksOf (buildAgenda zone later day moment).day).filter
        (fun task => task.PreviewedOn today day ∧ overdueDays task day = 0) =
      (previewedItems zone db today day now).filter fun task => overdueDays task day = 0

/-! ## The key of a task -/

/-- The key of a task's row on any day. -/
def Task.agendaKey (task : Task) : ℤ := effectiveKey (.task (taskCtx task 0 0))

theorem effectiveKey_task (ctx : TaskCtx) : effectiveKey (.task ctx) = ctx.task.agendaKey := rfl

/-! ## A previewed task on its own day -/

theorem Task.HiddenOn.mono {task : Task} {today day : Date} (hday : today ≤ day)
    (h : task.HiddenOn day) : task.HiddenOn today := by
  obtain ⟨r, hr, hlt⟩ := h
  exact ⟨r, hr, hday.trans_lt hlt⟩

/-- A task that was there at `now` was there on the days from tomorrow on. -/
theorem localDateOf_le {zone : Zone} (hzone : zone.SetBackByADayAtMost) {m now : Moment}
    (hm : m ≤ now) {day : Date} (hday : currentDate zone now < day) : localDateOf zone m ≤ day := by
  have hle : localDateOf zone m ≤ currentDate zone now + 1 := by
    have hstep := Int.ediv_le_ediv dayLength_pos (hzone m now hm)
    rwa [Int.add_ediv_of_dvd_right (dvd_refl _), Int.ediv_self dayLength_pos.ne'] at hstep
  exact hle.trans hday

/-- **The page of the day lists a previewed task**, as not done there. -/
theorem dayItem_of_previewedOn {zone : Zone} (hzone : zone.SetBackByADayAtMost)
    {task : Task} {now moment : Moment} {day : Date} (hcreated : task.createdAt ≤ now)
    (hday : currentDate zone now < day) (h : task.PreviewedOn (currentDate zone now) day) :
    dayItem zone day moment task = some (.task (taskCtx task day moment) false) := by
  obtain ⟨⟨-, hopen⟩, -, -, hhidden, honDay⟩ := h
  refine dayItem_eq_some.mpr ⟨?_, fun hhid => hhidden (hhid.mono hday.le), Or.inr ⟨?_, ?_⟩, ?_⟩
  · simp [hopen]
  · exact fun hhid => hhidden (hhid.mono hday.le)
  · rw [Task.day, Option.or_eq_some_iff] at honDay
    rcases honDay with hplanned | ⟨-, hdue⟩
    · exact Or.inl hplanned
    · exact Or.inr ⟨by simp [hdue], localDateOf_le hzone hcreated hday⟩
  · simp [hopen]

/-- **The day list of the day has a previewed task** that is not past its deadline by then. -/
theorem dayTask_of_previewedOn {task : Task} {today day : Date} {moment : Moment}
    (hday : today < day) (h : task.PreviewedOn today day) (hover : overdueDays task day = 0) :
    dayTask day moment task = some (taskCtx task day moment) := by
  obtain ⟨-, -, -, hhidden, honDay⟩ := h
  exact dayTask_eq_some.mpr ⟨⟨fun hhid => hhidden (hhid.mono hday.le), hover, Or.inl honDay⟩, rfl⟩

/-! ## The previewed tasks among the rows -/

/-- **The previewed tasks of the day's page**, as a sorted list of tasks. -/
theorem previewed_dayItems {zone : Zone} (hzone : zone.SetBackByADayAtMost) {db : Database}
    {now : Moment} (hcreated : ∀ task ∈ db.tasks, task.createdAt ≤ now) {day : Date}
    (hday : currentDate zone now < day) :
    previewedItems zone db (currentDate zone now) day now =
      sortByKey Task.agendaKey
        (db.tasks.filter (Task.PreviewedOn · (currentDate zone now) day)) := by
  let p : Task → Bool := fun task => task.PreviewedOn (currentDate zone now) day
  let row : Task → DayItem := fun task => .task (taskCtx task day now) false
  have htasks : ((unarchivedTasks db).filterMap (dayItem zone day now)).filter
      (fun item => item.task?.any p) = (db.tasks.filter p).map row := by
    rw [filter_filterMap_eq_map row]
    · rw [unarchivedTasks, List.filter_filter]
      refine congrArg (List.map row) (List.filter_congr fun task _ => ?_)
      rw [Bool.eq_iff_iff, Bool.and_eq_true, Option.isNone_iff_eq_none, decide_eq_true_eq]
      exact ⟨fun h => h.1, fun h => ⟨h, h.1.1⟩⟩
    · intro task item hitem
      obtain ⟨-, -, -, rfl⟩ := dayItem_eq_some.mp hitem
      rfl
    · intro task htask hp
      exact dayItem_of_previewedOn hzone (hcreated task (mem_unarchivedTasks.mp htask).1) hday
        (of_decide_eq_true hp)
  have hevents : ((db.calendarCache.filter fun e => e.date = day).map DayItem.event).filter
      (fun item => item.task?.any p) = [] := by
    rw [List.filter_map]
    exact List.map_eq_nil_iff.mpr (List.filter_eq_nil_iff.mpr fun e _ => by simp [DayItem.task?])
  have hbase : ((unarchivedTasks db).filterMap (dayItem zone day now) ++
      (db.calendarCache.filter fun e => e.date = day).map DayItem.event).filter
      (fun item => item.task?.any p) = (db.tasks.filter p).map row := by
    rw [List.filter_append, htasks, hevents, List.append_nil]
  refine (filter_items_sortByKey row hbase fun _ => rfl).trans ?_
  exact sortByKey_strictMono (e := fun k : ℤ => toLex (false, k))
    (fun _ _ h => Prod.Lex.toLex_lt_toLex.mpr (Or.inr ⟨rfl, h⟩)) Task.agendaKey _

/-- The task of a row of the day list. -/
def Row.task? : Row → Option Task
  | .task ctx => some ctx.task
  | _ => none

/-- **The previewed tasks of the day list**, as a sorted list of tasks. -/
theorem previewed_dayList (later : Database) {today day : Date} (moment : Moment)
    (hday : today < day) :
    (tasksOf (dayList later day moment)).filter
        (fun task => task.PreviewedOn today day ∧ overdueDays task day = 0) =
      sortByKey Task.agendaKey
        (later.tasks.filter fun task => task.PreviewedOn today day ∧ overdueDays task day = 0) := by
  let p : Task → Bool := fun task => task.PreviewedOn today day ∧ overdueDays task day = 0
  let row : Task → Row := fun task => .task (taskCtx task day moment)
  have htasks : ((openTasks later.tasks).filterMap
      fun t => (dayTask day moment t).map Row.task).filter (fun r => r.task?.any p) =
      (later.tasks.filter p).map row := by
    rw [filter_filterMap_eq_map row]
    · rw [openTasks, List.filter_filter]
      refine congrArg (List.map row) (List.filter_congr fun task _ => ?_)
      rw [Bool.eq_iff_iff, Bool.and_eq_true, Bool.and_eq_true, Option.isNone_iff_eq_none,
        Option.isNone_iff_eq_none, decide_eq_true_eq]
      exact ⟨fun h => h.1, fun h => ⟨h, h.1.1⟩⟩
    · intro task r hr
      obtain ⟨ctx, hctx, rfl⟩ := Option.map_eq_some_iff.mp hr
      rw [← (dayTask_eq_some.mp hctx).2]
      rfl
    · intro task _ hp
      obtain ⟨hpreviewed, hover⟩ := of_decide_eq_true hp
      rw [dayTask_of_previewedOn hday hpreviewed hover]
      rfl
  have hevents : ((later.calendarCache.filter fun e => e.date = day).map Row.event).filter
      (fun r => r.task?.any p) = [] := by
    rw [List.filter_map]
    exact List.map_eq_nil_iff.mpr (List.filter_eq_nil_iff.mpr fun e _ => by simp [Row.task?])
  have htrackers : ((activeTrackers later).filterMap (dayTracker later day)).filter
      (fun r => r.task?.any p) = [] := by
    refine List.filter_eq_nil_iff.mpr fun r hr => ?_
    obtain ⟨tracker, -, hrow⟩ := List.mem_filterMap.mp hr
    rw [dayTracker] at hrow
    split at hrow
    · cases hrow
    · split_ifs at hrow
      obtain ⟨status, -, rfl⟩ := Option.map_eq_some_iff.mp hrow
      simp [Row.task?]
  have hbase : (baseRows later day moment).filter (fun r => r.task?.any p) =
      (later.tasks.filter p).map row := by
    rw [baseRows, List.filter_append, List.filter_append, htasks, hevents, htrackers,
      List.append_nil, List.append_nil]
  exact filter_items_sortByKey row hbase fun _ => rfl

/-! ## The group of a day -/

/-- The tasks that `build_agenda` collects under a day of the coming week. -/
theorem previewed_valuesOf (tasks : List Task) (now : Moment) {today day : Date}
    (hday : today < day ∧ day ≤ today + upcomingDays) :
    (valuesOf day ((openTasks tasks).filterMap (upcomingTask today now))).map TaskCtx.task =
      tasks.filter (Task.PreviewedOn · today day) := by
  rw [tasks_of_valuesOf, openTasks, List.filter_filter]
  refine List.filter_congr fun task _ => ?_
  rw [Bool.eq_iff_iff, Bool.and_eq_true, Bool.and_eq_true, Option.isNone_iff_eq_none,
    Option.isNone_iff_eq_none, decide_eq_true_eq, Task.PreviewedOn, Option.any_eq_true]
  simp only [decide_eq_true_eq]
  constructor
  · rintro ⟨⟨row, hrow, rfl⟩, hopen⟩
    obtain ⟨⟨hhidden, hover, hvital, honDay, -⟩, -⟩ := upcomingTask_eq_some.mp hrow
    exact ⟨hopen, hvital, hover, hhidden, honDay⟩
  · rintro ⟨hopen, hvital, hover, hhidden, honDay⟩
    have hrow : upcomingTask today now task = some (day, taskCtx task today now) :=
      upcomingTask_eq_some.mpr ⟨⟨hhidden, hover, hvital, honDay, hday⟩, rfl⟩
    exact ⟨⟨_, hrow, rfl⟩, hopen⟩

/-- **The group of a day.** -/
theorem groups_of_day (zone : Zone) (db : Database) (today day : Date) (now : Moment) :
    (buildAgenda zone db today now).upcoming.filter (fun g => g.date = day) =
      if valuesOf day ((openTasks db.tasks).filterMap (upcomingTask today now)) = [] then []
      else [upcomingGroup today
        (day, valuesOf day ((openTasks db.tasks).filterMap (upcomingTask today now)))] := by
  show ((sortByKey Prod.fst (upcomingByDay db.tasks today now)).map (upcomingGroup today)).filter
    _ = _
  rw [List.filter_map]
  show ((sortByKey Prod.fst _).filter fun g => g.1 = day).map _ = _
  rw [filter_sortByKey, upcomingByDay, filter_collect]
  split_ifs
  · rfl
  · rfl

/-- A group shows the first of its tasks by key. -/
theorem tasks_of_upcomingGroup (today : Date) (group : Date × List TaskCtx) :
    (upcomingGroup today group).rows.map TaskCtx.task =
      (sortByKey Task.agendaKey (group.2.map TaskCtx.task)).take upcomingPerDay := by
  rw [← map_sortByKey (fun ctx => effectiveKey (.task ctx)) Task.agendaKey
    fun ctx _ => (effectiveKey_task ctx).symm, ← List.map_take]
  rfl

/-! ## The preview and the day -/

/-- **The preview of a coming day agrees with that day's own page**, and while no task changes,
with the agenda of that day. -/
theorem preview_agrees (zone : Zone) (hzone : zone.SetBackByADayAtMost) (db : Database)
    (now : Moment) (hcreated : ∀ task ∈ db.tasks, task.createdAt ≤ now) (day : Date)
    (hday : currentDate zone now < day ∧ day ≤ currentDate zone now + upcomingDays) :
    PreviewAgrees zone db (currentDate zone now) day now := by
  have hitems := previewed_dayItems hzone hcreated hday.1
  have hrows := previewed_valuesOf db.tasks now hday
  have hmem : ∀ task ∈ previewedItems zone db (currentDate zone now) day now,
      task ∈ db.tasks ∧ task.PreviewedOn (currentDate zone now) day := by
    intro task htask
    rw [hitems, mem_sortByKey, List.mem_filter, decide_eq_true_eq] at htask
    exact htask
  refine ⟨?_, ?_, ?_, ?_, ?_⟩
  · rw [hitems]
    exact sortByKey_perm _ _
  · rw [groups_of_day, hitems, ← hrows]
    by_cases hnil : valuesOf day
        ((openTasks db.tasks).filterMap (upcomingTask (currentDate zone now) now)) = []
    · rw [if_pos hnil, hnil]
      rfl
    · have hsorted : sortByKey Task.agendaKey ((valuesOf day ((openTasks db.tasks).filterMap
          (upcomingTask (currentDate zone now) now))).map TaskCtx.task) ≠ [] := by
        intro h
        have hlen := congrArg List.length h
        rw [length_sortByKey, List.length_map, List.length_nil, List.length_eq_zero_iff] at hlen
        exact hnil hlen
      rw [if_neg hnil, if_neg hsorted, List.map_singleton, tasks_of_upcomingGroup]
  · intro g hg hgday
    have hgroup : g ∈ (buildAgenda zone db (currentDate zone now) now).upcoming.filter
        fun g => g.date = day := List.mem_filter.mpr ⟨hg, decide_eq_true hgday⟩
    rw [groups_of_day] at hgroup
    split_ifs at hgroup
    · exact absurd hgroup List.not_mem_nil
    · rw [List.mem_singleton] at hgroup
      subst hgroup
      obtain ⟨_, -, -, -, hlength⟩ := trimmedFrom_upcomingGroup (currentDate zone now) (day, _)
      rw [hlength, ← hrows, List.length_map]
  · intro later moment htasks task htask hover
    obtain ⟨hdb, ⟨hopen, -, -, hhidden, -⟩⟩ := hmem task htask
    have hselected : overdueTask day moment task = some (taskCtx task day moment) :=
      overdueTask_eq_some.mpr ⟨⟨fun hhid => hhidden (hhid.mono hday.1.le), hover⟩, rfl⟩
    refine (overdue_tasks_perm zone later day moment).mem_iff.mpr (List.mem_map.mpr ?_)
    refine ⟨_, List.mem_filterMap.mpr ⟨task, mem_openTasks.mpr ⟨?_, hopen⟩, hselected⟩, rfl⟩
    rw [htasks]
    exact hdb
  · intro later moment htasks
    have hlist := previewed_dayList later moment hday.1
    rw [hitems, filter_sortByKey, List.filter_filter, ← htasks]
    refine hlist.trans (congrArg (sortByKey Task.agendaKey) (List.filter_congr fun task _ => ?_))
    rw [Bool.decide_and, Bool.and_comm]

theorem setBackByADayAtMost_utcZone : utcZone.SetBackByADayAtMost := by
  intro m m' hle
  show m + 0 ≤ m' + 0 + dayLength
  linarith [dayLength_pos]

theorem sixInTheEvening : 18 < 24 ∧ 0 < 60 := by decide

/-- Four tasks for 2026-01-09: two by their planned day, two by their deadline. -/
def previewTasks : Database :=
  { tasks := [{ id := 1, name := "visit", scheduledFor := some 739625, lastUserInteractionAt := 0,
                createdAt := 0 },
              { id := 2, name := "renew card", deadline := some 739625, lastUserInteractionAt := 0,
                createdAt := 0 },
              { id := 3, name := "gym", scheduledFor := some 739625,
                scheduledTime := some (timeAt 18 0 sixInTheEvening), lastUserInteractionAt := 0,
                createdAt := 0 },
              { id := 4, name := "meter reading", scheduledFor := some 739625,
                deadline := some 739624, lastUserInteractionAt := 0, createdAt := 0 }] }

/-- Seen on 2026-01-06, the timed one comes first, and one of the others is hidden. -/
theorem preview_agrees_previewTasks :
    PreviewAgrees utcZone previewTasks (currentDate utcZone (739622 * dayLength)) 739625
      (739622 * dayLength) :=
  preview_agrees utcZone setBackByADayAtMost_utcZone previewTasks (739622 * dayLength)
    (by
      intro task htask
      simp only [previewTasks, List.mem_cons, List.not_mem_nil, or_false] at htask
      rcases htask with rfl | rfl | rfl | rfl <;> decide)
    739625 (by decide)

end EpsCloud

import EpsCloud.Routes.Forms

/-!
# The month grid

`app.routes.calendar` and the cells of `calendar.html`: the weeks of a month, a
summary of what is recorded on each of their days, and the marks that a cell
shows.

* `summarise_counts`, `countP_logs_ne_zero_iff`: what the counts of a day say about its
  entries.
* `mem_span_of_mem_gridWeeks`: every day of the grid is in the range that is summarised.
-/

namespace EpsCloud

/-! ## The weeks -/

/-- Whole weeks from a day on. -/
def gridWeeks (start : Date) (n : ℕ) : List (List Date) :=
  (List.range n).map fun week => (List.range 7).map fun day => start + (7 * week + day : ℕ)

/-- `monthdatescalendar`: the weeks from the Monday on or before the first of the month to the
Sunday on or after its last day. -/
def monthdatescalendar (year month : ℕ) : List (List Date) :=
  let first := ymd2ord year month 1
  let daysBefore := weekday first
  let daysAfter := (0 - weekday first - daysInMonth year month) % 7
  let length := daysBefore + daysInMonth year month + daysAfter
  gridWeeks (first - daysBefore) (length / 7).toNat

/-- `weeks[0][0]` -/
def gridFirst (weeks : List (List Date)) : Date := (weeks.headD []).headD 0

/-- `weeks[-1][-1]` -/
def gridLast (weeks : List (List Date)) : Date := (weeks.getLastD []).getLastD 0

/-! ## The summaries -/

/-- What one cell has to show.  Absent from the map means nothing happened. -/
structure DaySummary where
  passed : ℕ := 0
  failed : ℕ := 0
  badDay : Bool := false
  hasNote : Bool := false
  deriving DecidableEq, Repr

/-- An entry of the log, counted. -/
def DaySummary.count (log : HabitLog) (summary : DaySummary) : DaySummary :=
  if log.passed then { summary with passed := summary.passed + 1 }
  else { summary with failed := summary.failed + 1 }

/-- `summarise`: everything the grid needs, in three queries. -/
def summarise (py : TextParsers) (db : Database) (first last : Date) : Table Date DaySummary :=
  let between (day : Date) : Bool := first ≤ day ∧ day ≤ last
  let logs := db.habitLog.rows.filter fun e => between e.1.1
  let states := db.dailyState.rows.filter fun e => between e.1 ∧ e.2.badDay
  let notes := db.dailyNotes.rows.filter fun e => between e.1
  let days := logs.foldl (fun days e => days.upsert e.1.1 {} (DaySummary.count e.2)) ∅
  let days := states.foldl
    (fun days e => days.upsert e.1 {} fun summary => { summary with badDay := true }) days
  (notes.filter fun e => py.strip e.2.noteText ≠ "").foldl
    (fun days e => days.upsert e.1 {} fun summary => { summary with hasNote := true }) days

/-! ## The page -/

/-- `step_month`: the neighbouring month, rolling the year over. -/
def stepMonth (year month delta : ℤ) : ℤ × ℤ :=
  let shifted := year * 12 + month - 1 + delta
  (shifted / 12, shifted % 12 + 1)

/-- What the page is rendered from. -/
structure CalendarPage where
  weeks : List (List Date)
  days : Table Date DaySummary
  previous : ℤ × ℤ
  next : ℤ × ℤ

/-- `month`: the grid of a month, or a 404. -/
def calendarMonth (py : TextParsers) (db : Database) (year month : ℕ) :
    Except Failure CalendarPage :=
  if ¬ (1 ≤ month ∧ month ≤ 12) ∨ ¬ (1970 ≤ year ∧ year ≤ 2999) then .error (.abort 404)
  else
    let weeks := monthdatescalendar year month
    .ok
      { weeks := weeks
        days := summarise py db (gridFirst weeks) (gridLast weeks)
        previous := stepMonth year month (-1)
        next := stepMonth year month 1 }

/-- The dots of a cell. -/
inductive CalDot where
  | fail | pass | note
  deriving DecidableEq, Repr

/-- The `cal-marks` of a cell: a missed habit hides the kept ones. -/
def calMarks : Option DaySummary → List CalDot
  | none => []
  | some summary =>
    (if summary.failed ≠ 0 then [.fail] else if summary.passed ≠ 0 then [.pass] else []) ++
      if summary.hasNote then [.note] else []

/-! ## The range that is summarised -/

section Grid

variable (start : Date)

theorem gridFirst_gridWeeks (n : ℕ) : gridFirst (gridWeeks start (n + 1)) = start := by
  rw [gridWeeks, List.range_succ_eq_map]
  simp [gridFirst, List.range_succ_eq_map]

theorem gridLast_gridWeeks (n : ℕ) :
    gridLast (gridWeeks start (n + 1)) = start + (7 * n + 6 : ℕ) := by
  rw [gridWeeks, List.range_succ (n := n), List.map_append]
  simp [gridLast, List.range_succ]

/-- **The range covers the grid.** -/
theorem mem_span_of_mem_gridWeeks {n : ℕ} {d : Date} (h : d ∈ (gridWeeks start n).flatten) :
    gridFirst (gridWeeks start n) ≤ d ∧ d ≤ gridLast (gridWeeks start n) := by
  obtain ⟨_, hmem, hday⟩ := List.mem_flatten.mp h
  obtain ⟨week, hweek, rfl⟩ := List.mem_map.mp hmem
  obtain ⟨day, hday', rfl⟩ := List.mem_map.mp hday
  rw [List.mem_range] at hweek hday'
  cases n with
  | zero => exact absurd hweek (Nat.not_lt_zero _)
  | succ n =>
    rw [gridFirst_gridWeeks, gridLast_gridWeeks]
    constructor <;> lia

end Grid

/-! ## What the summary of a day says -/

theorem foldl_count (logs : List ((Date × ℕ) × HabitLog)) (summary : DaySummary) :
    logs.foldl (fun summary e => DaySummary.count e.2 summary) summary =
      { summary with
        passed := summary.passed + logs.countP fun e => e.2.passed
        failed := summary.failed + logs.countP fun e => !e.2.passed } := by
  induction logs generalizing summary with
  | nil => rfl
  | cons log logs ih =>
    rw [List.foldl_cons, ih]
    cases h : log.2.passed with
    | true => simp [DaySummary.count, h]; omega
    | false => simp [DaySummary.count, h]; omega

/-- A figure that no change of a fold touches. -/
theorem foldl_keeps {α ρ γ : Type} {f : ρ → α → ρ} (figure : ρ → γ) (xs : List α) (r : ρ)
    (h : ∀ r x, figure (f r x) = figure r) : figure (xs.foldl f r) = figure r := by
  induction xs generalizing r with
  | nil => rfl
  | cons x xs ih => rw [List.foldl_cons, ih, h]

/-- The counts of a day are those of its entries. -/
theorem summarise_counts (py : TextParsers) (db : Database) (first last d : Date) :
    let logs := (db.habitLog.rows.filter fun e => first ≤ e.1.1 ∧ e.1.1 ≤ last).filter
      fun e => e.1.1 = d
    let summary := ((summarise py db first last).lookup d).getD {}
    summary.passed = logs.countP (fun e => e.2.passed) ∧
      summary.failed = logs.countP fun e => !e.2.passed := by
  intro logs summary
  let counts (summary : DaySummary) : ℕ × ℕ := (summary.passed, summary.failed)
  have hcounts : counts summary =
      counts (logs.foldl (fun summary e => DaySummary.count e.2 summary) {}) := by
    simp only [summary, summarise, Table.getD_lookup_foldl_upsert]
    -- neither the bad day nor the note changes a count
    refine (foldl_keeps counts _ _ ?_).trans ((foldl_keeps counts _ _ ?_).trans rfl)
    · exact fun _ _ => rfl
    · exact fun _ _ => rfl
  rw [foldl_count] at hcounts
  simpa [counts] using hcounts

/-- In the summarised range, the count of failed or of passed entries of a day is positive exactly
when a streak has such an entry. -/
theorem countP_logs_ne_zero_iff (db : Database) {first last d : Date} (hd : first ≤ d ∧ d ≤ last)
    (b : Bool) :
    ((db.habitLog.rows.filter fun e => first ≤ e.1.1 ∧ e.1.1 ≤ last).filter
        fun e => e.1.1 = d).countP (fun e => e.2.passed == b) ≠ 0 ↔
      ∃ streakId, (db.habitLog.lookup (d, streakId)).map HabitLog.passed = some b := by
  rw [← Nat.pos_iff_ne_zero, List.countP_pos_iff]
  constructor
  · rintro ⟨⟨⟨day, streakId⟩, row⟩, hmem, hrow⟩
    obtain ⟨hlog, hday⟩ := List.mem_filter.mp hmem
    obtain rfl : day = d := of_decide_eq_true hday
    refine ⟨streakId, ?_⟩
    rw [Table.mem_rows.mp (List.mem_filter.mp hlog).1, Option.map_some]
    exact congrArg some (beq_iff_eq.mp hrow)
  · rintro ⟨streakId, h⟩
    obtain ⟨row, hrow, hb⟩ := Option.map_eq_some_iff.mp h
    refine ⟨((d, streakId), row), ?_, beq_iff_eq.mpr hb⟩
    rw [List.mem_filter, List.mem_filter]
    exact ⟨⟨Table.mem_rows.mpr hrow, decide_eq_true hd⟩, decide_eq_true rfl⟩

/-! ## What a cell shows -/

/-- A day without a summary shows what an empty one does. -/
theorem calMarks_getD (summary : Option DaySummary) :
    calMarks summary = calMarks (some (summary.getD {})) := by
  cases summary <;> rfl

theorem fail_mem_calMarks_iff (summary : DaySummary) :
    .fail ∈ calMarks (some summary) ↔ summary.failed ≠ 0 := by
  rw [calMarks]
  split_ifs <;> simp_all

theorem pass_mem_calMarks_iff (summary : DaySummary) :
    .pass ∈ calMarks (some summary) ↔ summary.failed = 0 ∧ summary.passed ≠ 0 := by
  rw [calMarks]
  split_ifs <;> simp_all

section Page

variable {py : TextParsers} {db : Database} {year month : ℕ} {page : CalendarPage} {d : Date}

/-- Some streak has this entry on a day. -/
def SomeEntry (db : Database) (d : Date) (passed : Bool) : Prop :=
  ∃ streakId, (db.habitLog.lookup (d, streakId)).map HabitLog.passed = some passed

/-- **What the marks of a cell say**: a failed entry shows, and hides the passed ones. -/
theorem calMarks_page (hpage : calendarMonth py db year month = .ok page)
    (hd : d ∈ page.weeks.flatten) :
    (.fail ∈ calMarks (page.days.lookup d) ↔ SomeEntry db d false) ∧
      (.pass ∈ calMarks (page.days.lookup d) ↔ ¬ SomeEntry db d false ∧ SomeEntry db d true) := by
  rw [calendarMonth] at hpage
  split_ifs at hpage
  cases hpage
  have hspan := mem_span_of_mem_gridWeeks _ hd
  obtain ⟨hpassed, hfailed⟩ := summarise_counts py db (gridFirst (monthdatescalendar year month))
    (gridLast (monthdatescalendar year month)) d
  have hpass := countP_logs_ne_zero_iff db hspan true
  have hfail := countP_logs_ne_zero_iff db hspan false
  simp only [beq_true, beq_false] at hpass hfail
  rw [calMarks_getD, fail_mem_calMarks_iff, pass_mem_calMarks_iff, hpassed, hfailed]
  refine ⟨hfail, ?_⟩
  rw [SomeEntry, SomeEntry, ← hfail, ← hpass, not_not]
  rfl

end Page

end EpsCloud

import EpsCloud.Routes.Ordering

/-!
# The default order of the day list

The order that the dashboard declares: first everything with a time, by the clock;
then the untimed tasks, vital ones first; then the trackers, due, soon, never done
and done; inside the last six classes by id.  `default_key` packs the class and
the id into one integer, the band of the class plus the id.  "The bands sit above"
the clock times, but an id can be as large as the distance to the next band.

* `follows_grammar_iff`: the default order is the declared one exactly when no id
  reaches over the distance between its band and a later one, and rows of one
  minute of the clock are fetched in the order of their times.
-/

namespace EpsCloud

open KeySort

/-! ## The declared order -/

/-- The classes of rows, in the order that they are declared in. -/
inductive RowClass where
  | timed | vital | untimed | due | soon | never | done
  deriving DecidableEq, Repr

def RowClass.rank : RowClass → ℕ
  | .timed => 0
  | .vital => 1
  | .untimed => 2
  | .due => 3
  | .soon => 4
  | .never => 5
  | .done => 6

def TrackerStatus.rowClass : TrackerStatus → RowClass
  | .due _ => .due
  | .soon _ => .soon
  | .never => .never
  | .done => .done

def Row.rowClass : Row → RowClass
  | .event _ => .timed
  | .task ctx =>
    if ctx.task.scheduledTime.isSome then .timed
    else if ctx.task.vital then .vital
    else .untimed
  | .tracker _ _ status => status.rowClass

/-- The clock time of a timed row, to the microsecond of the day, and the id of any other. -/
def Row.place : Row → ℤ
  | .event e => (e.startAt.instant + e.startAt.offset) % dayLength
  | .task ctx =>
    match ctx.task.scheduledTime with
    | some time => time.microseconds
    | none => ctx.task.id
  | .tracker t _ _ => t.id

/-- The class of a row, and then its place in the class. -/
def Row.grammarKey (row : Row) : ℕ ×ₗ ℤ := toLex (row.rowClass.rank, row.place)

/-- The rows stand class by class, and in every class by place. -/
def FollowsGrammar (rows : List Row) : Prop :=
  rows.Pairwise fun a b => a.grammarKey ≤ b.grammarKey

/-! ## The scale -/

/-- Where the keys of a class begin. -/
def RowClass.band : RowClass → ℤ
  | .timed => bandTimed
  | .vital => bandVital
  | .untimed => bandUntimed
  | .due => bandTracker
  | .soon => bandTracker + keyGap
  | .never => bandTracker + 2 * keyGap
  | .done => bandTracker + 3 * keyGap

theorem effectiveKey_of_unkeyed {row : Row} (h : row.unkeyed = row) :
    effectiveKey row = defaultKey row := by
  rw [← h]
  exact effectiveKey_unkeyed row

theorem TrackerStatus.rowClass_ne_timed (status : TrackerStatus) : status.rowClass ≠ .timed := by
  cases status <;> simp [TrackerStatus.rowClass]

/-- A timed row has a key of its minute. -/
theorem defaultKey_timed {row : Row} (h : row.rowClass = .timed) :
    defaultKey row = bandTimed + row.place / 60000000 := by
  cases row with
  | event e => rfl
  | task ctx =>
    cases htime : ctx.task.scheduledTime with
    | none =>
      rw [Row.rowClass, htime] at h
      cases hvital : ctx.task.vital <;> simp [hvital] at h
    | some time =>
      rw [defaultKey, Row.place, htime]
      dsimp only
      rw [time.microseconds_ediv, TimeOfDay.minutes, add_assoc]
  | tracker t state status => exact absurd h status.rowClass_ne_timed

/-- Any other row has a key in the band of its class. -/
theorem defaultKey_untimed {row : Row} (h : row.rowClass ≠ .timed) :
    defaultKey row = row.rowClass.band + row.place := by
  cases row with
  | event e => exact absurd rfl h
  | task ctx =>
    cases htime : ctx.task.scheduledTime with
    | none =>
      rw [defaultKey, Row.place, Row.rowClass, htime]
      cases ctx.task.vital <;> rfl
    | some time => exact absurd (by rw [Row.rowClass, htime]; rfl) h
  | tracker t state status =>
    cases status <;> rfl

/-- The minutes of a day fit below the other bands. -/
theorem place_timed {row : Row} (h : row.rowClass = .timed) : row.place / 60000000 < 1440 := by
  cases row with
  | event e =>
    have hlt : (e.startAt.instant + e.startAt.offset) % dayLength < 86400000000 :=
      Int.emod_lt_of_pos _ (by decide)
    exact Int.ediv_lt_of_lt_mul (by norm_num) hlt
  | task ctx =>
    cases htime : ctx.task.scheduledTime with
    | none =>
      rw [Row.rowClass, htime] at h
      cases hvital : ctx.task.vital <;> simp [hvital] at h
    | some time =>
      rw [Row.place, htime]
      dsimp only
      rw [time.microseconds_ediv]
      exact time.minutes_lt
  | tracker t state status => exact absurd h status.rowClass_ne_timed

theorem place_nonneg (row : Row) : 0 ≤ row.place := by
  cases row with
  | event e => exact Int.emod_nonneg _ dayLength_pos.ne'
  | task ctx =>
    rw [Row.place]
    cases ctx.task.scheduledTime with
    | none => exact Int.natCast_nonneg _
    | some time => exact time.microseconds_nonneg
  | tracker t state status => exact Int.natCast_nonneg _

theorem RowClass.rank_inj {c d : RowClass} (h : c.rank = d.rank) : c = d := by
  cases c <;> cases d <;> first | rfl | exact absurd h (by decide)

theorem RowClass.bandVital_le_band {c : RowClass} (h : c ≠ .timed) : bandVital ≤ c.band := by
  cases c with
  | timed => exact absurd rfl h
  | _ => decide

theorem grammarKey_lt_iff {a b : Row} :
    a.grammarKey < b.grammarKey ↔ a.rowClass.rank < b.rowClass.rank ∨
      (a.rowClass = b.rowClass ∧ a.place < b.place) := by
  rw [Row.grammarKey, Row.grammarKey, Prod.Lex.toLex_lt_toLex]
  exact or_congr_right (and_congr_left fun _ => ⟨RowClass.rank_inj, congrArg RowClass.rank⟩)

/-- Timed rows are below all others. -/
theorem defaultKey_lt_of_timed {a b : Row} (ha : a.rowClass = .timed) (hb : b.rowClass ≠ .timed) :
    defaultKey a < defaultKey b := by
  rw [defaultKey_timed ha, defaultKey_untimed hb]
  have hminute := place_timed ha
  have hband := RowClass.bandVital_le_band hb
  have hplace := place_nonneg b
  unfold bandTimed
  unfold bandVital at hband
  linarith

/-! ## When the bands do not overlap -/

/-- No id reaches over the distance between its band and a later one, and the rows of one minute
are fetched in the order of their times. -/
structure NoCarry (rows : List Row) : Prop where
  minute : ∀ a ∈ rows, ∀ b ∈ rows, a.rowClass = .timed → b.rowClass = .timed →
    a.place / 60000000 = b.place / 60000000 → a.place < b.place → rows.idxOf a < rows.idxOf b
  ids : ∀ a ∈ rows, ∀ b ∈ rows, a.rowClass ≠ .timed → b.rowClass ≠ .timed →
    a.rowClass.rank < b.rowClass.rank →
    a.place < b.place + (b.rowClass.band - a.rowClass.band) ∨
      (a.place = b.place + (b.rowClass.band - a.rowClass.band) ∧ rows.idxOf a < rows.idxOf b)

/-- Two untimed rows of different classes: one key is below the other, or equal to it, as the ids
compare over the distance of the bands. -/
theorem before_untimed_iff {rows : List Row} {a b : Row} (ha : a.rowClass ≠ .timed)
    (hb : b.rowClass ≠ .timed) :
    Before defaultKey rows a b ↔
      a.place < b.place + (b.rowClass.band - a.rowClass.band) ∨
        (a.place = b.place + (b.rowClass.band - a.rowClass.band) ∧
          rows.idxOf a < rows.idxOf b) := by
  rw [Before, defaultKey_untimed ha, defaultKey_untimed hb]
  refine or_congr ?_ (and_congr_left fun _ => ?_)
  · constructor <;> intro h <;> linarith
  · constructor <;> intro h <;> linarith

/-- Two timed rows: their minutes compare, and rows of one minute stay as they are fetched. -/
theorem before_timed_iff {rows : List Row} {a b : Row} (ha : a.rowClass = .timed)
    (hb : b.rowClass = .timed) :
    Before defaultKey rows a b ↔ a.place / 60000000 < b.place / 60000000 ∨
      (a.place / 60000000 = b.place / 60000000 ∧ rows.idxOf a < rows.idxOf b) := by
  rw [Before, defaultKey_timed ha, defaultKey_timed hb, add_lt_add_iff_left, add_right_inj]

/-- **The default order is the declared one** exactly when nothing carries over: no id reaches
over the distance between its band and the band of a later row, and rows of one minute of the
clock are fetched in the order of their times. -/
theorem follows_grammar_iff {rows : List Row} (hrows : rows.Nodup)
    (hnone : ∀ row ∈ rows, row.unkeyed = row) :
    FollowsGrammar (sortByKey effectiveKey rows) ↔ NoCarry rows := by
  rw [sortByKey_congr fun row hrow => effectiveKey_of_unkeyed (hnone row hrow), FollowsGrammar,
    pairwise_sortByKey_le_iff hrows]
  constructor
  · refine fun h => ⟨fun a ha b hb hat hbt hminute hlt => ?_, fun a ha b hb hau hbu hrank => ?_⟩
    · have hbefore := h a ha b hb (grammarKey_lt_iff.mpr (Or.inr ⟨hat.trans hbt.symm, hlt⟩))
      rcases (before_timed_iff hat hbt).mp hbefore with hless | ⟨-, hplace⟩
      · exact absurd hminute hless.ne
      · exact hplace
    · exact (before_untimed_iff hau hbu).mp
        (h a ha b hb (grammarKey_lt_iff.mpr (Or.inl hrank)))
  · intro h a ha b hb hlt
    rw [grammarKey_lt_iff] at hlt
    by_cases hat : a.rowClass = .timed
    · by_cases hbt : b.rowClass = .timed
      · have hplace : a.place < b.place := hlt.elim
          (fun hrank => absurd hrank (by rw [hat, hbt]; exact lt_irrefl _)) And.right
        have hle : a.place / 60000000 ≤ b.place / 60000000 :=
          Int.ediv_le_ediv (by norm_num) hplace.le
        exact (before_timed_iff hat hbt).mpr <| hle.lt_or_eq.imp_right fun heq =>
          ⟨heq, h.minute a ha b hb hat hbt heq hplace⟩
      · exact Or.inl (defaultKey_lt_of_timed hat hbt)
    · have hbu : b.rowClass ≠ .timed := by
        rintro hbt
        rcases hlt with hrank | ⟨heq, -⟩
        · rw [hbt] at hrank
          exact Nat.not_lt_zero _ hrank
        · exact hat (heq.trans hbt)
      rcases hlt with hrank | ⟨heq, hplace⟩
      · exact (before_untimed_iff hat hbu).mpr (h.ids a ha b hb hat hbu hrank)
      · rw [Before, defaultKey_untimed hat, defaultKey_untimed hbu, heq]
        exact Or.inl (add_lt_add_right hplace _)

/-- The distance from the band of a class to the next one. -/
def RowClass.width : RowClass → ℤ
  | .timed => bandVital - bandTimed
  | .vital => bandUntimed - bandVital
  | .untimed => bandTracker - bandUntimed
  | .due | .soon | .never | .done => keyGap

theorem RowClass.width_le {c d : RowClass} (h : c.rank < d.rank) : c.width ≤ d.band - c.band := by
  cases c <;> cases d <;> first | decide | exact absurd h (by decide)

/-- Ids that stay inside the bands carry nothing over. -/
theorem noCarry_of_le_width {rows : List Row}
    (hminute : ∀ a ∈ rows, ∀ b ∈ rows, a.rowClass = .timed → b.rowClass = .timed →
      a.place / 60000000 = b.place / 60000000 → a.place < b.place →
      rows.idxOf a < rows.idxOf b)
    (hids : ∀ row ∈ rows, row.rowClass ≠ .timed →
      0 < row.place ∧ row.place ≤ row.rowClass.width) : NoCarry rows := by
  refine ⟨hminute, fun a ha b hb hau hbu hrank => Or.inl ?_⟩
  have hwidth := RowClass.width_le hrank
  have ha' := (hids a ha hau).2
  have hb' := (hids b hb hbu).1
  linarith

/-- An untimed task with an id. -/
def plainRow (id : ℕ) (vital : Bool) : Row :=
  .task (taskCtx { id := id, name := "task", scheduledFor := some 739622, vital := vital,
                   lastUserInteractionAt := 0, createdAt := 0 } 739622 0)

/-- A tracker that is due. -/
def dueRow (id : ℕ) : Row :=
  .tracker { id := id, name := "tracker", thresholdDays := 7,
             visibleOnDays := [0, 1, 2, 3, 4, 5, 6] }
    { daysSinceLastDone := 8, lastDoneDate := some 739614, lastRecomputedAt := 0 } (.due 1)

/-- An event at nine o'clock. -/
def nineOClock : Row :=
  .event { eventId := "standup", startAt := ⟨739622 * 86400000000 + 32400000000, 0⟩,
           date := 739622 }

theorem follows_grammar_iff_smallIds :
    FollowsGrammar (sortByKey effectiveKey
      [plainRow 1 false, plainRow 2 true, nineOClock, dueRow 1]) :=
  (follows_grammar_iff (by decide) (by decide)).mpr <| noCarry_of_le_width
    (by decide) (by decide)

/-- The vital task 10002 stands below the task 1: their keys are 40002 and 40001. -/
theorem grammar_fails_vitalTask :
    (∀ row ∈ [plainRow 1 false, plainRow 10002 true], row.unkeyed = row) ∧
      sortByKey effectiveKey [plainRow 1 false, plainRow 10002 true] =
        [plainRow 1 false, plainRow 10002 true] ∧
      ¬ FollowsGrammar (sortByKey effectiveKey [plainRow 1 false, plainRow 10002 true]) := by
  have hsorted : sortByKey effectiveKey [plainRow 1 false, plainRow 10002 true] =
      [plainRow 1 false, plainRow 10002 true] := by decide
  refine ⟨by decide, hsorted, fun h => ?_⟩
  rw [hsorted, FollowsGrammar, List.pairwise_pair] at h
  exact absurd h (not_le.mpr (grammarKey_lt_iff.mpr (Or.inl (by decide))))

end EpsCloud

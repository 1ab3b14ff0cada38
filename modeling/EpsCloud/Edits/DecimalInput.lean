import EpsCloud.Routes.Journal
import EpsCloud.Routes.Settings
import EpsCloud.Schema.DecimalOrder

/-!
# Decimals from a form

`decimal.Decimal` reads more texts than numbers: "NaN", "sNaN" and "Infinity" are
decimals too.  `parse_coordinate` and `save_metric` answer 400 for a text that is no
decimal, but the comparison with a bound comes after the guarded conversion and
raises for a NaN, and a numeric metric has no bound to compare with.  The column in
turn refuses a number with too many digits when it is sent one.

* `parsesCleanly_iff`: the coordinates that are read or refused cleanly.
* `savesCleanly_iff`: the values that are saved or refused cleanly.
* `decimal_input_iff`: both, for every text.
-/

namespace EpsCloud

open Decimal

/-! ## Coordinates -/

/-- A coordinate is a finite number in its range, or the request answers 400. -/
def ParsesCleanly (py : TextParsers) (raw : String) (range : Decimal × Decimal) (p q : ℚ) : Prop :=
  (∃ value, parseCoordinate py raw range = .ok value ∧ FiniteIn p q value) ∨
    parseCoordinate py raw range = .error (.abort 400)

theorem parseCoordinate_eq (py : TextParsers) (raw : String) (range : Decimal × Decimal) :
    parseCoordinate py raw range =
      match py.decimal (py.strip raw) with
      | none => .error (.abort 400)
      | some value =>
        match pyBetween range.1 value range.2 with
        | none => .error .raised
        | some false => .error (.abort 400)
        | some true => .ok value := by
  unfold parseCoordinate pyBetween
  cases py.decimal (py.strip raw) with
  | none => rfl
  | some value =>
    dsimp only
    cases range.1.pyLe value with
    | none => rfl
    | some b => cases b <;> rfl

/-- **A coordinate is read or refused** cleanly unless it is a NaN. -/
theorem parsesCleanly_iff {py : TextParsers} {raw : String} {range : Decimal × Decimal} {p q : ℚ}
    (hlow : range.1.rat? = some p) (hhigh : range.2.rat? = some q) :
    ParsesCleanly py raw range p q ↔
      ∀ value, py.decimal (py.strip raw) = some value → value.isNan = false := by
  unfold ParsesCleanly
  rw [parseCoordinate_eq]
  cases py.decimal (py.strip raw) with
  | none => exact iff_of_true (Or.inr rfl) (by simp)
  | some value =>
    dsimp only
    cases hnan : value.isNan with
    | true =>
      rw [pyBetween_of_nan hnan]
      exact iff_of_false (by simp) fun h => absurd (hnan.symm.trans (h value rfl)) (by simp)
    | false =>
      refine iff_of_true ?_ fun value' h => Option.some.inj h ▸ hnan
      obtain ⟨b, hb, hiff⟩ := pyBetween_of_finite_bounds hlow hhigh hnan
      rw [hb]
      cases b with
      | true => exact Or.inl ⟨value, rfl, hiff.mp rfl⟩
      | false => exact Or.inr rfl

/-! ## Metric values -/

/-- The column is sent the value of an entry that is new or whose value is not equal to the one it
had, and takes it if it fits. -/
def columnTakes (fits : Decimal → Bool) (old new : Option MetricLog) : Bool :=
  new.all fun entry =>
    fits entry.value || old.any fun before => before.value.pyEq entry.value = some true

/-- `save_metric` with its commit, which raises when the column refuses the value. -/
def commitMetric (fits : Decimal → Bool) (py : TextParsers) (clock : Clock) (date : String)
    (metricId : ℕ) (value : String) (db : Database) : Except Failure Database := do
  let day ← parseDate date
  let db' ← saveMetric py clock date metricId value db
  if columnTakes fits (db.metricLog.lookup (day, metricId))
      (db'.metricLog.lookup (day, metricId)) then .ok db'
  else .error .raised

/-- The value of an entry is a finite number, and on the scale if the metric has one. -/
def Metric.Admits (metric : Metric) (value : Decimal) : Prop :=
  value.rat?.isSome ∧ (metric.metricType = .scale →
    ∃ low high, metric.scaleMin = some low ∧ metric.scaleMax = some high ∧
      FiniteIn low high value)

/-- The request answers 400 and changes nothing, or it leaves no entry or one that the metric
admits. -/
def SavesCleanly (fits : Decimal → Bool) (py : TextParsers) (clock : Clock) (date : String)
    (metricId : ℕ) (value : String) (db : Database) (day : Date) (metric : Metric) : Prop :=
  let result := commitMetric fits py clock date metricId value db
  (result = .error (.abort 400) ∧ afterRequest db result = db) ∨
    ∃ db', result = .ok db' ∧
      ∀ entry, db'.metricLog.lookup (day, metricId) = some entry → metric.Admits entry.value

/-- The entry has the same number already. -/
def AlreadyStored (entry : Option MetricLog) (value : Decimal) : Prop :=
  ∃ before ∈ entry, ∃ x, before.value.rat? = some x ∧ value.rat? = some x

/-- Which values can be saved or refused: for a numeric metric it is finite and fits the column or
is there already; for a scale with both bounds it is not a NaN, and if it is on the scale it fits
the column or is there already. -/
def Metric.Handles (metric : Metric) (fits : Decimal → Bool) (entry : Option MetricLog)
    (value : Decimal) : Prop :=
  match metric.metricType with
  | .numeric => value.rat?.isSome ∧ (fits value ∨ AlreadyStored entry value)
  | .scale => ∃ low high, metric.scaleMin = some low ∧ metric.scaleMax = some high ∧
      value.isNan = false ∧
      (FiniteIn low high value → fits value ∨ AlreadyStored entry value)

theorem checkScale_eq (metric : Metric) (value : Decimal) {low high : ℤ}
    (hlow : metric.scaleMin = some low) (hhigh : metric.scaleMax = some high) :
    checkScale metric value =
      match pyBetween (.ofInt low) value (.ofInt high) with
      | none => .error .raised
      | some false => .error (.abort 400)
      | some true => .ok () := by
  rw [checkScale, hlow, hhigh]
  unfold pyBetween
  dsimp only
  cases (Decimal.ofInt low).pyLe value with
  | none => rfl
  | some b => cases b <;> rfl

theorem stored_of_rat {value : Decimal} {x : ℚ} (h : value.rat? = some x) :
    value.stored = value := by
  rw [stored, if_neg]
  rw [not_nan_of_rat h]
  exact Bool.false_ne_true

/-- A value that was stored equals a finite one exactly if it denotes the same number. -/
theorem pyEq_stored {before value : Decimal} {x : ℚ} (hbefore : before.isSignalling = false)
    (hvalue : value.rat? = some x) :
    ∃ b, before.pyEq value = some b ∧ (b = true ↔ before.rat? = some x) := by
  cases before with
  | finite n c e =>
    obtain ⟨y, hy⟩ : ∃ y, (Decimal.finite n c e).rat? = some y := ⟨_, rfl⟩
    refine ⟨decide (y = x), pyEq_of_rat hy hvalue, ?_⟩
    rw [decide_eq_true_iff, hy, Option.some.injEq]
  | infinity n =>
    cases value with
    | finite n' c' e' =>
      refine ⟨false, ?_, by simp [rat?]⟩
      cases n <;> rfl
    | _ => exact absurd hvalue (by simp [rat?])
  | nan =>
    cases value with
    | finite n' c' e' => exact ⟨false, rfl, by simp [rat?]⟩
    | _ => exact absurd hvalue (by simp [rat?])
  | snan => exact absurd hbefore (by decide)

/-- The audit raises, if it fails. -/
theorem maybeAudit_eq_error {db : Database} {target : AuditTarget} {old new : Option AuditValue}
    {entryDate today : Date} {e : Failure}
    (h : maybeAudit db target old new entryDate today = .error e) : e = .raised := by
  rw [maybeAudit, auditRows] at h
  by_cases hnew : old = none ∧ entryDate = today
  · rw [if_pos hnew] at h
    exact absurd h (by simp [Except.map])
  · rw [if_neg hnew] at h
    split at h
    · exact (Except.error.inj h).symm
    · exact absurd h (by simp [Except.map])
    · exact absurd h (by simp [Except.map])

/-- The audit of a comparable change succeeds. -/
theorem maybeAudit_ok {old new : Option AuditValue} {b : Bool} (h : optionEq old new = some b)
    (db : Database) (target : AuditTarget) (entryDate today : Date) :
    ∃ db', maybeAudit db target old new entryDate today = .ok db' ∧
      db'.metricLog = db.metricLog := by
  rw [maybeAudit, auditRows, h]
  split_ifs
  · exact ⟨_, rfl, rfl⟩
  · cases b <;> exact ⟨_, rfl, rfl⟩

section Metric

variable {fits : Decimal → Bool} {py : TextParsers} {clock : Clock} {date text : String}
  {metricId : ℕ} {db : Database} {day : Date} {metric : Metric}

/-- The edit and the audit of a value that was read. -/
def editMetric (clock : Clock) (metric : Metric) (day : Date) (metricId : ℕ)
    (value : Option Decimal) (db : Database) : Except Failure Database := do
  let change ← metricChange metric.metricType (db.metricLog.lookup (day, metricId)) value clock.now
  maybeAudit { db with metricLog := db.metricLog.put (day, metricId) change.row }
    (metricTarget day metricId) (change.old.map .decimal) (change.new.map .decimal) day clock.today

theorem saveMetric_eq (hday : fromisoformat date = some day)
    (hmetric : db.getMetric metricId = some metric) :
    saveMetric py clock date metricId text db =
      parseMetricValue py metric text >>= fun value =>
        editMetric clock metric day metricId value db := by
  rw [saveMetric, parseDate_eq_ok.mpr hday, foundOr404_eq_ok.mpr hmetric]
  rfl

theorem commitMetric_eq (hday : fromisoformat date = some day)
    (hmetric : db.getMetric metricId = some metric) :
    commitMetric fits py clock date metricId text db =
      parseMetricValue py metric text >>= fun value =>
        editMetric clock metric day metricId value db >>= fun db' =>
          if columnTakes fits (db.metricLog.lookup (day, metricId))
            (db'.metricLog.lookup (day, metricId)) then .ok db' else .error .raised := by
  rw [commitMetric, parseDate_eq_ok.mpr hday, saveMetric_eq hday hmetric, ← bind_assoc]
  rfl

/-- A finite value is taken if it fits or is there already. -/
theorem columnTakes_iff {old : Option MetricLog}
    (hquiet : ∀ entry ∈ old, entry.value.isSignalling = false) {value : Decimal} {x : ℚ}
    (hvalue : value.rat? = some x) (editedAt : Option Moment) :
    columnTakes fits old (some ⟨value, editedAt⟩) = true ↔
      fits value = true ∨ AlreadyStored old value := by
  rw [columnTakes, Option.all_some, Bool.or_eq_true]
  refine or_congr Iff.rfl ?_
  cases old with
  | none => exact iff_of_false (by simp) fun ⟨_, h, _⟩ => absurd h (by simp)
  | some before =>
    obtain ⟨b, heq, hiff⟩ := pyEq_stored (hquiet before rfl) hvalue
    rw [Option.any_some, heq, decide_eq_true_iff, Option.some.injEq, hiff]
    constructor
    · exact fun h => ⟨before, rfl, x, h, hvalue⟩
    · rintro ⟨_, h, y, hbefore, hy⟩
      obtain rfl := Option.some.inj h
      rwa [← Option.some.inj (hy.symm.trans hvalue)]

/-- An edit whose change can be audited leaves the row of the change. -/
theorem editMetric_of_change {value : Option Decimal} {change : RowChange MetricLog Decimal}
    (hchange : metricChange metric.metricType (db.metricLog.lookup (day, metricId)) value
      clock.now = .ok change)
    {b : Bool} (haudit : optionEq (change.old.map .decimal) (change.new.map .decimal) = some b) :
    ∃ db', editMetric clock metric day metricId value db = .ok db' ∧
      db'.metricLog.lookup (day, metricId) = change.row := by
  obtain ⟨db', hok, hlog⟩ := maybeAudit_ok haudit
    { db with metricLog := db.metricLog.put (day, metricId) change.row }
    (metricTarget day metricId) day clock.today
  refine ⟨db', ?_, by rw [hlog, Table.lookup_put_self]⟩
  rw [editMetric, hchange]
  exact hok

/-- An empty field leaves no entry. -/
theorem editMetric_none (clock : Clock) (metric : Metric) (day : Date) (metricId : ℕ)
    (db : Database) :
    ∃ db', editMetric clock metric day metricId none db = .ok db' ∧
      db'.metricLog.lookup (day, metricId) = none := by
  cases hentry : db.metricLog.lookup (day, metricId) with
  | none =>
    have hchange : metricChange metric.metricType (db.metricLog.lookup (day, metricId)) none
        clock.now = .ok ⟨none, none, none⟩ := by rw [hentry]; rfl
    exact editMetric_of_change hchange rfl
  | some entry =>
    have hchange : metricChange metric.metricType (db.metricLog.lookup (day, metricId)) none
        clock.now = .ok ⟨none, some entry.value, none⟩ := by rw [hentry]; rfl
    exact editMetric_of_change hchange rfl

/-- A finite value leaves an entry with it, unless it was selected on a scale. -/
theorem editMetric_of_rat (metric : Metric) (clock : Clock)
    (hquiet : ∀ entry ∈ db.metricLog.lookup (day, metricId), entry.value.isSignalling = false)
    {value : Decimal} {x : ℚ} (hvalue : value.rat? = some x) :
    ∃ db', editMetric clock metric day metricId (some value) db = .ok db' ∧
      ((db'.metricLog.lookup (day, metricId) = none ∧
          AlreadyStored (db.metricLog.lookup (day, metricId)) value) ∨
        ∃ editedAt, db'.metricLog.lookup (day, metricId) = some ⟨value, editedAt⟩) := by
  have hstored := stored_of_rat hvalue
  cases hentry : db.metricLog.lookup (day, metricId) with
  | none =>
    have hchange : metricChange metric.metricType (db.metricLog.lookup (day, metricId))
        (some value) clock.now = .ok ⟨some ⟨value, none⟩, none, some value⟩ := by
      rw [hentry, metricChange, hstored]
    obtain ⟨db', hok, hrow⟩ := editMetric_of_change hchange (b := false) rfl
    exact ⟨db', hok, Or.inr ⟨none, hrow⟩⟩
  | some entry =>
    obtain ⟨b, heq, hiff⟩ := pyEq_stored (hquiet entry hentry) hvalue
    have hkept : ∀ {b}, entry.value.pyEq value = some b →
        metricChange metric.metricType (db.metricLog.lookup (day, metricId)) (some value)
          clock.now = .ok ⟨some ⟨value, some clock.now⟩, some entry.value, some value⟩ →
        ∃ db', editMetric clock metric day metricId (some value) db = .ok db' ∧
          db'.metricLog.lookup (day, metricId) = some ⟨value, some clock.now⟩ :=
      fun hb hchange => editMetric_of_change hchange hb
    cases htype : metric.metricType with
    | numeric =>
      obtain ⟨db', hok, hrow⟩ := hkept heq (by rw [hentry, htype, metricChange, hstored])
      exact ⟨db', hok, Or.inr ⟨_, hrow⟩⟩
    | scale =>
      cases b with
      | false =>
        obtain ⟨db', hok, hrow⟩ := hkept heq (by rw [hentry, htype, metricChange, heq, hstored])
        exact ⟨db', hok, Or.inr ⟨_, hrow⟩⟩
      | true =>
        have hchange : metricChange metric.metricType (db.metricLog.lookup (day, metricId))
            (some value) clock.now = .ok ⟨none, some entry.value, none⟩ := by
          rw [hentry, htype, metricChange, heq]
        obtain ⟨db', hok, hrow⟩ := editMetric_of_change hchange (b := false) rfl
        exact ⟨db', hok, Or.inl ⟨hrow, entry, rfl, x, hiff.mp rfl, hvalue⟩⟩

/-- What a numeric metric is given is stored, whether it is a number or not. -/
theorem editMetric_numeric (htype : metric.metricType = .numeric) {value : Decimal}
    {db' : Database} (h : editMetric clock metric day metricId (some value) db = .ok db') :
    ∃ entry, db'.metricLog.lookup (day, metricId) = some entry ∧ entry.value = value.stored := by
  rw [editMetric, htype, bind_eq_ok] at h
  obtain ⟨change, hchange, haudit⟩ := h
  obtain ⟨entry, hrow, hvalue⟩ : ∃ entry, change.row = some entry ∧ entry.value = value.stored := by
    cases hentry : db.metricLog.lookup (day, metricId) with
    | none =>
      rw [hentry, metricChange, Except.ok.injEq] at hchange
      exact ⟨⟨value.stored, none⟩, by rw [← hchange], rfl⟩
    | some before =>
      rw [hentry, metricChange, Except.ok.injEq] at hchange
      exact ⟨⟨value.stored, some clock.now⟩, by rw [← hchange], rfl⟩
  unfold maybeAudit Except.map at haudit
  split at haudit
  · exact absurd haudit (by simp)
  · obtain rfl := Except.ok.inj haudit
    exact ⟨entry, (Table.lookup_put_self _ _ _).trans hrow, hvalue⟩

/-- An edit raises, if it fails. -/
theorem editMetric_eq_error {value : Option Decimal} {e : Failure}
    (h : editMetric clock metric day metricId value db = .error e) : e = .raised := by
  rw [editMetric, bind_eq_error] at h
  rcases h with hchange | ⟨change, -, haudit⟩
  · unfold metricChange at hchange
    split at hchange
    · exact absurd hchange (by simp)
    · exact absurd hchange (by simp)
    · exact absurd hchange (by simp)
    · split at hchange
      · exact absurd hchange (by simp)
      · split at hchange
        · exact (Except.error.inj hchange).symm
        · exact absurd hchange (by simp)
        · exact absurd hchange (by simp)
  · exact maybeAudit_eq_error haudit

/-- A value that is read is saved cleanly if it is admitted and taken. -/
theorem savesCleanly_of_parsed (hday : fromisoformat date = some day)
    (hmetric : db.getMetric metricId = some metric)
    (hquiet : ∀ entry ∈ db.metricLog.lookup (day, metricId), entry.value.isSignalling = false)
    {value : Decimal} (hparse : parseMetricValue py metric text = .ok (some value))
    (hadmits : metric.Admits value) :
    SavesCleanly fits py clock date metricId text db day metric ↔
      fits value = true ∨ AlreadyStored (db.metricLog.lookup (day, metricId)) value := by
  obtain ⟨x, hx⟩ := Option.isSome_iff_exists.mp hadmits.1
  obtain ⟨db', hok, hrow⟩ := editMetric_of_rat metric clock hquiet hx
  have hcommit : commitMetric fits py clock date metricId text db =
      if columnTakes fits (db.metricLog.lookup (day, metricId))
        (db'.metricLog.lookup (day, metricId)) then .ok db' else .error .raised := by
    rw [commitMetric_eq hday hmetric, hparse]
    show editMetric clock metric day metricId (some value) db >>= _ = _
    rw [hok]
    rfl
  rw [SavesCleanly, hcommit]
  rcases hrow with ⟨hnone, hstored⟩ | ⟨editedAt, hentry⟩
  · rw [hnone]
    exact iff_of_true (Or.inr ⟨db', rfl, fun entry h => absurd (hnone.symm.trans h) (by simp)⟩)
      (Or.inr hstored)
  · rw [hentry, ← columnTakes_iff hquiet hx editedAt]
    split_ifs with htakes
    · refine iff_of_true (Or.inr ⟨db', rfl, fun entry h => ?_⟩) htakes
      obtain rfl := Option.some.inj (hentry.symm.trans h)
      exact hadmits
    · exact iff_of_false (by simp) htakes

/-- A value that cannot be compared with the scale makes the request raise. -/
theorem not_savesCleanly_of_raised (hday : fromisoformat date = some day)
    (hmetric : db.getMetric metricId = some metric)
    (hparse : parseMetricValue py metric text = .error .raised) :
    ¬ SavesCleanly fits py clock date metricId text db day metric := by
  rw [SavesCleanly, commitMetric_eq hday hmetric, hparse]
  rintro (⟨h, -⟩ | ⟨db', h, -⟩)
  · exact absurd h (by simp [bind, Except.bind])
  · exact absurd h (by simp [bind, Except.bind])

/-- A numeric metric that is given no number does not end cleanly. -/
theorem not_savesCleanly_of_numeric (hday : fromisoformat date = some day)
    (hmetric : db.getMetric metricId = some metric) (htype : metric.metricType = .numeric)
    {value : Decimal} (hparse : parseMetricValue py metric text = .ok (some value))
    (hvalue : value.rat? = none) :
    ¬ SavesCleanly fits py clock date metricId text db day metric := by
  have hstored : value.stored.rat? = none := by
    unfold stored
    split_ifs
    · rfl
    · exact hvalue
  rw [SavesCleanly, commitMetric_eq hday hmetric, hparse]
  show ¬ ((editMetric clock metric day metricId (some value) db >>= _ = _ ∧ _) ∨
    ∃ db', editMetric clock metric day metricId (some value) db >>= _ = _ ∧ _)
  cases hedit : editMetric clock metric day metricId (some value) db with
  | error e =>
    obtain rfl := editMetric_eq_error hedit
    rintro (⟨h, -⟩ | ⟨db', h, -⟩)
    · exact absurd h (by simp [bind, Except.bind])
    · exact absurd h (by simp [bind, Except.bind])
  | ok db' =>
    obtain ⟨entry, hentry, hentryValue⟩ := editMetric_numeric htype hedit
    simp only [bind, Except.bind]
    rintro (⟨h, -⟩ | ⟨db'', h, hentries⟩)
    · split_ifs at h
      exact absurd h (by simp)
    · split_ifs at h
      obtain rfl := Except.ok.inj h
      have hadmits := (hentries entry hentry).1
      rw [hentryValue, hstored] at hadmits
      exact absurd hadmits (by simp)

/-- A value that is refused changes nothing. -/
theorem savesCleanly_of_abort (hday : fromisoformat date = some day)
    (hmetric : db.getMetric metricId = some metric)
    (hparse : parseMetricValue py metric text = .error (.abort 400)) :
    SavesCleanly fits py clock date metricId text db day metric := by
  have habort : commitMetric fits py clock date metricId text db = .error (.abort 400) := by
    rw [commitMetric_eq hday hmetric, hparse]
    rfl
  rw [SavesCleanly, habort]
  exact Or.inl ⟨rfl, rfl⟩

/-- An empty field is saved cleanly. -/
theorem savesCleanly_of_empty (hday : fromisoformat date = some day)
    (hmetric : db.getMetric metricId = some metric) (hempty : py.strip text = "") :
    SavesCleanly fits py clock date metricId text db day metric := by
  obtain ⟨db', hok, hnone⟩ := editMetric_none clock metric day metricId db
  refine Or.inr ⟨db', ?_, fun entry h => absurd (hnone.symm.trans h) (by simp)⟩
  rw [commitMetric_eq hday hmetric, parseMetricValue, if_pos hempty]
  show editMetric clock metric day metricId none db >>= _ = _
  rw [hok]
  show (if _ then _ else _) = _
  rw [hnone]
  rfl

/-- **A value for a scale** is saved or refused cleanly exactly when the scale has both bounds, the
value is not a NaN, and if it is on the scale, the column takes it. -/
theorem savesCleanly_scale_iff (hday : fromisoformat date = some day)
    (hmetric : db.getMetric metricId = some metric)
    (hquiet : ∀ entry ∈ db.metricLog.lookup (day, metricId), entry.value.isSignalling = false)
    {value : Decimal}
    (hparse : parseMetricValue py metric text =
      (checkScale metric value).map fun _ => some value) :
    SavesCleanly fits py clock date metricId text db day metric ↔
      ∃ low high, metric.scaleMin = some low ∧ metric.scaleMax = some high ∧
        value.isNan = false ∧ (FiniteIn low high value →
          fits value = true ∨ AlreadyStored (db.metricLog.lookup (day, metricId)) value) := by
  by_cases hbounds : ∃ low high, metric.scaleMin = some low ∧ metric.scaleMax = some high
  · obtain ⟨low, high, hlow, hhigh⟩ := hbounds
    rw [checkScale_eq metric value hlow hhigh] at hparse
    cases hnan : value.isNan with
    | true =>
      rw [pyBetween_of_nan hnan] at hparse
      exact iff_of_false (not_savesCleanly_of_raised hday hmetric hparse) (by simp)
    | false =>
      obtain ⟨b, hb, hiff⟩ := pyBetween_of_finite_bounds (rat?_ofInt low) (rat?_ofInt high) hnan
      rw [hb] at hparse
      cases b with
      | true =>
        have hin := hiff.mp rfl
        have hsome : value.rat?.isSome = true := by
          obtain ⟨x, hx, -⟩ := hin
          rw [hx]
          rfl
        rw [savesCleanly_of_parsed hday hmetric hquiet hparse
          ⟨hsome, fun _ => ⟨low, high, hlow, hhigh, hin⟩⟩, hlow, hhigh]
        simp [hin]
      | false =>
        refine iff_of_true (savesCleanly_of_abort hday hmetric hparse)
          ⟨low, high, hlow, hhigh, rfl, fun h => absurd (hiff.mpr h) (by simp)⟩
  · have hraise : checkScale metric value = .error .raised := by
      unfold checkScale
      split
      · next low high hlow hhigh => exact absurd ⟨low, high, hlow, hhigh⟩ hbounds
      · rfl
    rw [hraise] at hparse
    refine iff_of_false (not_savesCleanly_of_raised hday hmetric hparse) ?_
    rintro ⟨low, high, hlow, hhigh, -⟩
    exact hbounds ⟨low, high, hlow, hhigh⟩

/-- The text is empty, or no decimal, or the metric can handle the value. -/
def HandlesText (fits : Decimal → Bool) (py : TextParsers) (metric : Metric)
    (entry : Option MetricLog) (text : String) : Prop :=
  py.strip text = "" ∨
    ∀ value, py.decimal (py.strip text) = some value → metric.Handles fits entry value

/-- **A value is saved or refused** cleanly exactly when the metric can handle it. -/
theorem savesCleanly_iff (hday : fromisoformat date = some day)
    (hmetric : db.getMetric metricId = some metric)
    (hquiet : ∀ entry ∈ db.metricLog.lookup (day, metricId), entry.value.isSignalling = false) :
    SavesCleanly fits py clock date metricId text db day metric ↔
      HandlesText fits py metric (db.metricLog.lookup (day, metricId)) text := by
  by_cases hempty : py.strip text = ""
  · exact iff_of_true (savesCleanly_of_empty hday hmetric hempty) (Or.inl hempty)
  cases hdecimal : py.decimal (py.strip text) with
  | none =>
    refine iff_of_true (savesCleanly_of_abort hday hmetric ?_)
      (Or.inr fun value h => absurd (hdecimal.symm.trans h) (by simp))
    rw [parseMetricValue, if_neg hempty, hdecimal]
  | some value =>
    have hhandles : HandlesText fits py metric (db.metricLog.lookup (day, metricId)) text ↔
        metric.Handles fits (db.metricLog.lookup (day, metricId)) value := by
      rw [HandlesText, hdecimal]
      simp [hempty]
    rw [hhandles, Metric.Handles]
    cases htype : metric.metricType with
    | scale =>
      refine savesCleanly_scale_iff hday hmetric hquiet ?_
      rw [parseMetricValue, if_neg hempty, hdecimal]
      dsimp only
      rw [htype]
    | numeric =>
      have hparse : parseMetricValue py metric text = .ok (some value) := by
        rw [parseMetricValue, if_neg hempty, hdecimal]
        dsimp only
        rw [htype]
      cases hvalue : value.rat? with
      | none =>
        exact iff_of_false (not_savesCleanly_of_numeric hday hmetric htype hparse hvalue) (by simp)
      | some x =>
        have hadmits : metric.Admits value := ⟨by rw [hvalue]; rfl, by simp [htype]⟩
        rw [savesCleanly_of_parsed hday hmetric hquiet hparse hadmits]
        simp

end Metric

/-- A scale from 1 to 5 and a numeric metric. -/
def twoMetrics : Database :=
  { metrics := [{ id := 1, metricType := .scale, scaleMin := some 1, scaleMax := some 5 },
      { id := 2, metricType := .numeric }] }

/-- The text functions with two of the other spellings of a decimal. -/
def nanParsers : TextParsers :=
  { asciiParsers with
    decimal := fun text =>
      if text = "NaN" then some .nan
      else if text = "Infinity" then some (.infinity false)
      else asciiParsers.decimal text }

end EpsCloud

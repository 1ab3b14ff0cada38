import EpsCloud.Schema.Tables

/-!
# The audit trail

`app.audit`: appending today's row is normal daily use and is not audited.
Everything else, editing any value, deleting a row, or writing into a past day,
gets one `edit_log` row per changed field.

The values that are compared and recorded are Python objects: booleans for the
three boolean columns and decimals for metric values.  Comparing them can raise,
because a signalling NaN cannot be compared.
-/

namespace EpsCloud

/-- A value of an audited column. -/
inductive AuditValue where
  | bool (value : Bool)
  | decimal (value : Decimal)
  deriving DecidableEq, Repr

namespace AuditValue

/-- A value as a number: `True` is one and `False` is zero. -/
def toDecimal : AuditValue → Decimal
  | .bool value => Decimal.ofInt (if value then 1 else 0)
  | .decimal value => value

/-- The operator `==`, or `none` where it raises. -/
def pyEq : AuditValue → AuditValue → Option Bool
  | .bool a, .bool b => some (a == b)
  | a, b => Decimal.pyEq a.toDecimal b.toDecimal

/-- `str(value)`. -/
def str : AuditValue → String
  | .bool true => "True"
  | .bool false => "False"
  | .decimal value => value.str

/-- The value that the column keeps of a written one. -/
def stored : AuditValue → AuditValue
  | .bool value => .bool value
  | .decimal value => .decimal value.stored

/-- Two values are stored as the same value. -/
def Same : AuditValue → AuditValue → Prop
  | .bool a, .bool b => a = b
  | .decimal a, .decimal b => Decimal.SameNumber a b
  | _, _ => False

instance : ∀ a b : AuditValue, Decidable (Same a b)
  | .bool a, .bool b => inferInstanceAs (Decidable (a = b))
  | .decimal a, .decimal b => inferInstanceAs (Decidable (Decimal.SameNumber a b))
  | .bool _, .decimal _ => inferInstanceAs (Decidable False)
  | .decimal _, .bool _ => inferInstanceAs (Decidable False)

end AuditValue

/-- The operator `==` on values that may be `None`. -/
def optionEq : Option AuditValue → Option AuditValue → Option Bool
  | none, none => some true
  | some a, some b => a.pyEq b
  | _, _ => some false

/-- A stored value, `None` where there is no row, is not the same as before. -/
def Changed : Option AuditValue → Option AuditValue → Prop
  | none, none => False
  | some a, some b => ¬ a.Same b
  | _, _ => True

instance : ∀ a b : Option AuditValue, Decidable (Changed a b)
  | none, none => inferInstanceAs (Decidable False)
  | some a, some b => inferInstanceAs (Decidable (¬ a.Same b))
  | none, some _ => inferInstanceAs (Decidable True)
  | some _, none => inferInstanceAs (Decidable True)

/-- The column an edit is about: its table, the row's id as text, and the field. -/
structure AuditTarget where
  table : String
  rowId : String
  field : String
  deriving DecidableEq, Repr

/-- The row that `maybe_audit` builds. -/
def auditRow (target : AuditTarget) (old new : Option AuditValue) : EditLog :=
  { tableName := target.table
    rowId := target.rowId
    field := target.field
    oldValue := old.map AuditValue.str
    newValue := new.map AuditValue.str }

/-- The rows that `maybe_audit` adds to the session: none if this is today's row being
created, or if the value stays equal. -/
def auditRows (target : AuditTarget) (old new : Option AuditValue) (entryDate today : Date) :
    Except Failure (List EditLog) :=
  if old = none ∧ entryDate = today then .ok []
  else
    match optionEq old new with
    | none => .error .raised
    | some true => .ok []
    | some false => .ok [auditRow target old new]

/-- `maybe_audit`: write an `edit_log` row unless this is today's row being created. -/
def maybeAudit (db : Database) (target : AuditTarget) (old new : Option AuditValue)
    (entryDate today : Date) : Except Failure Database :=
  (auditRows target old new entryDate today).map fun rows =>
    { db with editLog := db.editLog ++ rows }

/-! ## What an audited edit should leave behind -/

/-- The rows that an edit from `old` to `new` is due: one if the stored value changed and
the change is not the creation of a row dated today, none otherwise. -/
def dueAuditRows (target : AuditTarget) (old new : Option AuditValue) (entryDate today : Date) :
    List EditLog :=
  if Changed old new ∧ ¬ (old = none ∧ entryDate = today) then [auditRow target old new] else []

/-- The two values are comparable, and equal exactly when they are the same stored value. -/
def EqTellsChange (old new : Option AuditValue) : Prop :=
  optionEq old new = some (decide (¬ Changed old new))

theorem eqTellsChange_of_none_left (new : Option AuditValue) : EqTellsChange none new := by
  cases new <;> rfl

theorem eqTellsChange_of_none_right (old : Option AuditValue) : EqTellsChange old none := by
  cases old <;> rfl

theorem eqTellsChange_bool (old new : Bool) :
    EqTellsChange (some (.bool old)) (some (.bool new)) := by
  cases old <;> cases new <;> rfl

theorem eqTellsChange_decimal {old new : Decimal} (ho : old.isNan = false)
    (hn : new.isNan = false) :
    EqTellsChange (some (.decimal old)) (some (.decimal new)) := by
  show Decimal.pyEq old new = some (decide (¬ ¬ Decimal.SameNumber old new))
  rw [Decimal.pyEq_eq_some_of_not_nan ho hn]
  simp

/-- **Where equality tells a change, the audit is the one that is due.** -/
theorem auditRows_eq_due {old new : Option AuditValue} (h : EqTellsChange old new)
    (target : AuditTarget) (entryDate today : Date) :
    auditRows target old new entryDate today =
      .ok (dueAuditRows target old new entryDate today) := by
  rw [auditRows, dueAuditRows]
  by_cases hnew : old = none ∧ entryDate = today
  · rw [if_pos hnew, if_neg fun hc => hc.2 hnew]
  · rw [if_neg hnew, h]
    by_cases hc : Changed old new
    · rw [if_pos ⟨hc, hnew⟩]
      simp [hc]
    · rw [if_neg fun hc' => hc hc'.1]
      simp [hc]

theorem maybeAudit_eq_due {old new : Option AuditValue} (h : EqTellsChange old new)
    (db : Database) (target : AuditTarget) (entryDate today : Date) :
    maybeAudit db target old new entryDate today =
      .ok { db with editLog := db.editLog ++ dueAuditRows target old new entryDate today } := by
  rw [maybeAudit, auditRows_eq_due h]
  rfl

end EpsCloud

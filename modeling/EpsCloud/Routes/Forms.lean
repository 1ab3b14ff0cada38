import EpsCloud.Schema.Tables

/-!
# Reading request text

The text functions of the standard library that the handlers call on form
fields.  They are a parameter of the handlers: every theorem about a handler
holds whatever texts they accept.
-/

namespace EpsCloud

/-- The standard library's text functions, `none` where they raise. -/
structure TextParsers where
  /-- `str.strip` -/
  strip : String → String
  /-- `str.isdigit` -/
  isdigit : String → Bool
  /-- `int(text)` -/
  int : String → Option ℤ
  /-- `decimal.Decimal(text)` -/
  decimal : String → Option Decimal
  /-- `datetime.time.fromisoformat`, to the microsecond; what it reads of a time zone is not kept
  by the columns -/
  time : String → Option TimeOfDay

/-- The digits of a plain ASCII number. -/
def asciiNumber (text : String) : Option ℕ :=
  let cs := text.toList
  if cs ≠ [] ∧ cs.all Char.isDigit then (parseDigits cs.length cs).map Prod.fst else none

/-- The text functions on plain ASCII texts without a sign, a point or an exponent. -/
def asciiParsers : TextParsers where
  strip text :=
    String.ofList ((text.toList.dropWhile Char.isWhitespace).reverse.dropWhile
      Char.isWhitespace).reverse
  isdigit text := (asciiNumber text).isSome
  int text := (asciiNumber text).map Int.ofNat
  decimal text := (asciiNumber text).map fun n => .finite false n 0
  time text := do
    let (hour, cs) ← parseDigits 2 text.toList
    let cs ← parseSeparator true (cs.map fun c => if c = ':' then '-' else c)
    let (minute, cs) ← parseDigits 2 cs
    if h : (hour < 24 ∧ minute < 60) ∧ cs = [] then some (timeAt hour minute h.1) else none

/-- `parse_date`: a text that is not a day is not found. -/
def parseDate (value : String) : Except Failure Date :=
  match fromisoformat value with
  | some day => .ok day
  | none => .error (.abort 404)

/-- What `get` returns, or the 404 that a missing row answers with. -/
def foundOr404 {α : Type} : Option α → Except Failure α
  | some row => .ok row
  | none => .error (.abort 404)

/-- The database after a request: what it committed, or, when it failed, what was there. -/
def afterRequest (db : Database) : Except Failure Database → Database
  | .ok db' => db'
  | .error _ => db

/-- The request is refused with a 4xx status, and the database is as before. -/
def RefusedCleanly (db : Database) (result : Except Failure Database) : Prop :=
  (∃ status, 400 ≤ status ∧ status < 500 ∧ result = .error (.abort status)) ∧
    afterRequest db result = db

/-- The database, and the day of the last request. -/
structure Dated where
  db : Database
  today : Date

/-- What a request handled at `clock` leaves. -/
def Dated.after (s : Dated) (clock : Clock) (result : Except Failure Database) : Dated :=
  ⟨afterRequest s.db result, clock.today⟩

theorem refusedCleanly_of_abort (status : ℕ) (hstatus : 400 ≤ status ∧ status < 500)
    {db : Database} {result : Except Failure Database} (h : result = .error (.abort status)) :
    RefusedCleanly db result := by
  refine ⟨⟨status, hstatus.1, hstatus.2, h⟩, ?_⟩
  rw [h]
  rfl

theorem parseDate_eq_ok {value : String} {day : Date} :
    parseDate value = .ok day ↔ fromisoformat value = some day := by
  rw [parseDate]
  cases fromisoformat value <;> simp

theorem foundOr404_eq_ok {α : Type} {o : Option α} {row : α} :
    foundOr404 o = .ok row ↔ o = some row := by
  cases o <;> simp [foundOr404]

/-- A sequence of fallible steps succeeds when each of them does. -/
theorem bind_eq_ok {ε α β : Type} {x : Except ε α} {f : α → Except ε β} {b : β} :
    (x >>= f) = .ok b ↔ ∃ a, x = .ok a ∧ f a = .ok b := by
  cases x with
  | error e =>
    constructor
    · intro h
      cases h
    · rintro ⟨a, h, -⟩
      cases h
  | ok a =>
    constructor
    · intro h
      exact ⟨a, rfl, h⟩
    · rintro ⟨a', h, h'⟩
      cases h
      exact h'

/-- A sequence of fallible steps fails with the error of the first one that does. -/
theorem bind_eq_error {ε α β : Type} {x : Except ε α} {f : α → Except ε β} {e : ε} :
    (x >>= f) = .error e ↔ x = .error e ∨ ∃ a, x = .ok a ∧ f a = .error e := by
  cases x with
  | error e' =>
    constructor
    · intro h
      exact Or.inl (congrArg Except.error (Except.error.inj h))
    · rintro (h | ⟨a, h, -⟩)
      · exact congrArg Except.error (Except.error.inj h)
      · cases h
  | ok a =>
    constructor
    · intro h
      exact Or.inr ⟨a, rfl, h⟩
    · rintro (h | ⟨a', h, h'⟩)
      · cases h
      · cases h
        exact h'

end EpsCloud

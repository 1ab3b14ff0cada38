import Mathlib

/-!
# Calendar days and naive timestamps

The application computes with two kinds of time: `datetime.date`, a day of the
proleptic Gregorian calendar, and naive `datetime.datetime` values holding UTC.
Both are integers here, as both are in the standard library underneath.  A day
is its ordinal (`date.toordinal()`, with 0001-01-01 as ordinal `1`), and a
timestamp counts microseconds, the resolution of `datetime`, from the midnight
that starts ordinal `0`.  Comparing, subtracting and shifting days is then
integer arithmetic, which is what `timedelta(days=n)` does.

* `weekday`: `date.weekday()`, counted from Monday.
* `ymd2ord`, `ord2ymd`: the two conversions of the standard library.
* `isoformat`, `fromisoformat`: the text form of a day, as it stands in the
  journal's URLs, in form fields and in audit row ids.
-/

namespace EpsCloud

/-- A calendar day, as its proleptic ordinal. -/
abbrev Date := ℤ

/-- A naive UTC timestamp, in microseconds from the midnight that starts ordinal `0`. -/
abbrev Moment := ℤ

/-- The microseconds of one day. -/
def dayLength : ℤ := 86400000000

theorem dayLength_pos : 0 < dayLength := by decide

/-- `timedelta(days=n)`, in microseconds. -/
def daysToMicroseconds (n : ℤ) : ℤ := n * dayLength

/-- `date.weekday()`: Monday is `0`. -/
def weekday (d : Date) : ℤ := (d + 6) % 7

/-! ## Years and months -/

/-- The Gregorian leap years. -/
def isLeap (year : ℕ) : Bool :=
  year % 4 == 0 && (year % 100 != 0 || year % 400 == 0)

/-- The days of a month, `0` for a month that does not exist. -/
def daysInMonth (year month : ℕ) : ℕ :=
  if month = 2 ∧ isLeap year then 29
  else [0, 31, 28, 31, 30, 31, 30, 31, 31, 30, 31, 30, 31].getD month 0

/-- The days of the year before the first of a month. -/
def daysBeforeMonth (year month : ℕ) : ℕ :=
  ((List.range month).map (daysInMonth year)).sum

/-- The days before the first of January of a year. -/
def daysBeforeYear (year : ℕ) : ℤ :=
  let y : ℤ := year - 1
  y * 365 + y / 4 - y / 100 + y / 400

/-- The ordinal of a year, a month and a day of that month. -/
def ymd2ord (year month day : ℕ) : Date :=
  daysBeforeYear year + daysBeforeMonth year month + day

/-- The year, month and day of an ordinal, by the 400-year, 100-year, 4-year and
one-year cycles. -/
def ord2ymd (d : Date) : ℕ × ℕ × ℕ :=
  let n := (d - 1).toNat
  let n400 := n / 146097
  let n := n % 146097
  let n100 := n / 36524
  let n := n % 36524
  let n4 := n / 1461
  let n := n % 1461
  let n1 := n / 365
  let n := n % 365
  let year := n400 * 400 + n100 * 100 + n4 * 4 + n1 + 1
  -- the last day of a leap cycle would otherwise open a fifth year of it
  if n1 = 4 ∨ n100 = 4 then (year - 1, 12, 31)
  else
    let month := ((List.range 13).filter fun m => 1 ≤ m ∧ daysBeforeMonth year m ≤ n).length
    (year, month, n - daysBeforeMonth year month + 1)

/-- The constructor `date(year, month, day)`, which refuses what is not a day. -/
def mkDate (year month day : ℕ) : Option Date :=
  if 1 ≤ year ∧ year ≤ 9999 ∧ 1 ≤ month ∧ month ≤ 12 ∧ 1 ≤ day ∧ day ≤ daysInMonth year month then
    some (ymd2ord year month day)
  else none

/-! ## The text form of a day -/

/-- A number padded with zeros on the left to a width. -/
def zeroPad (width n : ℕ) : String :=
  let digits := toString n
  String.ofList (List.replicate (width - digits.length) '0') ++ digits

/-- `date.isoformat()`. -/
def isoformat (d : Date) : String :=
  let (year, month, day) := ord2ymd d
  zeroPad 4 year ++ "-" ++ zeroPad 2 month ++ "-" ++ zeroPad 2 day

/-- Read exactly `n` decimal digits off the front. -/
def parseDigits (n : ℕ) (cs : List Char) : Option (ℕ × List Char) :=
  let front := cs.take n
  if front.length = n ∧ front.all Char.isDigit then
    some (front.foldl (fun acc c => acc * 10 + (c.toNat - '0'.toNat)) 0, cs.drop n)
  else none

/-- Drop the separator `-` when the text uses one. -/
def parseSeparator (uses : Bool) : List Char → Option (List Char)
  | '-' :: cs => if uses then some cs else none
  | cs => if uses then none else some cs

/-- The Monday of week 1 of an ISO year, the week that holds its first Thursday. -/
def isoWeek1Monday (year : ℕ) : Date :=
  let first := ymd2ord year 1 1
  let monday := first - weekday first
  if weekday first > 3 then monday + 7 else monday

/-- The day of an ISO year, week and weekday.  Only the years that start on a Thursday,
and the leap years that start on a Wednesday, have a week 53. -/
def isoWeekDate (year week day : ℕ) : Option Date :=
  let first := weekday (ymd2ord year 1 1)
  if 1 ≤ year ∧ year ≤ 9999 ∧ 1 ≤ week ∧ 1 ≤ day ∧ day ≤ 7 ∧
      (week ≤ 52 ∨ (week = 53 ∧ (first = 3 ∨ (first = 2 ∧ isLeap year)))) then
    let d := isoWeek1Monday year + (week - 1) * 7 + (day - 1)
    if d ≤ ymd2ord 9999 12 31 then some d else none
  else none

/-- `date.fromisoformat`: `YYYY-MM-DD`, `YYYYMMDD`, `YYYY-Www-D`, `YYYYWwwD` and the two
week forms without a weekday.  Only the length of the text is checked, in bytes: what follows a
day that is read is not looked at, so that two more bytes may follow `YYYYMMDD` and `YYYYWwwD`. -/
def fromisoformat (text : String) : Option Date := do
  let cs := text.toList
  guard ((cs.map Char.utf8Size).sum ∈ [7, 8, 10])
  let (year, cs) ← parseDigits 4 cs
  let uses := cs.head? == some '-'
  let cs := if uses then cs.drop 1 else cs
  match cs with
  | 'W' :: cs =>
    let (week, cs) ← parseDigits 2 cs
    if cs.isEmpty then isoWeekDate year week 1
    else
      let cs ← parseSeparator uses cs
      let (day, _) ← parseDigits 1 cs
      isoWeekDate year week day
  | cs =>
    let (month, cs) ← parseDigits 2 cs
    let cs ← parseSeparator uses cs
    let (day, _) ← parseDigits 2 cs
    mkDate year month day

end EpsCloud

import EpsCloud.Time.Calendar
import EpsCloud.Library.PiecewiseOffset

/-!
# The user's zone

`app.clock`: everything that turns a moment into a calendar day, or a calendar
day into a moment.  The zone of the standard library is a table of transitions,
each with the offset that holds from it on.  Between year 1 and year 9999 a zone
whose transitions lie days apart has finitely many, so a list of any length is
no restriction.

A wall-clock time is converted back by PEP 495 with `fold=0`, as
`datetime.combine(day, time.min, tzinfo=zone())` leaves `fold` at zero: of two
equal wall-clock times the earlier moment, and for a time that is skipped the
moment that the offset before the transition gives.  `zoneinfo` finds the offset
by bisecting the wall-clock times `t + max(before, after)` of the transitions.

* `localDayStart_galoisConnection`: in a zone whose local date never goes back
  and that skips no local midnight strictly inside, `localDayStartUtc` and
  `localDateOf` are a Galois connection.
-/

namespace EpsCloud

open PiecewiseOffset

/-- A zone: its first offset and its transitions, each a moment and the offset, in
microseconds, from that moment on.  Transitions are more than two days apart. -/
structure Zone where
  initial : ℤ
  transitions : List (Moment × ℤ)
  spaced : Spaced (daysToMicroseconds 2) transitions

/-- The UTC offset in force at a moment. -/
def Zone.utcoffset (zone : Zone) (moment : Moment) : ℤ :=
  offsetFrom zone.initial zone.transitions moment

/-- The UTC offset that a wall-clock time is read with when `fold` is `0`. -/
def Zone.wallOffset (zone : Zone) (wall : ℤ) : ℤ :=
  resolveFrom zone.initial zone.transitions wall

/-- Which local day a stored naive-UTC timestamp fell on. -/
def localDateOf (zone : Zone) (moment : Moment) : Date :=
  (moment + zone.utcoffset moment) / dayLength

/-- Local midnight of a day, in naive UTC. -/
def localDayStartUtc (zone : Zone) (day : Date) : Moment :=
  day * dayLength - zone.wallOffset (day * dayLength)

/-- Today in the configured zone: `datetime.now(zone()).date()` at the moment `now`. -/
def currentDate (zone : Zone) (now : Moment) : Date := localDateOf zone now

/-- UTC throughout. -/
def utcZone : Zone := ⟨0, [], List.Pairwise.nil⟩

/-- The transitions of a zone that has none. -/
theorem spaced_nil : Spaced (daysToMicroseconds 2) ([] : List (Moment × ℤ)) := List.Pairwise.nil

/-- The local date never decreases as UTC time advances. -/
def Zone.DateNeverDecreases (zone : Zone) : Prop :=
  ∀ m m' : Moment, m ≤ m' → localDateOf zone m ≤ localDateOf zone m'

/-- No skipped wall-clock interval contains a local midnight other than at its start or its
end. -/
def Zone.SkipsNoMidnight (zone : Zone) : Prop :=
  ∀ j ∈ jumps zone.initial zone.transitions, ∀ day : Date,
    ¬ (j.1 < day * dayLength ∧ day * dayLength < j.2)

/-- **Day starts and local dates are adjoint.** -/
theorem localDayStart_galoisConnection (zone : Zone) (hdate : zone.DateNeverDecreases)
    (hskip : zone.SkipsNoMidnight) :
    GaloisConnection (localDayStartUtc zone) (localDateOf zone) :=
  galoisConnection_resolve dayLength_pos (by decide) zone.spaced (fun _ _ h => hdate _ _ h)
    fun day j hj => hskip j hj day

end EpsCloud

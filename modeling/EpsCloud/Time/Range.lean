import EpsCloud.Time.Clock
import EpsCloud.Schema.Tables

/-!
# The days and moments that exist

The standard library has the days from 0001-01-01 to 9999-12-31 and the moments of
these days, and raises `OverflowError` where a computation leaves them.

* `fromisoformat_mem`: every day that is read from a text is one of them.
* `localDayStart_eq_ok`, `localDate_eq_ok`: when the two conversions succeed, in a
  zone whose offsets are less than a day.
-/

namespace EpsCloud

open PiecewiseOffset

/-- `date.max`, as its ordinal; that of `date.min` is `1`. -/
def maxDay : Date := 3652059

def DayExists (day : Date) : Prop := 1 ≤ day ∧ day ≤ maxDay

def MomentExists (moment : Moment) : Prop :=
  dayLength ≤ moment ∧ moment < (maxDay + 1) * dayLength

instance (day : Date) : Decidable (DayExists day) := inferInstanceAs (Decidable (_ ∧ _))

instance (moment : Moment) : Decidable (MomentExists moment) := inferInstanceAs (Decidable (_ ∧ _))

/-- A day that was computed. -/
def checkedDay (day : Date) : Except Failure Date :=
  if DayExists day then .ok day else .error .raised

/-- A moment that was computed. -/
def checkedMoment (moment : Moment) : Except Failure Moment :=
  if MomentExists moment then .ok moment else .error .raised

/-- `local_day_start_utc`: the midnight is shifted by its offset. -/
def localDayStart (zone : Zone) (day : Date) : Except Failure Moment :=
  checkedMoment (localDayStartUtc zone day)

/-- `local_date_of`: the moment is shifted by the offset in force. -/
def localDate (zone : Zone) (moment : Moment) : Except Failure Date :=
  (checkedMoment (moment + zone.utcoffset moment)).map (· / dayLength)

/-! ## Texts -/

/-- The days before a year that has a number of at most four digits. -/
theorem daysBeforeYear_bounds {year : ℕ} (h : 1 ≤ year ∧ year ≤ 9999) :
    0 ≤ daysBeforeYear year ∧
      daysBeforeYear year + (if isLeap year then 366 else 365) ≤ 3652059 := by
  have hleap : isLeap year = true → year % 4 = 0 := by
    intro h
    rw [isLeap, Bool.and_eq_true, beq_iff_eq] at h
    exact h.1
  unfold daysBeforeYear
  dsimp only
  split_ifs with hif
  · have hmod := hleap hif
    omega
  · omega

theorem daysBeforeMonth_add_le {year month day : ℕ} (hmonth : 1 ≤ month ∧ month ≤ 12)
    (hday : day ≤ daysInMonth year month) :
    daysBeforeMonth year month + day ≤ if isLeap year then 366 else 365 := by
  obtain ⟨hlow, hhigh⟩ := hmonth
  cases hleap : isLeap year <;> interval_cases month <;>
    simp [daysBeforeMonth, daysInMonth, hleap, List.range_succ] at hday ⊢ <;> omega

theorem dayExists_of_mkDate {year month day : ℕ} {d : Date} (h : mkDate year month day = some d) :
    DayExists d := by
  rw [mkDate] at h
  split_ifs at h with hvalid
  obtain ⟨hyear, hyear', hmonth, hmonth', hday, hday'⟩ := hvalid
  obtain ⟨hbefore, hbefore'⟩ := daysBeforeYear_bounds ⟨hyear, hyear'⟩
  have hlast : ((daysBeforeMonth year month + day : ℕ) : ℤ) ≤ if isLeap year then 366 else 365 :=
    (Int.ofNat_le.mpr (daysBeforeMonth_add_le ⟨hmonth, hmonth'⟩ hday')).trans
      (by split_ifs <;> rfl)
  push_cast at hlast
  obtain rfl := Option.some.inj h
  unfold DayExists maxDay ymd2ord
  constructor <;> lia

theorem dayExists_of_isoWeekDate {year week day : ℕ} {d : Date}
    (h : isoWeekDate year week day = some d) : DayExists d := by
  unfold isoWeekDate at h
  dsimp only at h
  split_ifs at h with hvalid hlast
  obtain ⟨hyear, hyear', hweek, hday, -⟩ := hvalid
  have hfirst : 1 ≤ isoWeek1Monday year := by
    unfold isoWeek1Monday weekday ymd2ord daysBeforeYear
    have hmonth : daysBeforeMonth year 1 = 0 := rfl
    rw [hmonth]
    dsimp only
    split_ifs <;> lia
  have hweek' : (1 : ℤ) ≤ week := by exact_mod_cast hweek
  have hday' : (1 : ℤ) ≤ day := by exact_mod_cast hday
  obtain rfl := Option.some.inj h
  exact ⟨by lia, hlast.trans (by decide)⟩

/-- **Every day that is read from a text exists.** -/
theorem fromisoformat_mem {text : String} {day : Date} (h : fromisoformat text = some day) :
    DayExists day := by
  unfold fromisoformat at h
  simp only [Option.bind_eq_bind, Option.bind_eq_some_iff] at h
  obtain ⟨-, -, ⟨year, cs⟩, -, h⟩ := h
  split at h
  · rw [Option.bind_eq_some_iff] at h
    obtain ⟨⟨week, cs⟩, -, h⟩ := h
    dsimp only at h
    split_ifs at h
    · exact dayExists_of_isoWeekDate h
    · simp only [Option.bind_eq_some_iff] at h
      obtain ⟨_, -, _, -, h⟩ := h
      exact dayExists_of_isoWeekDate h
  · simp only [Option.bind_eq_some_iff] at h
    obtain ⟨_, -, _, -, _, -, h⟩ := h
    exact dayExists_of_mkDate h

/-! ## Conversions -/

/-- The offsets of the zone are less than a day, as the standard library demands. -/
def Zone.OffsetsWithinADay (zone : Zone) : Prop :=
  ∀ o ∈ zone.initial :: zone.transitions.map Prod.snd, -dayLength < o ∧ o < dayLength

/-- **The start of a day** is a moment that exists, unless the day is the first one and its midnight
is ahead of UTC. -/
theorem localDayStart_eq_ok {zone : Zone} (hzone : zone.OffsetsWithinADay) {day : Date}
    (hday : DayExists day) :
    localDayStart zone day =
      if day = 1 ∧ 0 < zone.wallOffset dayLength then .error .raised
      else .ok (localDayStartUtc zone day) := by
  obtain ⟨hlow, hhigh⟩ := hzone _ (resolveFrom_mem zone.initial zone.transitions (day * dayLength))
  have hexists : MomentExists (localDayStartUtc zone day) ↔
      ¬ (day = 1 ∧ 0 < zone.wallOffset dayLength) := by
    unfold MomentExists localDayStartUtc Zone.wallOffset
    rcases eq_or_lt_of_le hday.1 with rfl | hlt
    · rw [one_mul] at *
      constructor
      · rintro ⟨hle, -⟩ ⟨-, hpos⟩
        linarith
      · intro hnot
        have hle : resolveFrom zone.initial zone.transitions dayLength ≤ 0 :=
          not_lt.mp fun hpos => hnot ⟨rfl, hpos⟩
        refine ⟨by linarith, ?_⟩
        have : (2 : ℤ) * dayLength ≤ (maxDay + 1) * dayLength := by decide
        linarith
    · refine iff_of_true ⟨?_, ?_⟩ fun h => absurd h.1 hlt.ne'
      · have : (2 : ℤ) * dayLength ≤ day * dayLength :=
          mul_le_mul_of_nonneg_right hlt dayLength_pos.le
        linarith
      · have : (day + 1) * dayLength ≤ (maxDay + 1) * dayLength :=
          mul_le_mul_of_nonneg_right (add_le_add_left hday.2 1) dayLength_pos.le
        linarith
  rw [localDayStart, checkedMoment]
  by_cases h : day = 1 ∧ 0 < zone.wallOffset dayLength
  · rw [if_neg fun hm => hexists.mp hm h, if_pos h]
  · rw [if_pos (hexists.mpr h), if_neg h]

/-- **The local date** of a moment exists if the moment does on the local clock. -/
theorem localDate_eq_ok (zone : Zone) (moment : Moment) :
    localDate zone moment =
      if MomentExists (moment + zone.utcoffset moment) then .ok (localDateOf zone moment)
      else .error .raised := by
  rw [localDate, checkedMoment]
  split_ifs <;> rfl

end EpsCloud

import Mathlib.Algebra.Order.Ring.Abs
import Mathlib.Tactic.Ring

namespace QuickJsOxide.Dates

/-! The Gregorian calendar of `Date`: a time value is taken apart into the
fields of a date and put together from them. The numbers are integers, and
`none` stands for NaN. -/

def msPerSecond : Int := 1000
def msPerMinute : Int := 60 * msPerSecond
def msPerHour : Int := 60 * msPerMinute
def msPerDay : Int := 24 * msPerHour
def timeClipBound : Int := 8640000000000000

def monthDays : List Int := [31, 28, 31, 30, 31, 30, 31, 31, 30, 31, 30, 31]

structure DateInputFields where
  year : Int
  month : Int
  date : Int
  hour : Int
  minute : Int
  second : Int
  millisecond : Int
deriving Repr, DecidableEq

structure DateFields extends DateInputFields where
  weekday : Int
  timezone : Int
deriving Repr, DecidableEq

def mathMod (value modulus : Int) : Int :=
  let remainder := value.tmod modulus
  remainder + (if remainder < 0 then 1 else 0) * modulus

def floorDiv (value divisor : Int) : Int :=
  (value - mathMod value divisor).tdiv divisor

def daysFromYear (year : Int) : Int :=
  365 * (year - 1970) + floorDiv (year - 1969) 4 - floorDiv (year - 1901) 100
    + floorDiv (year - 1601) 400

def daysInYear (year : Int) : Int :=
  365 + (if year.tmod 4 = 0 then 1 else 0)
    - (if year.tmod 100 = 0 then 1 else 0)
    + (if year.tmod 400 = 0 then 1 else 0)

theorem mathMod_eq (value : Int) (positive : 0 < modulus) :
    mathMod value modulus = value % modulus := by
  have := Int.emod_nonneg value positive.ne'
  have := Int.emod_lt_of_pos value positive
  unfold mathMod
  rw [Int.tmod_eq_emod]
  split_ifs <;> grind

theorem floorDiv_eq (value : Int) (positive : 0 < divisor) :
    floorDiv value divisor = value / divisor := by
  unfold floorDiv
  rw [mathMod_eq value positive, ← Int.mul_ediv_self,
    Int.mul_tdiv_cancel_left _ positive.ne']

theorem daysFromYear_eq (year : Int) :
    daysFromYear year = 365 * (year - 1970) + (year - 1969) / 4
      - (year - 1901) / 100 + (year - 1601) / 400 := by
  unfold daysFromYear
  rw [floorDiv_eq _ (by decide), floorDiv_eq _ (by decide),
    floorDiv_eq _ (by decide)]

theorem daysInYear_eq (year : Int) :
    daysInYear year = 365 + (if year % 4 = 0 then 1 else 0)
      - (if year % 100 = 0 then 1 else 0)
      + (if year % 400 = 0 then 1 else 0) := by
  unfold daysInYear
  simp only [← Int.dvd_iff_tmod_eq_zero, Int.dvd_iff_emod_eq_zero]

theorem daysInYear_bounds (year : Int) :
    365 ≤ daysInYear year ∧ daysInYear year ≤ 366 := by
  rw [daysInYear_eq]
  omega

theorem daysFromYear_succ (year : Int) :
    daysFromYear (year + 1) = daysFromYear year + daysInYear year := by
  rw [daysFromYear_eq, daysFromYear_eq, daysInYear_eq]
  omega

def daysOff (absoluteDays year : Int) : Nat :=
  if absoluteDays < daysFromYear year then
    (daysFromYear year - absoluteDays).toNat
  else (absoluteDays - daysFromYear (year + 1) + 1).toNat

def correctYear (absoluteDays year : Int) : Int × Int :=
  let dayInYear := absoluteDays - daysFromYear year
  if dayInYear < 0 then correctYear absoluteDays (year - 1)
  else if dayInYear < daysInYear year then (year, dayInYear)
  else correctYear absoluteDays (year + 1)
termination_by daysOff absoluteDays year
decreasing_by
  · have earlier := daysFromYear_succ (year - 1)
    have long := daysInYear_bounds (year - 1)
    rw [sub_add_cancel] at earlier
    unfold daysOff
    rw [sub_add_cancel]
    split_ifs <;> omega
  · have later := daysFromYear_succ year
    have long := daysInYear_bounds (year + 1)
    have next := daysFromYear_succ (year + 1)
    unfold daysOff
    split_ifs <;> omega

def yearFromDays (days : Int) : Int × Int :=
  correctYear days (floorDiv (days * 10000) 3652425 + 1970)

def monthLength (year : Int) (month : Nat) : Int :=
  monthDays.getD month 0 + if month = 1 then daysInYear year - 365 else 0

def findMonth (year : Int) (month : Nat) (days : Int) : Nat × Int :=
  if month < 11 then
    if days < monthLength year month then (month, days)
    else findMonth year (month + 1) (days - monthLength year month)
  else (month, days)
termination_by 11 - month

def daysBeforeMonth (year : Int) (month : Nat) : Int :=
  (List.range month).foldl (fun days index => days + monthLength year index)
    (daysFromYear year)

def dateFields (time timezone : Int) : DateFields :=
  let withinDay := mathMod time msPerDay
  let days := (time - withinDay).tdiv msPerDay
  let millisecond := withinDay.tmod msPerSecond
  let seconds := (withinDay - millisecond).tdiv msPerSecond
  let second := seconds.tmod 60
  let minutes := (seconds - second).tdiv 60
  let minute := minutes.tmod 60
  let hour := (minutes - minute).tdiv 60
  let weekday := mathMod (days + 4) 7
  let year := yearFromDays days
  let month := findMonth year.1 0 year.2
  { year := year.1, month := month.1, date := month.2 + 1, hour, minute,
    second, millisecond, weekday, timezone }

def getDateFields (dateValue : Option Int) (isLocal force : Bool)
    (timezoneOffset : Int → Int) : Option DateFields :=
  match dateValue with
  | none => if force then some (dateFields 0 0) else none
  | some time =>
    let timezone := if isLocal then -timezoneOffset time else 0
    some (dateFields (time + timezone * msPerMinute) timezone)

def timeClip (time : Int) : Option Int :=
  if -timeClipBound ≤ time ∧ time ≤ timeClipBound then some time else none

def setDateFields (fields : DateInputFields) (isLocal : Bool)
    (timezoneOffset : Int → Int) : Option Int :=
  let normalizedYear := fields.year + fields.month / 12
  let remainder := fields.month.tmod 12
  let normalizedMonth := if remainder < 0 then remainder + 12 else remainder
  if normalizedYear < -271821 ∨ 275760 < normalizedYear then none
  else
    let day := daysBeforeMonth normalizedYear normalizedMonth.toNat +
      fields.date - 1
    let time := fields.hour * msPerHour + fields.minute * msPerMinute +
      fields.second * msPerSecond + fields.millisecond
    let timeValue := day * msPerDay + time
    if isLocal then
      -- The provider is asked about a time of 64 bits.
      let offsetTime := max (-2 ^ 63) (min timeValue (2 ^ 63 - 1))
      timeClip (timeValue + timezoneOffset offsetTime * msPerMinute)
    else timeClip timeValue

end QuickJsOxide.Dates

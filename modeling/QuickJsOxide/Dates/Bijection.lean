import Mathlib.Algebra.Order.SuccPred
import Mathlib.Data.Int.ConditionallyCompleteOrder
import Mathlib.Data.Int.SuccPred
import Mathlib.Order.SuccPred.IntervalSucc
import Mathlib.Tactic.IntervalCases
import QuickJsOxide.Dates.Calendar

namespace QuickJsOxide.Dates

/-! Times and dates correspond to each other: every time has one date, and the
date gives back the time. -/

/-- A number lies between two consecutive values of a monotone function at one
place only. -/
theorem place_unique [LinearOrder Place] [SuccOrder Place]
    {start : Place → Int} (mono : Monotone start) {first second : Place}
    (inFirst : start first ≤ value ∧ value < start (Order.succ first))
    (inSecond : start second ≤ value ∧ value < start (Order.succ second)) :
    first = second := by
  by_contra apart
  have disjoint := mono.pairwise_disjoint_on_Ico_succ apart
  exact Set.disjoint_left.mp disjoint inFirst inSecond

theorem daysFromYear_mono : Monotone daysFromYear := by
  apply monotone_int_of_le_succ
  intro year
  have long := daysInYear_bounds year
  rw [daysFromYear_succ]
  omega

def IsYearOf (year days : Int) : Prop :=
  daysFromYear year ≤ days ∧ days < daysFromYear (year + 1)

theorem IsYearOf.unique {first second days : Int} (here : IsYearOf first days)
    (there : IsYearOf second days) : first = second :=
  place_unique daysFromYear_mono here there

theorem correctYear_isYearOf (days year : Int) :
    IsYearOf (correctYear days year).1 days ∧ (correctYear days year).2 =
        days - daysFromYear (correctYear days year).1 := by
  fun_induction correctYear days year with
  | case1 _ _ _ induction => exact induction
  | case2 year =>
    have length := daysFromYear_succ year
    refine ⟨⟨?_, ?_⟩, rfl⟩
    · dsimp only
      omega
    · dsimp only
      omega
  | case3 _ _ _ _ induction => exact induction

theorem monthLength_nonneg (year : Int) (month : Nat) :
    0 ≤ monthLength year month := by
  have long := daysInYear_bounds year
  have plain : 0 ≤ monthDays.getD month 0 := by
    by_cases inside : month < 12
    · interval_cases month <;> decide
    · simp [List.getD_eq_getElem?_getD, monthDays, Nat.not_lt.mp inside]
  unfold monthLength
  split_ifs <;> omega

theorem daysBeforeMonth_succ (year : Int) (month : Nat) :
    daysBeforeMonth year (month + 1) =
      daysBeforeMonth year month + monthLength year month := by
  simp [daysBeforeMonth, List.range_succ]

theorem daysBeforeMonth_mono (year : Int) :
    Monotone (daysBeforeMonth year) := by
  apply monotone_nat_of_le_succ
  intro month
  have long := monthLength_nonneg year month
  rw [daysBeforeMonth_succ]
  omega

theorem daysBeforeMonth_twelve (year : Int) :
    daysBeforeMonth year 12 = daysFromYear (year + 1) := by
  rw [daysFromYear_succ]
  simp [daysBeforeMonth, List.range_succ, monthLength, monthDays]
  ring

theorem findMonth_spec (start : month ≤ 11) (late : 0 ≤ days) :
    (findMonth year month days).1 ≤ 11 ∧ 0 ≤ (findMonth year month days).2 ∧
      daysBeforeMonth year (findMonth year month days).1 +
          (findMonth year month days).2 = daysBeforeMonth year month + days ∧
      ((findMonth year month days).1 < 11 → (findMonth year month days).2 <
          monthLength year (findMonth year month days).1) := by
  fun_induction findMonth year month days with
  | case1 _ _ _ short => exact ⟨start, late, rfl, fun _ => short⟩
  | case2 month _ inside _ induction =>
    have next := daysBeforeMonth_succ year month
    obtain ⟨bound, nonneg, total, last⟩ := induction inside (by omega)
    exact ⟨bound, nonneg, by omega, last⟩
  | case3 _ _ outside =>
    exact ⟨start, late, rfl, fun inside => absurd inside outside⟩

structure DateInputFields.Valid (fields : DateInputFields) : Prop where
  month : 0 ≤ fields.month ∧ fields.month ≤ 11
  date : 1 ≤ fields.date ∧
    fields.date ≤ monthLength fields.year fields.month.toNat
  hour : 0 ≤ fields.hour ∧ fields.hour < 24
  minute : 0 ≤ fields.minute ∧ fields.minute < 60
  second : 0 ≤ fields.second ∧ fields.second < 60
  millisecond : 0 ≤ fields.millisecond ∧ fields.millisecond < 1000

namespace DateInputFields

def day (fields : DateInputFields) : Int :=
  daysBeforeMonth fields.year fields.month.toNat + fields.date - 1

def timeOfDay (fields : DateInputFields) : Int :=
  fields.hour * msPerHour + fields.minute * msPerMinute +
    fields.second * msPerSecond + fields.millisecond

variable {fields : DateInputFields}

theorem Valid.isYearOf (valid : fields.Valid) :
    IsYearOf fields.year fields.day := by
  have month := valid.month
  have date := valid.date
  have first :=
    daysBeforeMonth_mono fields.year (Nat.zero_le fields.month.toNat)
  have last := daysBeforeMonth_mono fields.year
    (by omega : fields.month.toNat + 1 ≤ 12)
  rw [daysBeforeMonth_succ, daysBeforeMonth_twelve] at last
  rw [show daysBeforeMonth fields.year 0 =
    daysFromYear fields.year from rfl] at first
  unfold IsYearOf day
  omega

theorem Valid.timeOfDay_bounds (valid : fields.Valid) :
    0 ≤ fields.timeOfDay ∧ fields.timeOfDay < msPerDay := by
  obtain ⟨-, -, hour, minute, second, millisecond⟩ := valid
  unfold timeOfDay msPerDay msPerHour msPerMinute msPerSecond
  omega

theorem Valid.inMonth (valid : fields.Valid) :
    daysBeforeMonth fields.year fields.month.toNat ≤ fields.day ∧
      fields.day < daysBeforeMonth fields.year (fields.month.toNat + 1) := by
  have date := valid.date
  rw [daysBeforeMonth_succ]
  unfold day
  omega

theorem Valid.ext {one other : DateInputFields} (here : one.Valid)
    (there : other.Valid) (days : one.day = other.day)
    (times : one.timeOfDay = other.timeOfDay) : one = other := by
  have years : one.year = other.year :=
    here.isYearOf.unique (days ▸ there.isYearOf)
  have months : one.month.toNat = other.month.toNat := by
    have place := there.inMonth
    rw [← years, ← days] at place
    exact place_unique (daysBeforeMonth_mono one.year) here.inMonth place
  unfold day at days
  rw [years, months] at days
  unfold timeOfDay msPerHour msPerMinute msPerSecond at times
  obtain ⟨_, _, _, _, _, _⟩ := here
  obtain ⟨_, _, _, _, _, _⟩ := there
  cases one
  cases other
  simp only [mk.injEq] at *
  omega

theorem setDateFields_of_valid (valid : fields.Valid)
    (timezoneOffset : Int → Int) :
    setDateFields fields false timezoneOffset =
      if fields.year < -271821 ∨ 275760 < fields.year then none
      else timeClip (fields.day * msPerDay + fields.timeOfDay) := by
  obtain ⟨early, late⟩ := valid.month
  have year : fields.year + fields.month / 12 = fields.year := by omega
  have month : fields.month.tmod 12 = fields.month := by
    exact Int.tmod_eq_of_lt early (by omega)
  simp only [setDateFields, year, month, if_neg (not_lt.mpr early)]
  rfl

end DateInputFields

theorem sub_tmod_tdiv {value divisor : Int} (nonneg : 0 ≤ value)
    (positive : 0 < divisor) :
    (value - value.tmod divisor).tdiv divisor = value / divisor := by
  have same := floorDiv_eq value positive
  unfold floorDiv at same
  rwa [mathMod_eq value positive, ← Int.tmod_eq_emod_of_nonneg nonneg] at same

theorem findMonth_day (days : Int) (inYear : yearFromDays days = year)
    (inMonth : findMonth year.1 0 year.2 = month) :
    month.1 ≤ 11 ∧ 0 ≤ month.2 ∧ month.2 < monthLength year.1 month.1 ∧
      daysBeforeMonth year.1 month.1 + month.2 = days := by
  subst inYear inMonth
  obtain ⟨⟨start, stop⟩, dayInYear⟩ := correctYear_isYearOf days
    (floorDiv (days * 10000) 3652425 + 1970)
  rw [← yearFromDays] at start stop dayInYear
  rw [← daysBeforeMonth_twelve] at stop
  obtain ⟨bound, nonneg, total, short⟩ :=
    findMonth_spec (Nat.zero_le 11) (by omega : 0 ≤ (yearFromDays days).2)
  rw [show daysBeforeMonth (yearFromDays days).1 0 =
    daysFromYear (yearFromDays days).1 from rfl] at total
  refine ⟨bound, nonneg, ?_, by omega⟩
  obtain inside | last := bound.lt_or_eq
  · exact short inside
  · rw [last] at total ⊢
    rw [daysBeforeMonth_succ] at stop
    omega

theorem dateFields_spec (time timezone : Int) :
    (dateFields time timezone).Valid ∧
      (dateFields time timezone).day = time / msPerDay ∧
      (dateFields time timezone).timeOfDay = time % msPerDay ∧
      (dateFields time timezone).weekday = (time / msPerDay + 4) % 7 := by
  have days := floorDiv_eq time (by decide : 0 < msPerDay)
  have within := mathMod_eq time (by decide : 0 < msPerDay)
  have early := Int.emod_nonneg time (by decide : msPerDay ≠ 0)
  have late := Int.emod_lt_of_pos time (by decide : 0 < msPerDay)
  unfold floorDiv at days
  unfold dateFields
  rw [within] at days
  simp only [within, days]
  generalize inYear : yearFromDays (time / msPerDay) = year
  generalize inMonth : findMonth year.1 0 year.2 = month
  obtain ⟨bound, nonneg, short, total⟩ := findMonth_day _ inYear inMonth
  generalize time % msPerDay = clock at *
  have seconds : 0 ≤ clock / msPerSecond := Int.ediv_nonneg early (by decide)
  have minutes : 0 ≤ clock / msPerSecond / 60 :=
    Int.ediv_nonneg seconds (by decide)
  rw [sub_tmod_tdiv early (by decide), Int.tmod_eq_emod_of_nonneg early,
    sub_tmod_tdiv seconds (by decide), Int.tmod_eq_emod_of_nonneg seconds,
    sub_tmod_tdiv minutes (by decide), Int.tmod_eq_emod_of_nonneg minutes,
    mathMod_eq _ (by decide)]
  unfold msPerDay msPerHour msPerMinute msPerSecond at late
  refine ⟨⟨?_, ?_, ?_, ?_, ?_, ?_⟩, ?_, ?_, rfl⟩
  all_goals simp only [DateInputFields.day, DateInputFields.timeOfDay,
    msPerHour, msPerMinute, msPerSecond, Int.toNat_natCast]
  all_goals omega

theorem year_inRange (isYear : IsYearOf year days)
    (clipped : -100000000 ≤ days ∧ days ≤ 100000000) :
    ¬(year < -271821 ∨ 275760 < year) := by
  obtain ⟨start, stop⟩ := isYear
  rintro (early | late)
  · have := daysFromYear_mono (by omega : year + 1 ≤ -271821)
    have : daysFromYear (-271821) ≤ -100000000 := by decide
    omega
  · have := daysFromYear_mono (by omega : 275761 ≤ year)
    have : 100000000 < daysFromYear 275761 := by decide
    omega

theorem setDateFields_dateFields (timezone : Int)
    (clipped : -timeClipBound ≤ time ∧ time ≤ timeClipBound)
    (timezoneOffset : Int → Int) :
    setDateFields (dateFields time timezone).toDateInputFields false
      timezoneOffset = some time := by
  obtain ⟨valid, days, clock, -⟩ := dateFields_spec time timezone
  have whole := Int.mul_ediv_add_emod time msPerDay
  rw [DateInputFields.setDateFields_of_valid valid, days, clock, if_neg,
    mul_comm, whole, timeClip, if_pos clipped]
  apply year_inRange valid.isYearOf
  rw [days]
  unfold timeClipBound at clipped
  unfold msPerDay msPerHour msPerMinute msPerSecond
  omega

theorem setDateFields_injective {one other : DateInputFields} (here : one.Valid)
    (there : other.Valid)
    (first : setDateFields one false timezoneOffset = some time)
    (second : setDateFields other false timezoneOffset = some time) :
    one = other := by
  have times : ∀ fields : DateInputFields, fields.Valid →
      setDateFields fields false timezoneOffset = some time →
      fields.day * msPerDay + fields.timeOfDay = time := by
    intro fields valid found
    rw [DateInputFields.setDateFields_of_valid valid] at found
    unfold timeClip at found
    grind
  have sums := (times one here first).trans (times other there second).symm
  have := here.timeOfDay_bounds
  have := there.timeOfDay_bounds
  unfold msPerDay msPerHour msPerMinute msPerSecond at *
  exact here.ext there (by omega) (by omega)

theorem calendar_bijective (time : Int)
    (clipped : -timeClipBound ≤ time ∧ time ≤ timeClipBound)
    (force : Bool) (timezoneOffset : Int → Int) :
    (∀ year, IsYearOf year (time / msPerDay) ↔
      year = (yearFromDays (time / msPerDay)).1) ∧
    (∃ fields, getDateFields (some time) false force timezoneOffset =
        some fields ∧
      fields.year = (yearFromDays (time / msPerDay)).1 ∧ fields.Valid ∧
      fields.weekday = (time / msPerDay + 4) % 7 ∧
      setDateFields fields.toDateInputFields false timezoneOffset = some time) ∧
    ∀ (one other : DateInputFields) (moment : Int), one.Valid → other.Valid →
      setDateFields one false timezoneOffset = some moment →
      setDateFields other false timezoneOffset = some moment → one = other := by
  have isYear := (correctYear_isYearOf (time / msPerDay)
    (floorDiv (time / msPerDay * 10000) 3652425 + 1970)).1
  obtain ⟨valid, days, -, weekday⟩ := dateFields_spec time 0
  have sameYear := valid.isYearOf
  rw [days] at sameYear
  refine ⟨fun year => ⟨fun found => found.unique isYear, ?_⟩, ?_, ?_⟩
  · rintro rfl
    exact isYear
  · refine ⟨dateFields time 0, ?_, sameYear.unique isYear, valid, weekday,
      setDateFields_dateFields 0 clipped timezoneOffset⟩
    simp [getDateFields]
  · intro one other moment here there first second
    exact setDateFields_injective here there first second

/-- The last millisecond of a leap day before 1970. -/
theorem calendar_bijective_leapDay :
    dateFields (-57974400001) 0 =
      ⟨⟨1968, 1, 29, 23, 59, 59, 999⟩, 4, 0⟩ ∧
    setDateFields (dateFields (-57974400001) 0).toDateInputFields false
      (fun _ => 0) = some (-57974400001) := by
  obtain ⟨_, found, -, -, -, restored⟩ :=
    (calendar_bijective (-57974400001) (by decide) false fun _ => 0).2.1
  obtain rfl := Option.some.inj found
  exact ⟨by decide +kernel, restored⟩

end QuickJsOxide.Dates

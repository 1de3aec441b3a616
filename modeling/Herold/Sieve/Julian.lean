import Mathlib.Tactic.IntervalCases
import Herold.Sieve.Match

/-!
# The julian date part

The proleptic Gregorian calendar by counting days, and the closed form behind the
`julian` date part beside it.
-/

namespace Herold.Sieve

open Herold.Go

structure CivilDate where
  year : Nat
  month : Nat
  day : Nat
  deriving DecidableEq

def isLeapYear (year : Nat) : Bool := year % 4 = 0 && (year % 100 ≠ 0 || year % 400 = 0)

def yearLength (year : Nat) : Nat := if isLeapYear year then 366 else 365

def monthLength (year : Nat) : Nat → Nat
  | 2 => if isLeapYear year then 29 else 28
  | 4 => 30
  | 6 => 30
  | 9 => 30
  | 11 => 30
  | _ => 31

namespace CivilDate

def Valid (date : CivilDate) : Prop :=
  1 ≤ date.month ∧ date.month ≤ 12 ∧ 1 ≤ date.day ∧ date.day ≤ monthLength date.year date.month

instance (date : CivilDate) : Decidable date.Valid := by
  unfold Valid
  infer_instance

/-- How many days lie between the first of January of the year zero and the date:
whole years, then whole months, then days. -/
def daysBefore (date : CivilDate) : Nat :=
  ((List.range date.year).map yearLength).sum +
    ((List.range (date.month - 1)).map fun earlier => monthLength date.year (earlier + 1)).sum +
    (date.day - 1)

def next (date : CivilDate) : CivilDate :=
  if date.day < monthLength date.year date.month then { date with day := date.day + 1 }
  else if date.month < 12 then ⟨date.year, date.month + 1, 1⟩
  else ⟨date.year + 1, 1, 1⟩

def NotBefore (start date : CivilDate) : Prop :=
  start.year < date.year ∨ start.year = date.year ∧
    (start.month < date.month ∨ start.month = date.month ∧ start.day ≤ date.day)

instance (start date : CivilDate) : Decidable (NotBefore start date) := by
  unfold NotBefore
  infer_instance

def reform : CivilDate := ⟨1582, 10, 15⟩

def epoch : CivilDate := ⟨1858, 11, 17⟩

def modifiedJulianDay (date : CivilDate) : Int := (date.daysBefore : Int) - epoch.daysBefore

end CivilDate

/-- `t.Date()`. -/
def Moment.date (moment : Moment) : CivilDate := ⟨moment.year, moment.month, moment.day⟩

theorem leap_year_iff (year : Nat) :
    isLeapYear year = true ↔ year % 4 = 0 ∧ (year % 100 ≠ 0 ∨ year % 400 = 0) := by
  simp [isLeapYear]

theorem year_length_rules (year : Nat) :
    yearLength year + (if year % 100 = 0 then 1 else 0) =
      365 + (if year % 4 = 0 then 1 else 0) + (if year % 400 = 0 then 1 else 0) := by
  have leap := leap_year_iff year
  unfold yearLength
  by_cases is : isLeapYear year = true
  · have parts := leap.mp is
    rw [if_pos is, if_pos parts.1]
    rcases parts.2 with common | long
    · rw [if_neg common, if_neg (by omega)]
    · rw [if_pos (by omega), if_pos long]
  · rw [if_neg is]
    by_cases fourth : year % 4 = 0
    · have hundredth : year % 100 = 0 := by
        by_contra common
        exact is (leap.mpr ⟨fourth, Or.inl common⟩)
      have short : ¬year % 400 = 0 := fun long => is (leap.mpr ⟨fourth, Or.inr long⟩)
      rw [if_pos hundredth, if_pos fourth, if_neg short]
    · rw [if_neg fourth, if_neg (by omega), if_neg (by omega)]

theorem days_of_years (year : Nat) :
    ((List.range year).map yearLength).sum + (year + 99) / 100 =
      365 * year + (year + 3) / 4 + (year + 399) / 400 := by
  induction year with
  | zero => rfl
  | succ year ih =>
    have fourths : (year + 1 + 3) / 4 = (year + 3) / 4 + (if year % 4 = 0 then 1 else 0) := by
      split <;> omega
    have hundredths : (year + 1 + 99) / 100 = (year + 99) / 100 +
      (if year % 100 = 0 then 1 else 0) := by
      split <;> omega
    have longest : (year + 1 + 399) / 400 = (year + 399) / 400 + (if year % 400 = 0 then 1 else 0) := by
      split <;> omega
    have rules := year_length_rules year
    rw [List.range_succ, List.map_append, List.sum_append, fourths, hundredths, longest]
    simp only [List.map_cons, List.map_nil, List.sum_cons, List.sum_nil]
    generalize (if year % 4 = 0 then 1 else 0) = fourth at rules ⊢
    generalize (if year % 100 = 0 then 1 else 0) = hundredth at rules ⊢
    generalize (if year % 400 = 0 then 1 else 0) = long at rules ⊢
    omega

theorem days_of_months (year month : Nat) (first : 1 ≤ month) (last : month ≤ 12) :
    ((List.range (month - 1)).map fun earlier => monthLength year (earlier + 1)).sum =
      [0, 31, 59, 90, 120, 151, 181, 212, 243, 273, 304, 334].getD (month - 1) 0 +
        (if isLeapYear year ∧ 2 < month then 1 else 0) := by
  by_cases leap : isLeapYear year = true
  · interval_cases month <;> simp [leap, List.range_succ, monthLength]
  · interval_cases month <;> simp [leap, List.range_succ, monthLength]

theorem month_length_positive (year month : Nat) : 1 ≤ monthLength year month := by
  unfold monthLength
  split <;> (try split) <;> omega

theorem months_make_year (year : Nat) :
    ((List.range 11).map fun earlier => monthLength year (earlier + 1)).sum + monthLength year 12 =
      yearLength year := by
  by_cases leap : isLeapYear year = true
  · simp [leap, List.range_succ, monthLength, yearLength]
  · simp [leap, List.range_succ, monthLength, yearLength]

theorem days_before_next (date : CivilDate) (valid : date.Valid) :
    date.next.Valid ∧ date.next.daysBefore = date.daysBefore + 1 := by
  obtain ⟨year, month, day⟩ := date
  obtain ⟨first, last, early, late⟩ := valid
  simp only at first last early late
  unfold CivilDate.next
  by_cases within : day < monthLength year month
  · rw [if_pos within]
    refine ⟨⟨first, last, by simp, within⟩, ?_⟩
    simp only [CivilDate.daysBefore]
    omega
  · rw [if_neg within]
    have full : day = monthLength year month := by omega
    by_cases more : month < 12
    · rw [if_pos more]
      refine ⟨⟨by simp, more, by simp, month_length_positive _ _⟩, ?_⟩
      have split : List.range (month + 1 - 1) = List.range (month - 1) ++ [month - 1] := by
        rw [← List.range_succ]
        congr 1
        omega
      simp only [CivilDate.daysBefore, split, List.map_append, List.sum_append, List.map_cons,
        List.map_nil,
        List.sum_cons, List.sum_nil]
      rw [show month - 1 + 1 = month from by omega]
      omega
    · rw [if_neg more]
      have december : month = 12 := by omega
      subst december
      refine ⟨⟨by simp, by simp, by simp, month_length_positive _ _⟩, ?_⟩
      have whole := months_make_year year
      simp only [CivilDate.daysBefore, List.range_succ (n := year), List.map_append, List.sum_append,
        List.map_cons, List.map_nil, List.sum_cons, List.sum_nil]
      simp only [Nat.sub_self, List.range_zero, List.map_nil, List.sum_nil, show 12 - 1 = 11 from rfl]
      omega

theorem days_before_closed (date : CivilDate) (first : 1 ≤ date.month) (last : date.month ≤ 12) :
    date.daysBefore + (date.year + 99) / 100 =
      365 * date.year + (date.year + 3) / 4 + (date.year + 399) / 400 +
        [0, 31, 59, 90, 120, 151, 181, 212, 243, 273, 304, 334].getD (date.month - 1) 0 +
        (if isLeapYear date.year ∧ 2 < date.month then 1 else 0) + (date.day - 1) := by
  have years := days_of_years date.year
  have months := days_of_months date.year date.month first last
  unfold CivilDate.daysBefore
  omega

theorem epoch_days : CivilDate.epoch.daysBefore = 678941 := by
  have closed := days_before_closed CivilDate.epoch (by decide) (by decide)
  have common : isLeapYear 1858 = false := by decide
  simp [CivilDate.epoch, common] at closed ⊢
  omega

/-- The closed form with the years counted from March on, so that the leap day ends
one. -/
def marchForm (year month day : Int) : Int :=
  365 * year + year / 4 - year / 100 + year / 400 + 306001 * (month + 1) / 10000 + day - 679003

theorem julian_march_form (moment : Moment) (since : 1 ≤ moment.year) :
    julian moment =
      if moment.month ≤ 2 then marchForm (moment.year - 1) (moment.month + 12) moment.day
      else marchForm moment.year moment.month moment.day := by
  have floors : ∀ year : Int, 0 ≤ year →
      1461 * (year + 4716) / 4 + (2 - year.tdiv 100 + (year.tdiv 100).tdiv 4) =
        365 * year + year / 4 - year / 100 + year / 400 + 1722521 := by
    intro year positive
    have quarter : 1461 * (year + 4716) / 4 = 365 * year + year / 4 + 1722519 := by omega
    have nested : year / 100 / 4 = year / 400 := by omega
    rw [Int.tdiv_eq_ediv_of_nonneg positive, Int.tdiv_eq_ediv_of_nonneg (by omega), quarter, nested]
    omega
  unfold julian marchForm
  by_cases early : moment.month ≤ 2
  · simp only [if_pos early]
    have floor := floors (moment.year - 1) (by omega)
    omega
  · simp only [if_neg early]
    have floor := floors moment.year (by omega)
    omega

theorem julian_counts (moment : Moment) (valid : moment.date.Valid) (since : 1 ≤ moment.year) :
    julian moment = moment.date.modifiedJulianDay + 1 := by
  rw [julian_march_form moment since]
  unfold CivilDate.modifiedJulianDay
  rw [epoch_days]
  obtain ⟨year, month, day, hour, minute, second, weekday⟩ := moment
  obtain ⟨first, last, early, -⟩ := valid
  have closed := days_before_closed ⟨year, month, day⟩ first last
  have leap := leap_year_iff year
  simp only [Moment.date, marchForm] at first last early since closed ⊢
  generalize CivilDate.daysBefore _ = days at closed ⊢
  by_cases is : isLeapYear year = true
  · have parts := leap.mp is
    interval_cases month <;> simp [is] at closed ⊢ <;> omega
  · have parts : ¬(year % 4 = 0 ∧ (year % 100 ≠ 0 ∨ year % 400 = 0)) := fun parts =>
      is (leap.mpr parts)
    interval_cases month <;> simp [is] at closed ⊢ <;> omega

theorem decimal_head (value : Nat) (rest : Bytes) : decimal value ≠ 45 :: rest := by
  intro signed
  unfold decimal at signed
  split at signed
  case isTrue => cases signed
  case isFalse =>
    have member : (45 : UInt8) ∈ (Nat.digits 10 value).reverse.map fun digit =>
      UInt8.ofNat (48 + digit) := by
      rw [signed]
      exact List.mem_cons_self
    obtain ⟨digit, among, same⟩ := List.mem_map.mp member
    have small := Nat.digits_lt_base (by decide) (List.mem_reverse.mp among)
    interval_cases digit <;> simp at same

theorem decimal_int_injective : Function.Injective decimalInt := by
  intro left right same
  unfold decimalInt at same
  split at same
  case isTrue negative =>
    split at same
    case isTrue other =>
      have sizes := decimal_injective (List.cons.inj same).2
      omega
    case isFalse => exact absurd same.symm (decimal_head _ _)
  case isFalse positive =>
    split at same
    case isTrue => exact absurd same (decimal_head _ _)
    case isFalse other =>
      have sizes := decimal_injective same
      omega

theorem date_part_julian (moment : Moment) :
    datePart moment (ascii "julian") = decimalInt (julian moment) := by
  have lower : toLower (ascii "julian") = ascii "julian" := by decide
  unfold datePart
  simp only [lower]
  rw [if_neg (by decide), if_neg (by decide), if_neg (by decide), if_neg (by decide),
    if_pos trivial]

theorem next_not_before (start date : CivilDate) (valid : date.Valid)
    (since : CivilDate.NotBefore start date) : CivilDate.NotBefore start date.next := by
  obtain ⟨-, last, -, late⟩ := valid
  unfold CivilDate.NotBefore at since ⊢
  unfold CivilDate.next
  split
  case isTrue => simp only; omega
  case isFalse =>
    split
    case isTrue => simp only; omega
    case isFalse => simp only; omega

/-- The count the formula makes is one too high on every day, so it still goes up by
one from each day to the next. -/
theorem julian_part_is_no_modified_julian_day (moment later : Moment) (valid : moment.date.Valid)
    (since : CivilDate.NotBefore CivilDate.reform moment.date) (after : later.date = moment.date.next) :
    datePart moment (ascii "julian") ≠ decimalInt moment.date.modifiedJulianDay ∧
      julian moment = moment.date.modifiedJulianDay + 1 ∧ julian later = julian moment + 1 := by
  have late : ∀ date, CivilDate.NotBefore CivilDate.reform date → 1 ≤ date.year := by
    intro date since
    simp only [CivilDate.NotBefore, CivilDate.reform] at since
    omega
  have counted := julian_counts moment valid (late _ since)
  obtain ⟨laterValid, laterDays⟩ := days_before_next moment.date valid
  have laterSince := next_not_before _ _ valid since
  rw [← after] at laterValid laterDays laterSince
  have laterCounted := julian_counts later laterValid (late _ laterSince)
  refine ⟨?_, counted, ?_⟩
  · rw [date_part_julian, counted]
    intro same
    have equal := decimal_int_injective same
    omega
  · unfold CivilDate.modifiedJulianDay at counted laterCounted
    omega

theorem julian_part_around_leap_day :
    datePart ⟨2000, 2, 29, 12, 0, 0, 2⟩ (ascii "julian") ≠
        decimalInt (Moment.date ⟨2000, 2, 29, 12, 0, 0, 2⟩).modifiedJulianDay ∧
      julian ⟨2000, 2, 29, 12, 0, 0, 2⟩ =
        (Moment.date ⟨2000, 2, 29, 12, 0, 0, 2⟩).modifiedJulianDay + 1 ∧
      julian ⟨2000, 3, 1, 0, 0, 0, 3⟩ = julian ⟨2000, 2, 29, 12, 0, 0, 2⟩ + 1 :=
  julian_part_is_no_modified_julian_day ⟨2000, 2, 29, 12, 0, 0, 2⟩ ⟨2000, 3, 1, 0, 0, 0, 3⟩
    (by decide) (by decide) (by decide)

theorem julian_part_of_epoch :
    datePart ⟨1858, 11, 17, 0, 0, 0, 3⟩ (ascii "julian") = ascii "1" ∧
      datePart ⟨1858, 11, 17, 0, 0, 0, 3⟩ (ascii "julian") ≠
        decimalInt (Moment.date ⟨1858, 11, 17, 0, 0, 0, 3⟩).modifiedJulianDay := by
  have start : (Moment.date ⟨1858, 11, 17, 0, 0, 0, 3⟩).modifiedJulianDay = 0 := by
    show CivilDate.epoch.modifiedJulianDay = 0
    unfold CivilDate.modifiedJulianDay
    omega
  rw [start, date_part_julian]
  decide

end Herold.Sieve

import Herold.Sieve.Match

/-!
# The numeric comparator

`i;ascii-numeric` compares two texts by the decimal number each begins with; a
text that begins with no digit is beyond every number. The digits are summed up
in an integer of 64 bits, and a header may carry any number of them.
-/

namespace Herold.Sieve

open Herold.Go

def leadingDigits (text : Bytes) : Bytes := text.takeWhile isDigit

/-- The accumulator holds the number read so far up to a multiple of `2 ^ 64`. -/
theorem leading_loop_reads (text digits : Bytes) (found : Bool) :
    leadingLoop (Int64.ofNat (decimalValue digits)) found text =
      (Int64.ofNat (decimalValue (digits ++ leadingDigits text)),
        found || !(leadingDigits text).isEmpty) := by
  induction text generalizing digits found with
  | nil => simp [leadingLoop, leadingDigits]
  | cons byte rest ih =>
    by_cases digit : isDigit byte
    · have next : Int64.ofNat (decimalValue digits) * 10 + Int64.ofNat (byte.toNat - 48) =
          Int64.ofNat (decimalValue (digits ++ [byte])) := by
        rw [decimal_value_snoc, Int64.ofNat_add, Int64.ofNat_mul]
        rfl
      have split : leadingDigits (byte :: rest) = byte :: leadingDigits rest := by
        simp [leadingDigits, digit]
      simp only [leadingLoop, digit, if_true]
      rw [next, ih, split]
      simp
    · have stop : leadingDigits (byte :: rest) = [] := by simp [leadingDigits, digit]
      simp [leadingLoop, digit, stop]

theorem parse_leading_number_reads (text : Bytes) :
    parseLeadingNumber text = if leadingDigits text = [] then none
      else some (Int64.ofNat (decimalValue (leadingDigits text))) := by
  have reads := leading_loop_reads text [] false
  have start : Int64.ofNat (decimalValue []) = 0 := rfl
  rw [start, List.nil_append, Bool.false_or] at reads
  simp only [parseLeadingNumber, reads]
  by_cases none : leadingDigits text = []
  · simp [none]
  · simp [none]

theorem int64_of_nat_eq (left right : Nat) :
    Int64.ofNat left = Int64.ofNat right ↔ left % 2 ^ 64 = right % 2 ^ 64 := by
  rw [← Int64.toBitVec_inj, ← BitVec.toNat_inj]
  rfl

/-- RFC 4790: two texts are equal if neither begins with a digit, or if the
numbers they begin with are equal. -/
def SameNumber (value key : Bytes) : Prop :=
  (leadingDigits value = [] ∧ leadingDigits key = []) ∨
    (leadingDigits value ≠ [] ∧ leadingDigits key ≠ [] ∧
      decimalValue (leadingDigits value) = decimalValue (leadingDigits key))

def WrapTogether (value key : Bytes) : Prop :=
  leadingDigits value ≠ [] ∧ leadingDigits key ≠ [] ∧
    decimalValue (leadingDigits value) ≠ decimalValue (leadingDigits key) ∧
    decimalValue (leadingDigits value) % 2 ^ 64 = decimalValue (leadingDigits key) % 2 ^ 64

theorem compare_numeric (library : Library) (matcher : Matcher) (value key : Bytes)
    (numeric : toLower matcher.comparator = ascii "i;ascii-numeric") :
    compare library matcher value key = compareAsciiNumeric value key matcher.matchType := by
  have notCasemap : ¬(ascii "i;ascii-numeric" = ascii "i;ascii-casemap" ∨
      ascii "i;ascii-numeric" = []) := by decide
  simp only [compare, numeric, notCasemap, if_false, if_true]

theorem numeric_is_accepts (value key : Bytes) :
    compareAsciiNumeric value key .is = .ok true ↔ SameNumber value key ∨ WrapTogether value key := by
  have accepts : compareAsciiNumeric value key .is = .ok true ↔
      parseLeadingNumber value = parseLeadingNumber key := by
    simp [compareAsciiNumeric]
  rw [accepts, parse_leading_number_reads, parse_leading_number_reads]
  unfold SameNumber WrapTogether
  by_cases left : leadingDigits value = []
  · by_cases right : leadingDigits key = []
    · simp [left, right]
    · simp [left, right]
  · by_cases right : leadingDigits key = []
    · simp [left, right]
    · rw [if_neg left, if_neg right, Option.some.injEq, int64_of_nat_eq]
      by_cases same : decimalValue (leadingDigits value) = decimalValue (leadingDigits key)
      · simp [left, right, same]
      · simp [left, right, same]

theorem same_number_never_wraps (value key : Bytes) (same : SameNumber value key) :
    ¬WrapTogether value key := by
  rintro ⟨left, _, apart, _⟩
  rcases same with ⟨empty, _⟩ | ⟨_, _, equal⟩
  · exact left empty
  · exact apart equal

/-- With `i;ascii-numeric` and `:is` the comparison is right exactly when the two
numbers are not different numbers that agree modulo `2 ^ 64`. -/
theorem numeric_is_exact_iff (library : Library) (matcher : Matcher) (value key : Bytes)
    (numeric : toLower matcher.comparator = ascii "i;ascii-numeric")
    (equality : matcher.matchType = .is) :
    (compare library matcher value key = .ok true ↔ SameNumber value key) ↔
      ¬WrapTogether value key := by
  rw [compare_numeric library matcher value key numeric, equality, numeric_is_accepts]
  constructor
  · intro exact wraps
    have same := exact.mp (Or.inr wraps)
    exact same_number_never_wraps value key same wraps
  · intro apart
    constructor
    · intro accepted
      exact accepted.resolve_right apart
    · exact Or.inl

def numericIs : Matcher := { comparator := ascii "i;ascii-numeric" }

theorem numeric_is_exact_for_short_numbers :
    (compare emptyLibrary numericIs (ascii "0012x") (ascii "12") = .ok true ↔
      SameNumber (ascii "0012x") (ascii "12")) := by
  refine (numeric_is_exact_iff emptyLibrary numericIs (ascii "0012x") (ascii "12") (by decide)
    rfl).mpr ?_
  rintro ⟨_, _, apart, _⟩
  exact apart (by decide)

/-- `2 ^ 64` compares equal to zero. -/
theorem numeric_is_wraps_to_zero :
    ¬(compare emptyLibrary numericIs (ascii "18446744073709551616") (ascii "0") = .ok true ↔
      SameNumber (ascii "18446744073709551616") (ascii "0")) := by
  have accepted : compare emptyLibrary numericIs (ascii "18446744073709551616") (ascii "0") =
      .ok true := by decide
  intro exact
  rcases exact.mp accepted with ⟨empty, _⟩ | ⟨_, _, equal⟩
  · exact absurd empty (by decide)
  · exact absurd equal (by decide)

end Herold.Sieve

import Mathlib.Data.Nat.Bitwise
import Herold.Go.Strings
import Herold.Go.Utf8

/-!
# Lower-casing twice

The simple lower case of a rune is never a rune that has another lower case, so
lower-casing a text a second time changes nothing. That no rune is on both sides of
the case table is decided on two numbers, which have one bit for each rune.
-/

namespace Herold.Go

/-- The number whose bits are `count` positions from `low` on, in steps of `stride`. -/
def bitRun (low stride : Nat) : Nat → Nat
  | 0 => 0
  | count + 1 => 2 ^ (low + stride * count) ||| bitRun low stride count

theorem test_bit_run (low stride count step : Nat) (inside : step < count) :
    (bitRun low stride count).testBit (low + stride * step) = true := by
  induction count with
  | zero => exact absurd inside (Nat.not_lt_zero step)
  | succ count ih =>
    rw [bitRun, Nat.testBit_or, Bool.or_eq_true]
    rcases Nat.lt_succ_iff_lt_or_eq.mp inside with earlier | rfl
    · exact Or.inr (ih earlier)
    · exact Or.inl (Nat.testBit_two_pow_self)

def rowBits (run : CaseRange → Nat) (rows : List CaseRange) : Nat :=
  rows.foldr (fun row bits => run row ||| bits) 0

theorem test_row_bits (run : CaseRange → Nat) {rows : List CaseRange} {row : CaseRange}
    (listed : row ∈ rows)
    {position : Nat} (here : (run row).testBit position = true) :
    (rowBits run rows).testBit position = true := by
  induction rows with
  | nil => cases listed
  | cons first rows ih =>
    rw [rowBits, List.foldr_cons, ← rowBits, Nat.testBit_or, Bool.or_eq_true]
    rcases List.mem_cons.mp listed with rfl | later
    · exact Or.inl here
    · exact Or.inr (ih later)

namespace CaseRange

def takes (row : CaseRange) (rune : Nat) : Bool :=
  row.low ≤ rune && rune ≤ row.high && (rune - row.low) % row.stride == 0

def count (row : CaseRange) : Nat := (row.high - row.low) / row.stride + 1

def floor (row : CaseRange) : Nat := (row.low + row.delta).toNat

def taken (row : CaseRange) : Nat := bitRun row.low row.stride row.count

def made (row : CaseRange) : Nat := bitRun row.floor row.stride row.count

theorem takes_step {row : CaseRange} {rune : Nat} (inside : row.takes rune = true) :
    (rune - row.low) / row.stride < row.count ∧ rune =
      row.low + row.stride * ((rune - row.low) / row.stride) := by
  simp only [takes, Bool.and_eq_true, decide_eq_true_eq, beq_iff_eq] at inside
  obtain ⟨⟨low, high⟩, even⟩ := inside
  constructor
  · exact Nat.lt_succ_of_le (Nat.div_le_div_right (by omega))
  · rw [Nat.mul_div_cancel' (Nat.dvd_of_mod_eq_zero even)]
    omega

theorem taken_bit {row : CaseRange} {rune : Nat} (inside : row.takes rune = true) :
    row.taken.testBit rune = true := by
  obtain ⟨early, place⟩ := takes_step inside
  rw [place]
  exact test_bit_run row.low row.stride row.count _ early

theorem made_bit {row : CaseRange} {rune : Nat} (inside : row.takes rune = true)
    (above : 0 ≤ (row.low : Int) + row.delta) : row.made.testBit (rune + row.delta).toNat = true := by
  obtain ⟨early, place⟩ := takes_step inside
  have moved : ((rune : Int) + row.delta).toNat =
      row.floor + row.stride * ((rune - row.low) / row.stride) := by
    unfold floor
    omega
  rw [moved]
  exact test_bit_run row.floor row.stride row.count _ early

end CaseRange

/-- The runes that have a lower case, the ASCII ones included, and the surrogates. -/
def unlowered : Nat :=
  rowBits CaseRange.taken lowerRanges ||| bitRun 0x41 1 26 ||| (2 ^ 0x800 - 1) <<< 0xD800

def lowered : Nat := rowBits CaseRange.made lowerRanges

/-- Of the ASCII letters only `i` and `k` are the lower case of other runes. -/
theorem lowered_apart : lowered &&& unlowered = 0 ∧ lowered >>> 0x110000 = 0 ∧
    lowered % 2 ^ 128 = 2 ^ 0x69 ||| 2 ^ 0x6B := by decide +kernel

theorem lower_ranges_above : ∀ row ∈ lowerRanges, 0 ≤ (row.low : Int) + row.delta := by decide +kernel

theorem lowered_not_unlowered {rune : Nat} (low : lowered.testBit rune = true) :
    unlowered.testBit rune = false := by
  cases other : unlowered.testBit rune with
  | false => rfl
  | true =>
    have both : (lowered &&& unlowered).testBit rune = true := by
      rw [Nat.testBit_and, low, other]
      rfl
    rw [lowered_apart.1, Nat.zero_testBit] at both
    cases both

theorem apply_case_lowered (rune : Nat) :
    applyCase lowerRanges rune = rune ∨ lowered.testBit (applyCase lowerRanges rune) = true := by
  unfold applyCase
  split
  · rename_i row found
    right
    have listed := List.mem_of_find?_eq_some found
    have inside : row.takes rune = true := by
      have tested := List.find?_some found
      exact tested
    exact test_row_bits CaseRange.made listed
      (CaseRange.made_bit inside (lower_ranges_above row listed))
  · exact Or.inl rfl

theorem apply_case_keeps {rune : Nat} (low : unlowered.testBit rune = false) :
    applyCase lowerRanges rune = rune := by
  unfold applyCase
  split
  · rename_i row found
    have listed := List.mem_of_find?_eq_some found
    have inside : row.takes rune = true := by
      have tested := List.find?_some found
      exact tested
    have bit := test_row_bits CaseRange.taken listed (CaseRange.taken_bit inside)
    rw [unlowered, Nat.testBit_or, Nat.testBit_or, bit] at low
    cases low
  · rfl

theorem capital_unlowered {rune : Nat} (low : 0x41 ≤ rune) (high : rune ≤ 0x5A) :
    unlowered.testBit rune = true := by
  have bit := test_bit_run 0x41 1 26 (rune - 0x41) (by omega)
  have place : 0x41 + 1 * (rune - 0x41) = rune := by omega
  rw [place] at bit
  rw [unlowered, Nat.testBit_or, Nat.testBit_or, bit, Bool.or_true, Bool.true_or]

theorem to_lower_rune_keeps {rune : Nat} (low : unlowered.testBit rune = false) :
    toLowerRune rune = rune := by
  unfold toLowerRune
  split_ifs with small capital
  · simp only [Bool.and_eq_true, decide_eq_true_eq] at capital
    rw [capital_unlowered capital.1 capital.2] at low
    cases low
  · rfl
  · exact apply_case_keeps low

theorem to_lower_rune_twice (rune : Nat) : toLowerRune (toLowerRune rune) = toLowerRune rune := by
  by_cases small : rune < 0x80
  · by_cases capital : 0x41 ≤ rune ∧ rune ≤ 0x5A
    · have moved : toLowerRune rune = rune + 0x20 := by simp [toLowerRune, small, capital]
      have high : ¬(rune + 0x20 ≤ 0x5A) := by omega
      have still : rune + 0x20 < 0x80 := by omega
      rw [moved]
      simp [toLowerRune, still, high]
    · have same : toLowerRune rune = rune := by
        simp only [toLowerRune, if_pos small, Bool.and_eq_true, decide_eq_true_eq, if_neg capital]
      rw [same, same]
  · have wide : toLowerRune rune = applyCase lowerRanges rune := by
      simp only [toLowerRune, if_neg small]
    rcases apply_case_lowered rune with same | low
    · rw [wide, same, wide, same]
    · rw [wide]
      exact to_lower_rune_keeps (lowered_not_unlowered low)

theorem surrogate_unlowered {rune : Nat} (low : 0xD800 ≤ rune) (high : rune ≤ 0xDFFF) :
    unlowered.testBit rune = true := by
  have bit : ((2 ^ 0x800 - 1) <<< 0xD800).testBit rune = true := by
    rw [Nat.testBit_shiftLeft, Nat.testBit_two_pow_sub_one]
    simp only [ge_iff_le, Bool.and_eq_true, decide_eq_true_eq]
    omega
  rw [unlowered, Nat.testBit_or, bit, Bool.or_true]

theorem to_lower_rune_scalar {rune : Nat} (scalar : IsScalar rune) : IsScalar (toLowerRune rune) := by
  by_cases small : rune < 0x80
  · left
    unfold toLowerRune
    split_ifs <;> omega
  · have wide : toLowerRune rune = applyCase lowerRanges rune := by
      simp only [toLowerRune, if_neg small]
    rw [wide]
    rcases apply_case_lowered rune with same | low
    · rwa [same]
    · by_contra wrong
      simp only [IsScalar, not_or, not_and, not_lt, not_le] at wrong
      by_cases surrogate : applyCase lowerRanges rune ≤ 0xDFFF
      · have bit := surrogate_unlowered wrong.1 surrogate
        rw [lowered_not_unlowered low] at bit
        cases bit
      · have far : 0x110000 ≤ applyCase lowerRanges rune := wrong.2 (Nat.lt_of_not_le surrogate)
        have bit : (lowered >>> 0x110000).testBit (applyCase lowerRanges rune - 0x110000) = true := by
          rw [Nat.testBit_shiftRight, Nat.add_sub_of_le far, low]
        rw [lowered_apart.2.1, Nat.zero_testBit] at bit
        cases bit

theorem runes_flat_map_encode (items : List Nat) (scalar : ∀ rune ∈ items, IsScalar rune) :
    runes (items.flatMap encodeRune) = items.map fun rune => (rune, encodeRune rune) := by
  induction items with
  | nil => rfl
  | cons rune items ih =>
    rw [List.flatMap_cons, runes_encode rune (scalar rune List.mem_cons_self), List.map_cons,
      ih fun other member => scalar other (List.mem_cons_of_mem rune member)]

theorem runes_to_lower (text : Bytes) :
    runes (toLower text) = (runes text).map fun item =>
      (toLowerRune item.1, encodeRune (toLowerRune item.1)) := by
  have written : toLower text =
    ((runes text).map fun item => toLowerRune item.1).flatMap encodeRune := by
    rw [toLower, mapRunes, List.flatMap_map]
  have scalar : ∀ rune ∈ (runes text).map fun item => toLowerRune item.1, IsScalar rune := by
    intro rune member
    obtain ⟨item, listed, rfl⟩ := List.mem_map.mp member
    exact to_lower_rune_scalar (runes_scalar text item listed)
  rw [written, runes_flat_map_encode _ scalar, List.map_map]
  rfl

theorem to_lower_twice (text : Bytes) : toLower (toLower text) = toLower text := by
  calc toLower (toLower text)
      = (runes (toLower text)).flatMap fun item => encodeRune (toLowerRune item.1) := rfl
    _ = (runes text).flatMap fun item => encodeRune (toLowerRune (toLowerRune item.1)) := by
        rw [runes_to_lower, List.flatMap_map]
    _ = (runes text).flatMap fun item => encodeRune (toLowerRune item.1) := by
        simp only [to_lower_rune_twice]
    _ = toLower text := rfl

/-- A rune whose lower case is an ASCII one other than `i` and `k` folds as it does. -/
theorem fold_lower_rune {rune : Nat} (small : toLowerRune rune < 0x80)
    (other : toLowerRune rune ≠ 0x69 ∧ toLowerRune rune ≠ 0x6B) :
    foldRune (toLowerRune rune) = foldRune rune := by
  have narrow : rune < 0x80 := by
    by_contra large
    have wide : toLowerRune rune = applyCase lowerRanges rune := by
      simp only [toLowerRune, if_neg large]
    rw [wide] at small other
    rcases apply_case_lowered rune with same | low
    · rw [same] at small
      exact large small
    · have bit : (lowered % 2 ^ 128).testBit (applyCase lowerRanges rune) = true := by
        rw [Nat.testBit_mod_two_pow, low]
        simpa using small
      have few : ∀ position < 128, (2 ^ 0x69 ||| 2 ^ 0x6B : Nat).testBit position = true →
          position = 0x69 ∨ position = 0x6B := by decide +kernel
      rw [lowered_apart.2.2] at bit
      rcases few _ small bit with isI | isK
      · exact other.1 isI
      · exact other.2 isK
  have each : ∀ rune < 128, foldRune (toLowerRune rune) = foldRune rune := by decide +kernel
  exact each rune narrow

theorem equal_fold_to_lower (text : Bytes)
    (plain : ∀ byte ∈ toLower text, byte < 0x80 ∧ byte ≠ 0x69 ∧ byte ≠ 0x6B) :
    equalFold text (toLower text) = true := by
  have folds : ∀ item ∈ runes text, foldRune (toLowerRune item.1) = foldRune item.1 := by
    intro item member
    have written : ∀ byte ∈ encodeRune (toLowerRune item.1), byte ∈ toLower text :=
      fun byte inside => List.mem_flatMap.mpr ⟨item, member, inside⟩
    have small : toLowerRune item.1 < (0x80 : Nat) := by
      by_contra wide
      obtain ⟨byte, inside⟩ := List.exists_mem_of_ne_nil _ (encode_rune_nonempty (toLowerRune item.1))
      have high := encode_rune_wide _ (Nat.not_lt.mp wide) byte inside
      exact absurd (plain byte (written byte inside)).1 (UInt8.not_lt.mpr high)
    have single : UInt8.ofNat (toLowerRune item.1) ∈ encodeRune (toLowerRune item.1) := by
      simp [encodeRune, small]
    obtain ⟨_, notI, notK⟩ := plain _ (written _ single)
    refine fold_lower_rune small ⟨fun isI => notI ?_, fun isK => notK ?_⟩
    · rw [isI]
      rfl
    · rw [isK]
      rfl
  unfold equalFold
  rw [decide_eq_true_eq, runes_to_lower, List.map_map]
  exact (List.map_congr_left folds).symm

end Herold.Go

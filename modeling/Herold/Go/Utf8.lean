import Herold.Go.Unicode

/-!
# Runes written as UTF-8 and read back

Decoding inverts encoding on every code point that UTF-8 can carry, and decodes
nothing else. A text that was written rune by rune is therefore visited rune by
rune as it was written.
-/

namespace Herold.Go

/-- A code point that UTF-8 can carry: no surrogate and not above U+10FFFF. -/
def IsScalar (rune : Nat) : Prop := rune < 0xD800 ∨ (0xE000 ≤ rune ∧ rune ≤ 0x10FFFF)

theorem byte_value (value : Nat) (small : value < 256) : (UInt8.ofNat value).toNat = value :=
  UInt8.toNat_ofNat_of_lt' small

theorem second_byte_within (first second : UInt8)
    (tail : 0x80 ≤ second.toNat ∧ second.toNat ≤ 0xBF)
    (overlong : first.toNat = 0xE0 → 0xA0 ≤ second.toNat)
    (surrogate : first.toNat = 0xED → second.toNat ≤ 0x9F)
    (plane : first.toNat = 0xF0 → 0x90 ≤ second.toNat)
    (top : first.toNat = 0xF4 → second.toNat ≤ 0x8F) : secondByteOk first second = true := by
  unfold secondByteOk isContinuation
  split_ifs with isE0 isED isF0 isF4 <;>
    simp only [Bool.and_eq_true, decide_eq_true_eq, UInt8.le_iff_toNat_le, UInt8.reduceToNat]
  · exact ⟨overlong (by rw [isE0]; rfl), tail.2⟩
  · exact ⟨tail.1, surrogate (by rw [isED]; rfl)⟩
  · exact ⟨plane (by rw [isF0]; rfl), tail.2⟩
  · exact ⟨tail.1, top (by rw [isF4]; rfl)⟩
  · exact tail

theorem continuation_byte (part : Nat) (small : part < 64) :
    isContinuation (UInt8.ofNat (0x80 + part)) = true := by
  simp only [isContinuation, Bool.and_eq_true, decide_eq_true_eq, UInt8.le_iff_toNat_le,
    byte_value (0x80 + part) (by omega), UInt8.reduceToNat]
  omega

theorem decode_two_bytes (rune : Nat) (low : 0x80 ≤ rune) (high : rune < 0x800) (rest : Bytes) :
    decodeRune (UInt8.ofNat (0xC0 + rune / 64) :: UInt8.ofNat (0x80 + rune % 64) :: rest) =
      (rune, 2) := by
  have first := byte_value (0xC0 + rune / 64) (by omega)
  have second := byte_value (0x80 + rune % 64) (by omega)
  have notSmall : ¬UInt8.ofNat (0xC0 + rune / 64) < 0x80 := by
    simp only [UInt8.lt_iff_toNat_lt, first, UInt8.reduceToNat]
    omega
  have lead : (0xC2 ≤ UInt8.ofNat (0xC0 + rune / 64) &&
      UInt8.ofNat (0xC0 + rune / 64) ≤ 0xDF) = true := by
    simp only [Bool.and_eq_true, decide_eq_true_eq, UInt8.le_iff_toNat_le, first, UInt8.reduceToNat]
    omega
  have ok : secondByteOk (UInt8.ofNat (0xC0 + rune / 64)) (UInt8.ofNat (0x80 + rune % 64)) = true := by
    apply second_byte_within <;> rw [second]
    · omega
    all_goals
      rw [first]
      omega
  simp only [decodeRune, if_neg notSmall, if_pos lead, if_pos ok]
  rw [first, second]
  have value : (0xC0 + rune / 64 - 0xC0) * 64 + (0x80 + rune % 64 - 0x80) = rune := by omega
  rw [value]

theorem decode_three_bytes (rune : Nat) (low : 0x800 ≤ rune) (high : rune < 0x10000)
    (scalar : IsScalar rune) (rest : Bytes) :
    decodeRune (UInt8.ofNat (0xE0 + rune / 4096) :: UInt8.ofNat (0x80 + rune / 64 % 64) ::
      UInt8.ofNat (0x80 + rune % 64) :: rest) = (rune, 3) := by
  have first := byte_value (0xE0 + rune / 4096) (by omega)
  have second := byte_value (0x80 + rune / 64 % 64) (by omega)
  have third := byte_value (0x80 + rune % 64) (by omega)
  have notSmall : ¬UInt8.ofNat (0xE0 + rune / 4096) < 0x80 := by
    simp only [UInt8.lt_iff_toNat_lt, first, UInt8.reduceToNat]
    omega
  have notTwo : ¬(0xC2 ≤ UInt8.ofNat (0xE0 + rune / 4096) &&
      UInt8.ofNat (0xE0 + rune / 4096) ≤ 0xDF) = true := by
    simp only [Bool.and_eq_true, decide_eq_true_eq, UInt8.le_iff_toNat_le, first, UInt8.reduceToNat]
    omega
  have lead : (0xE0 ≤ UInt8.ofNat (0xE0 + rune / 4096) &&
      UInt8.ofNat (0xE0 + rune / 4096) ≤ 0xEF) = true := by
    simp only [Bool.and_eq_true, decide_eq_true_eq, UInt8.le_iff_toNat_le, first, UInt8.reduceToNat]
    omega
  have ok : (secondByteOk (UInt8.ofNat (0xE0 + rune / 4096)) (UInt8.ofNat (0x80 + rune / 64 % 64)) &&
      isContinuation (UInt8.ofNat (0x80 + rune % 64))) = true := by
    rw [continuation_byte _ (Nat.mod_lt _ (by decide)), Bool.and_true]
    unfold IsScalar at scalar
    apply second_byte_within <;> rw [second]
    · omega
    all_goals
      rw [first]
      omega
  simp only [decodeRune, if_neg notSmall, if_neg notTwo, if_pos lead, if_pos ok]
  rw [first, second, third]
  have value : (0xE0 + rune / 4096 - 0xE0) * 4096 + (0x80 + rune / 64 % 64 - 0x80) * 64 +
      (0x80 + rune % 64 - 0x80) = rune := by omega
  rw [value]

theorem decode_four_bytes (rune : Nat) (low : 0x10000 ≤ rune) (high : rune ≤ 0x10FFFF) (rest : Bytes) :
    decodeRune (UInt8.ofNat (0xF0 + rune / 262144) :: UInt8.ofNat (0x80 + rune / 4096 % 64) ::
      UInt8.ofNat (0x80 + rune / 64 % 64) :: UInt8.ofNat (0x80 + rune % 64) :: rest) =
        (rune, 4) := by
  have first := byte_value (0xF0 + rune / 262144) (by omega)
  have second := byte_value (0x80 + rune / 4096 % 64) (by omega)
  have third := byte_value (0x80 + rune / 64 % 64) (by omega)
  have fourth := byte_value (0x80 + rune % 64) (by omega)
  have notSmall : ¬UInt8.ofNat (0xF0 + rune / 262144) < 0x80 := by
    simp only [UInt8.lt_iff_toNat_lt, first, UInt8.reduceToNat]
    omega
  have notTwo : ¬(0xC2 ≤ UInt8.ofNat (0xF0 + rune / 262144) &&
      UInt8.ofNat (0xF0 + rune / 262144) ≤ 0xDF) = true := by
    simp only [Bool.and_eq_true, decide_eq_true_eq, UInt8.le_iff_toNat_le, first, UInt8.reduceToNat]
    omega
  have notThree : ¬(0xE0 ≤ UInt8.ofNat (0xF0 + rune / 262144) &&
      UInt8.ofNat (0xF0 + rune / 262144) ≤ 0xEF) = true := by
    simp only [Bool.and_eq_true, decide_eq_true_eq, UInt8.le_iff_toNat_le, first, UInt8.reduceToNat]
    omega
  have lead : (0xF0 ≤ UInt8.ofNat (0xF0 + rune / 262144) &&
      UInt8.ofNat (0xF0 + rune / 262144) ≤ 0xF4) = true := by
    simp only [Bool.and_eq_true, decide_eq_true_eq, UInt8.le_iff_toNat_le, first, UInt8.reduceToNat]
    omega
  have ok : (secondByteOk (UInt8.ofNat (0xF0 + rune / 262144))
    (UInt8.ofNat (0x80 + rune / 4096 % 64)) &&
      isContinuation (UInt8.ofNat (0x80 + rune / 64 % 64)) &&
        isContinuation (UInt8.ofNat (0x80 + rune % 64))) = true := by
    rw [continuation_byte _ (Nat.mod_lt _ (by decide)), continuation_byte _ (Nat.mod_lt _ (by decide)),
      Bool.and_true, Bool.and_true]
    apply second_byte_within <;> rw [second]
    · omega
    all_goals
      rw [first]
      omega
  simp only [decodeRune, if_neg notSmall, if_neg notTwo, if_neg notThree, if_pos lead, if_pos ok]
  rw [first, second, third, fourth]
  have value : (0xF0 + rune / 262144 - 0xF0) * 262144 + (0x80 + rune / 4096 % 64 - 0x80) * 4096 +
      (0x80 + rune / 64 % 64 - 0x80) * 64 + (0x80 + rune % 64 - 0x80) = rune := by omega
  rw [value]

/-- Decoding gives back a rune that was written, whatever follows it. -/
theorem decode_encode (rune : Nat) (scalar : IsScalar rune) (rest : Bytes) :
    decodeRune (encodeRune rune ++ rest) = (rune, (encodeRune rune).length) := by
  have notExcluded : ¬((0xD800 ≤ rune && rune ≤ 0xDFFF) || 0x10FFFF < rune) = true := by
    unfold IsScalar at scalar
    simp only [Bool.or_eq_true, Bool.and_eq_true, decide_eq_true_eq]
    omega
  simp only [encodeRune, if_neg notExcluded]
  split_ifs with one two three
  · have single := byte_value rune (Nat.lt_trans one (by decide))
    have small : UInt8.ofNat rune < 0x80 := by
      rw [UInt8.lt_iff_toNat_lt, single]
      exact one
    rw [List.singleton_append, decode_rune_ascii _ _ small, single]
    rfl
  · exact decode_two_bytes rune (Nat.not_lt.mp one) two rest
  · exact decode_three_bytes rune (Nat.not_lt.mp two) three scalar rest
  · refine decode_four_bytes rune (Nat.not_lt.mp three) ?_ rest
    unfold IsScalar at scalar
    have bound : 0x10000 ≤ rune := Nat.not_lt.mp three
    omega

theorem second_byte_bounds (first second : UInt8) (ok : secondByteOk first second = true) :
    (0x80 ≤ second.toNat ∧ second.toNat ≤ 0xBF) ∧ (first = 0xED → second.toNat ≤ 0x9F) ∧
      (first = 0xF4 → second.toNat ≤ 0x8F) := by
  simp only [secondByteOk, isContinuation] at ok
  split_ifs at ok with isE0 isED isF0 isF4 <;>
    simp only [Bool.and_eq_true, decide_eq_true_eq, UInt8.le_iff_toNat_le, UInt8.reduceToNat] at ok
  · refine ⟨by omega, ?_, ?_⟩ <;>
    · rw [isE0]
      intro impossible
      exact absurd impossible (by decide)
  · exact ⟨by omega, fun _ => ok.2, fun is => absurd (isED ▸ is) (by decide)⟩
  · exact ⟨by omega, fun is => absurd is isED, fun is => absurd (isF0 ▸ is) (by decide)⟩
  · exact ⟨by omega, fun is => absurd is isED, fun _ => ok.2⟩
  · exact ⟨ok, fun is => absurd is isED, fun is => absurd is isF4⟩

theorem continuation_bound (byte : UInt8) (continues : isContinuation byte = true) :
    byte.toNat ≤ 0xBF := by
  simp only [isContinuation, Bool.and_eq_true, decide_eq_true_eq, UInt8.le_iff_toNat_le,
    UInt8.reduceToNat] at continues
  exact continues.2

theorem decode_rune_scalar (text : Bytes) : IsScalar (decodeRune text).1 := by
  have error : IsScalar runeError := Or.inr ⟨by decide, by decide⟩
  cases text with
  | nil => exact error
  | cons first rest =>
    simp only [decodeRune]
    split
    case isTrue small =>
      refine Or.inl (Nat.lt_trans (UInt8.lt_iff_toNat_lt.mp small) (by decide))
    case isFalse =>
      split
      case isTrue two =>
        simp only [Bool.and_eq_true, decide_eq_true_eq, UInt8.le_iff_toNat_le,
          UInt8.reduceToNat] at two
        split
        · rename_i second _
          split
          · rename_i ok
            obtain ⟨tail, _, _⟩ := second_byte_bounds first second ok
            refine Or.inl ?_
            change (first.toNat - 0xC0) * 64 + (second.toNat - 0x80) < 0xD800
            omega
          · exact error
        · exact error
      case isFalse =>
        split
        case isTrue three =>
          simp only [Bool.and_eq_true, decide_eq_true_eq, UInt8.le_iff_toNat_le,
            UInt8.reduceToNat] at three
          split
          · rename_i second third _
            split
            · rename_i ok
              simp only [Bool.and_eq_true] at ok
              obtain ⟨tail, surrogate, _⟩ := second_byte_bounds first second ok.1
              have last := continuation_bound third ok.2
              change IsScalar ((first.toNat - 0xE0) * 4096 + (second.toNat - 0x80) * 64 +
                (third.toNat - 0x80))
              unfold IsScalar
              by_cases isED : first = 0xED
              · have high := surrogate isED
                rw [isED]
                simp only [UInt8.reduceToNat]
                omega
              · have other : first.toNat ≠ 0xED := fun same => isED (UInt8.toNat_inj.mp same)
                omega
            · exact error
          · exact error
        case isFalse =>
          split
          case isTrue four =>
            simp only [Bool.and_eq_true, decide_eq_true_eq, UInt8.le_iff_toNat_le,
              UInt8.reduceToNat] at four
            split
            · rename_i second third fourth _
              split
              · rename_i ok
                simp only [Bool.and_eq_true] at ok
                obtain ⟨tail, _, top⟩ := second_byte_bounds first second ok.1.1
                obtain ⟨_, _, plane⟩ := second_byte_high first second ok.1.1
                have middle := continuation_bound third ok.1.2
                have last := continuation_bound fourth ok.2
                refine Or.inr ?_
                change 0xE000 ≤ (first.toNat - 0xF0) * 262144 + (second.toNat - 0x80) * 4096 +
                  (third.toNat - 0x80) * 64 + (fourth.toNat - 0x80) ∧ (first.toNat - 0xF0) * 262144 +
                    (second.toNat - 0x80) * 4096 + (third.toNat - 0x80) * 64 +
                      (fourth.toNat - 0x80) ≤ 0x10FFFF
                by_cases isF0 : first = 0xF0
                · have high := plane isF0
                  rw [isF0]
                  simp only [UInt8.reduceToNat]
                  omega
                · have notF0 : first.toNat ≠ 0xF0 := fun same => isF0 (UInt8.toNat_inj.mp same)
                  by_cases isF4 : first = 0xF4
                  · have low := top isF4
                    rw [isF4]
                    simp only [UInt8.reduceToNat]
                    omega
                  · have notF4 : first.toNat ≠ 0xF4 := fun same => isF4 (UInt8.toNat_inj.mp same)
                    omega
              · exact error
            · exact error
          case isFalse => exact error

theorem runes_from_pending (taken rest : Bytes) :
    runesFrom taken.length (taken ++ rest) = runes rest := by
  induction taken with
  | nil => rfl
  | cons first taken ih => exact ih

theorem encode_rune_nonempty (rune : Nat) : encodeRune rune ≠ [] := by
  simp only [encodeRune]
  split_ifs <;> simp

theorem runes_encode (rune : Nat) (scalar : IsScalar rune) (rest : Bytes) :
    runes (encodeRune rune ++ rest) = (rune, encodeRune rune) :: runes rest := by
  have decoded := decode_encode rune scalar rest
  cases encoded : encodeRune rune with
  | nil => exact absurd encoded (encode_rune_nonempty rune)
  | cons first tail =>
    rw [encoded, List.cons_append] at decoded
    rw [List.cons_append, runes, runesFrom, decoded]
    simp only [List.length_cons, Nat.add_sub_cancel, runes_from_pending]
    rw [← List.cons_append, ← List.length_cons (a := first), List.take_left]

theorem runes_scalar (text : Bytes) : ∀ rune ∈ runes text, IsScalar rune.1 := by
  have from_any : ∀ (pending : Nat) (text : Bytes), ∀ rune ∈ runesFrom pending text,
    IsScalar rune.1 := by
    intro pending text
    induction text generalizing pending with
    | nil => simp [runesFrom]
    | cons first rest ih =>
      cases pending with
      | succ pending => exact ih pending
      | zero =>
        intro rune member
        rw [runesFrom, List.mem_cons] at member
        rcases member with rfl | later
        · exact decode_rune_scalar _
        · exact ih _ rune later
  exact from_any 0 text

end Herold.Go

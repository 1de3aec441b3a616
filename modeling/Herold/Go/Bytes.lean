import Herold.Go.Strings

/-!
# The bytes that lower-casing can bring in

Lower-casing neither makes nor loses a control character or a punctuation mark
below the letters.
-/

namespace Herold.Go

theorem low_rune_in_text (pending : Nat) (text : Bytes) (byte : UInt8) (small : byte < 0x80) :
    ∀ item ∈ runesFrom pending text, item.1 = byte.toNat → byte ∈ text := by
  induction text generalizing pending with
  | nil =>
    intro item member
    cases pending with
    | zero => cases member
    | succ _ => cases member
  | cons first rest ih =>
    intro item member is
    cases pending with
    | succ pending => exact List.mem_cons_of_mem _ (ih pending item member is)
    | zero =>
      rcases List.mem_cons.mp member with rfl | later
      · by_cases ascii : first < 0x80
        · rw [decode_rune_ascii first rest ascii] at is
          rw [UInt8.toNat_inj.mp is]
          exact List.mem_cons_self ..
        · have wide := decode_rune_wide first rest (UInt8.not_lt.mp ascii)
          have narrow : byte.toNat < 0x80 := small
          rw [is] at wide
          exact absurd wide (Nat.not_le_of_lt narrow)
      · exact List.mem_cons_of_mem _ (ih _ item later is)

theorem lower_rune_below_letters (rune byte : Nat) (below : byte ≤ 92)
    (lowered : toLowerRune rune = byte) :
    rune = byte := by
  unfold toLowerRune at lowered
  split_ifs at lowered with small capital
  · simp only [Bool.and_eq_true, decide_eq_true_eq] at capital
    have low : 0x41 ≤ rune := capital.1
    have shifted : rune + 0x20 = byte := lowered
    omega
  · exact lowered
  · unfold applyCase at lowered
    split at lowered
    · rename_i row found
      have listed := List.mem_of_find?_eq_some found
      have inside := List.find?_some found
      simp only [Bool.and_eq_true, decide_eq_true_eq] at inside
      have low : row.low ≤ rune := inside.1.1
      have high : rune ≤ row.high := inside.1.2
      have misses : ∀ range ∈ lowerRanges, (92 : Int) < range.low + range.delta := by decide +kernel
      have shifted : ((rune : Int) + row.delta).toNat = byte := lowered
      have far := misses row listed
      omega
    · exact lowered

theorem upper_rune_below_letters (rune byte : Nat) (below : byte ≤ 64)
    (raised : toUpperRune rune = byte) :
    rune = byte := by
  unfold toUpperRune at raised
  split_ifs at raised with small letter
  · simp only [Bool.and_eq_true, decide_eq_true_eq] at letter
    have low : 0x61 ≤ rune := letter.1
    have shifted : rune - 0x20 = byte := raised
    omega
  · exact raised
  · unfold applyCase at raised
    split at raised
    · rename_i row found
      have listed := List.mem_of_find?_eq_some found
      have inside := List.find?_some found
      simp only [Bool.and_eq_true, decide_eq_true_eq] at inside
      have low : row.low ≤ rune := inside.1.1
      have misses : ∀ range ∈ upperRanges, (64 : Int) < range.low + range.delta := by decide +kernel
      have shifted : ((rune : Int) + row.delta).toNat = byte := raised
      have far := misses row listed
      omega
    · exact raised

def isPlainMark (byte : UInt8) : Bool := byte < 65

theorem mem_to_lower {text : Bytes} {byte : UInt8} (mark : isPlainMark byte = true) :
    byte ∈ toLower text ↔ byte ∈ text := by
  have below : byte.toNat < 65 := of_decide_eq_true mark
  have small : byte < 0x80 := Nat.lt_trans below (by decide)
  constructor
  · intro inside
    obtain ⟨item, member, here⟩ := List.mem_flatMap.mp inside
    have narrow : toLowerRune item.1 < (0x80 : Nat) := by
      by_contra wide
      have high := encode_rune_wide _ (Nat.not_lt.mp wide) byte here
      exact absurd small (UInt8.not_lt.mpr high)
    have value : toLowerRune item.1 = byte.toNat := by
      simp only [encodeRune, if_pos narrow, List.mem_singleton] at here
      rw [here, UInt8.toNat_ofNat_of_lt' (Nat.lt_trans narrow (by decide))]
    have rune := lower_rune_below_letters item.1 byte.toNat (by omega) value
    exact low_rune_in_text 0 text byte small item member rune
  · intro inside
    obtain ⟨before, after, rfl⟩ := List.append_of_mem inside
    have same : toLowerRune byte.toNat = byte.toNat := by
      have low : ¬(0x41 ≤ byte.toNat) := by omega
      simp [toLowerRune, Nat.lt_trans below (by decide : (65 : Nat) < 0x80), low]
    have split := to_lower_around_ascii before [byte] after (List.cons_ne_nil _ _)
      (by simpa using small)
    have kept : toLower [byte] = [byte] := by
      rw [to_lower_ascii_cons byte [] small, same]
      simp [encodeRune, Nat.lt_trans below (by decide : (65 : Nat) < 0x80), toLower, mapRunes]
    rw [List.append_assoc, List.singleton_append] at split
    rw [split, kept]
    simp

end Herold.Go

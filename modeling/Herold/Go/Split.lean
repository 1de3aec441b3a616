import Herold.Go.Strings

/-!
# Splitting at a byte

The parts of `strings.Split`, one after the other.
-/

namespace Herold.Go

theorem split_limit (byte : UInt8) (limit other : Nat) (text : Bytes) (enough : text.length < limit)
    (also : text.length < other) : splitN byte limit text = splitN byte other text := by
  induction limit generalizing other text with
  | zero => simp at enough
  | succ limit ih =>
    obtain ⟨other, rfl⟩ := Nat.exists_eq_succ_of_ne_zero (Nat.ne_of_gt (Nat.zero_lt_of_lt also))
    have single : ∀ more, splitN byte (more + 1) [] = [[]] := by
      intro more
      cases more with
      | zero => rfl
      | succ more => rfl
    cases text with
    | nil => rw [single, single]
    | cons first rest =>
      obtain ⟨limit, rfl⟩ : ∃ less, limit = less + 1 := ⟨limit - 1, by simp at enough; omega⟩
      obtain ⟨other, rfl⟩ : ∃ less, other = less + 1 := ⟨other - 1, by simp at also; omega⟩
      rw [splitN, splitN]
      split
      case h_1 before after cut =>
        obtain ⟨split, _⟩ := cut_first_byte_splits byte _ before after cut
        rw [split, List.length_append, List.length_cons] at enough also
        rw [ih (other + 1) after (by omega) (by omega)]
      case h_2 => rfl

theorem split_byte_cons (byte : UInt8) (part rest : Bytes) (free : byte ∉ part) :
    splitByte byte (part ++ byte :: rest) = part :: splitByte byte rest := by
  unfold splitByte
  have length : (part ++ byte :: rest).length + 1 = part.length + rest.length + 2 := by
    rw [List.length_append, List.length_cons]
    omega
  rw [length, splitN, cut_first_byte_append byte part rest free]
  simp only
  rw [split_limit byte _ (rest.length + 1) rest (by omega) (by omega)]

theorem split_byte_whole (byte : UInt8) (text : Bytes) (free : byte ∉ text) :
    splitByte byte text = [text] := by
  unfold splitByte
  cases shape : text.length with
  | zero => rfl
  | succ length => rw [splitN, (cut_first_byte_none byte text).mpr free]

theorem split_parts_joined (byte : UInt8) (limit : Nat) (text : Bytes) (enough : text.length < limit) :
    List.intercalate [byte] (splitN byte limit text) = text := by
  induction limit generalizing text with
  | zero => omega
  | succ limit ih =>
    cases limit with
    | zero =>
      obtain rfl : text = [] := List.length_eq_zero_iff.mp (by omega)
      rfl
    | succ limit =>
      rw [splitN]
      split
      case h_1 before after cut =>
        obtain ⟨rfl, -⟩ := cut_first_byte_splits byte text before after cut
        rw [List.length_append, List.length_cons] at enough
        have later := ih after (by omega)
        cases parts : splitN byte (limit + 1) after with
        | nil =>
          rw [parts] at later
          cases limit <;> simp [splitN] at parts
          split at parts <;> cases parts
        | cons part parts' =>
          rw [parts] at later
          rw [List.intercalate_cons_cons, later]
          simp
      case h_2 => exact List.intercalate_singleton

theorem split_byte_parts (byte : UInt8) (text : Bytes) :
    List.intercalate [byte] (splitByte byte text) = text :=
  split_parts_joined byte _ text (Nat.lt_succ_self _)

theorem split_byte_joined (byte : UInt8) (text rest : Bytes) :
    splitByte byte (text ++ byte :: rest) = splitByte byte text ++ splitByte byte rest := by
  induction length : text.length using Nat.strong_induction_on generalizing text with
  | _ size ih =>
    by_cases inside : byte ∈ text
    · obtain ⟨part, more, rfl, free⟩ := List.eq_append_cons_of_mem inside
      have shorter : more.length < size := by
        rw [← length, List.length_append, List.length_cons]
        omega
      rw [List.append_assoc, List.cons_append, split_byte_cons byte part _ free,
        split_byte_cons byte part more free, ih _ shorter more rfl, List.cons_append]
    · rw [split_byte_cons byte text rest inside, split_byte_whole byte text inside,
        List.singleton_append]

end Herold.Go

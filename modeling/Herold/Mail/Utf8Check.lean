import Herold.Go.Utf8

/-!
# The UTF-8 check of the parser

`isUTF8OrASCII` ranges over the runes and, at the first replacement character, asks
a validator of its own. That one looks at lead bytes and continuation bytes, but not
at the narrower second byte some lead bytes need.
-/

namespace Herold.Mail

open Herold.Go

/-- `b&0xC0 == 0x80`. -/
def maskedContinuation (byte : UInt8) : Bool := byte &&& 0xC0 == 0x80

def hasRawInvalidUTF8 : Bytes → Bool
  | [] => false
  | first :: rest =>
    if first < 0x80 then hasRawInvalidUTF8 rest
    else if first < 0xC2 then true
    else if first < 0xE0 then
      match rest with
      | second :: rest => !maskedContinuation second || hasRawInvalidUTF8 rest
      | _ => true
    else if first < 0xF0 then
      match rest with
      | second :: third :: rest =>
        !maskedContinuation second || !maskedContinuation third || hasRawInvalidUTF8 rest
      | _ => true
    else if first < 0xF5 then
      match rest with
      | second :: third :: fourth :: rest =>
        !maskedContinuation second || !maskedContinuation third || !maskedContinuation fourth ||
          hasRawInvalidUTF8 rest
      | _ => true
    else true

def isUTF8OrASCII (text : Bytes) : Bool :=
  if (runes text).any fun rune => rune.1 = 0xFFFD then !hasRawInvalidUTF8 text else true

/-- Well-formed UTF-8: the encoding of a sequence of Unicode scalar values. -/
def WellFormed (text : Bytes) : Prop :=
  ∃ scalars : List Nat, (∀ scalar ∈ scalars, IsScalar scalar) ∧ text = scalars.flatMap encodeRune

def shaped : Bytes → Bool
  | [first] => first < 0x80
  | [first, second] => 0xC2 ≤ first && first ≤ 0xDF && isContinuation second
  | [first, second, third] =>
    0xE0 ≤ first && first ≤ 0xEF && isContinuation second && isContinuation third
  | [first, second, third, fourth] =>
    0xF0 ≤ first && first ≤ 0xF4 && isContinuation second && isContinuation third &&
      isContinuation fourth
  | _ => false

def ranged : Bytes → Bool
  | first :: second :: _ => secondByteOk first second
  | _ => true

/-- The text is made of shaped groups, and one of them has a second byte out of range:
an overlong form, a surrogate or a value above U+10FFFF. -/
def OutOfRange (text : Bytes) : Prop :=
  ∃ groups : List Bytes, text = groups.flatten ∧ (∀ group ∈ groups, shaped group) ∧
    ∃ group ∈ groups, ranged group = false

theorem masked_continuation_eq (byte : UInt8) : maskedContinuation byte = isContinuation byte := by
  have all : ∀ value : Fin 256,
    maskedContinuation (UInt8.ofFin value) = isContinuation (UInt8.ofFin value) := by
    decide +kernel
  exact all byte.toFin

theorem shaped_nonempty (group : Bytes) (fits : shaped group) :
    ∃ first rest, group = first :: rest := by
  cases group with
  | nil => cases fits
  | cons first rest => exact ⟨first, rest, rfl⟩

/-- The length of a group is decided by its lead byte. -/
theorem shaped_length (first : UInt8) (rest : Bytes) (fits : shaped (first :: rest)) :
    rest.length = if first < 0x80 then 0 else if first < 0xE0 then 1 else if first < 0xF0 then 2
      else 3 := by
  match rest, fits with
  | [], fits | [_], fits | [_, _], fits | [_, _, _], fits =>
    simp only [shaped, Bool.and_eq_true, decide_eq_true_eq, UInt8.le_iff_toNat_le,
      UInt8.lt_iff_toNat_lt, UInt8.reduceToNat] at fits
    simp only [UInt8.lt_iff_toNat_lt, UInt8.reduceToNat, List.length_cons, List.length_nil]
    split_ifs <;> omega

theorem raw_valid_group (group rest : Bytes) (fits : shaped group) :
    hasRawInvalidUTF8 (group ++ rest) = hasRawInvalidUTF8 rest := by
  match group, fits with
  | [first], fits =>
    simp only [shaped, decide_eq_true_eq] at fits
    rw [List.singleton_append, hasRawInvalidUTF8.eq_def]
    exact if_pos fits
  | [first, _], fits | [first, _, _], fits | [first, _, _, _], fits =>
    simp only [shaped, Bool.and_eq_true, decide_eq_true_eq] at fits
    have bounds := fits
    simp only [UInt8.le_iff_toNat_le, UInt8.reduceToNat] at bounds
    simp only [List.cons_append, List.nil_append, hasRawInvalidUTF8, masked_continuation_eq, fits,
      UInt8.lt_iff_toNat_lt, UInt8.reduceToNat, Bool.not_true, Bool.false_or]
    split_ifs <;> first | rfl | omega

theorem raw_valid_iff (text : Bytes) : hasRawInvalidUTF8 text = false ↔
    ∃ groups : List Bytes, text = groups.flatten ∧ ∀ group ∈ groups, shaped group := by
  constructor
  · intro valid
    have grouped (group rest : Bytes) (fits : shaped group)
        (later : ∃ groups : List Bytes, rest = groups.flatten ∧ ∀ group ∈ groups, shaped group) :
        ∃ groups : List Bytes, group ++ rest = groups.flatten ∧ ∀ group ∈ groups, shaped group := by
      obtain ⟨groups, rfl, fit⟩ := later
      refine ⟨group :: groups, rfl, ?_⟩
      simpa [fits] using fit
    fun_induction hasRawInvalidUTF8 text with
    | case1 => exact ⟨[], rfl, by simp⟩
    | case2 first rest small ih =>
      exact grouped [first] rest (by simpa [shaped] using small) (ih valid)
    | case4 first wide low two second rest ih =>
      simp only [Bool.or_eq_false_iff, Bool.not_eq_false', masked_continuation_eq] at valid
      refine grouped [first, second] rest ?_ (ih valid.2)
      simp only [shaped, valid, Bool.and_true, Bool.and_eq_true, decide_eq_true_eq]
      simp only [UInt8.lt_iff_toNat_lt, UInt8.le_iff_toNat_le, UInt8.reduceToNat] at low two ⊢
      omega
    | case6 first wide low two three second third rest ih =>
      simp only [Bool.or_eq_false_iff, Bool.not_eq_false', masked_continuation_eq] at valid
      refine grouped [first, second, third] rest ?_ (ih valid.2)
      simp only [shaped, valid, Bool.and_true, Bool.and_eq_true, decide_eq_true_eq]
      simp only [UInt8.lt_iff_toNat_lt, UInt8.le_iff_toNat_le, UInt8.reduceToNat] at two three ⊢
      omega
    | case8 first wide low two three four second third fourth rest ih =>
      simp only [Bool.or_eq_false_iff, Bool.not_eq_false', masked_continuation_eq] at valid
      refine grouped [first, second, third, fourth] rest ?_ (ih valid.2)
      simp only [shaped, valid, Bool.and_true, Bool.and_eq_true, decide_eq_true_eq]
      simp only [UInt8.lt_iff_toNat_lt, UInt8.le_iff_toNat_le, UInt8.reduceToNat] at three four ⊢
      omega
    | case3 | case5 | case7 | case9 | case10 => cases valid
  · rintro ⟨groups, rfl, fit⟩
    induction groups with
    | nil => rfl
    | cons group groups ih =>
      rw [List.flatten_cons, raw_valid_group group _ (fit group List.mem_cons_self)]
      exact ih fun other member => fit other (List.mem_cons_of_mem _ member)

/-- There is at most one way to cut a text into groups. -/
theorem groups_unique (left right : List Bytes) (fitLeft : ∀ group ∈ left, shaped group)
    (fitRight : ∀ group ∈ right, shaped group) (same : left.flatten = right.flatten) :
      left = right := by
  induction left generalizing right with
  | nil =>
    cases right with
    | nil => rfl
    | cons group right =>
      obtain ⟨first, rest, rfl⟩ := shaped_nonempty group (fitRight group List.mem_cons_self)
      cases same
  | cons group left ih =>
    have fits := fitLeft group List.mem_cons_self
    obtain ⟨first, rest, rfl⟩ := shaped_nonempty group fits
    cases right with
    | nil => cases same
    | cons other right =>
      have otherFits := fitRight other List.mem_cons_self
      obtain ⟨lead, tail, rfl⟩ := shaped_nonempty other otherFits
      simp only [List.flatten_cons, List.cons_append, List.cons.injEq] at same
      obtain ⟨rfl, same⟩ := same
      have long : rest.length = tail.length := by
        rw [shaped_length first rest fits, shaped_length first tail otherFits]
      obtain ⟨rfl, later⟩ := List.append_inj same long
      rw [ih right (fun _ member => fitLeft _ (List.mem_cons_of_mem _ member))
        (fun _ member => fitRight _ (List.mem_cons_of_mem _ member)) later]

/-- A text either starts with a byte that is read as an error, or with a group in
range, which is what is read. -/
theorem decode_rune_group (first : UInt8) (rest : Bytes) :
    decodeRune (first :: rest) = (runeError, 1) ∨
      shaped ((first :: rest).take (decodeRune (first :: rest)).2) ∧
        ranged ((first :: rest).take (decodeRune (first :: rest)).2) := by
  have second_continues (second : UInt8) (ok : secondByteOk first second = true) :
      isContinuation second = true := by
    obtain ⟨bounds, _⟩ := second_byte_bounds first second ok
    simpa [isContinuation, UInt8.le_iff_toNat_le] using bounds
  simp only [decodeRune]
  split
  case isTrue small => exact Or.inr ⟨by simpa [shaped] using small, rfl⟩
  case isFalse =>
    split
    case isTrue two =>
      split
      · split
        case isTrue ok =>
          refine Or.inr ⟨?_, by simpa [ranged] using ok⟩
          simpa [shaped, second_continues _ ok] using two
        case isFalse => exact Or.inl rfl
      · exact Or.inl rfl
    case isFalse =>
      split
      case isTrue three =>
        split
        · split
          case isTrue ok =>
            rw [Bool.and_eq_true] at ok
            refine Or.inr ⟨?_, by simpa [ranged] using ok.1⟩
            simpa [shaped, second_continues _ ok.1, ok.2] using three
          case isFalse => exact Or.inl rfl
        · exact Or.inl rfl
      case isFalse =>
        split
        case isTrue four =>
          split
          · split
            case isTrue ok =>
              rw [Bool.and_eq_true, Bool.and_eq_true] at ok
              refine Or.inr ⟨?_, by simpa [ranged] using ok.1.1⟩
              simpa [shaped, second_continues _ ok.1.1, ok.1.2, ok.2] using four
            case isFalse => exact Or.inl rfl
          · exact Or.inl rfl
        case isFalse => exact Or.inl rfl

theorem encode_rune_group (scalar : Nat) (valid : IsScalar scalar) :
    shaped (encodeRune scalar) ∧ ranged (encodeRune scalar) := by
  have decoded := decode_encode scalar valid []
  rw [List.append_nil] at decoded
  cases encoded : encodeRune scalar with
  | nil => exact absurd encoded (encode_rune_nonempty scalar)
  | cons first rest =>
    rcases decode_rune_group first rest with error | group
    · rw [encoded, error, Prod.mk.injEq] at decoded
      rw [← decoded.1] at encoded
      cases encoded
      exact absurd decoded.2 (by decide)
    · rw [encoded] at decoded
      rwa [decoded, List.take_length] at group

theorem continuation_bounds (byte : UInt8) (tail : isContinuation byte = true) :
    0x80 ≤ byte.toNat ∧ byte.toNat ≤ 0xBF := by
  simpa [isContinuation, UInt8.le_iff_toNat_le] using tail

theorem byte_of_value (byte : UInt8) (value : Nat) (same : value = byte.toNat) :
    UInt8.ofNat value = byte := by
  rw [same, UInt8.ofNat_toNat]

theorem encode_two (value : Nat) (low : 0x80 ≤ value) (high : value < 0x800) :
    encodeRune value = [UInt8.ofNat (0xC0 + value / 64), UInt8.ofNat (0x80 + value % 64)] := by
  rw [encodeRune, if_neg (Nat.not_lt.mpr low), if_pos high]

theorem encode_three (value : Nat) (low : 0x800 ≤ value) (high : value < 0x10000)
    (scalar : IsScalar value) :
    encodeRune value = [UInt8.ofNat (0xE0 + value / 4096), UInt8.ofNat (0x80 + value / 64 % 64),
      UInt8.ofNat (0x80 + value % 64)] := by
  unfold IsScalar at scalar
  have plain : ¬((0xD800 ≤ value && value ≤ 0xDFFF) || 0x10FFFF < value) = true := by
    simp only [Bool.or_eq_true, Bool.and_eq_true, decide_eq_true_eq]
    omega
  rw [encodeRune, if_neg (Nat.not_lt.mpr (Nat.le_trans (by decide) low)), if_neg (Nat.not_lt.mpr low),
    if_neg plain, if_pos high]

theorem encode_four (value : Nat) (low : 0x10000 ≤ value) (high : value ≤ 0x10FFFF) :
    encodeRune value = [UInt8.ofNat (0xF0 + value / 262144), UInt8.ofNat (0x80 + value / 4096 % 64),
      UInt8.ofNat (0x80 + value / 64 % 64), UInt8.ofNat (0x80 + value % 64)] := by
  have plain : ¬((0xD800 ≤ value && value ≤ 0xDFFF) || 0x10FFFF < value) = true := by
    simp only [Bool.or_eq_true, Bool.and_eq_true, decide_eq_true_eq]
    omega
  rw [encodeRune, if_neg (Nat.not_lt.mpr (Nat.le_trans (by decide) low)),
    if_neg (Nat.not_lt.mpr (Nat.le_trans (by decide) low)), if_neg plain, if_neg (Nat.not_lt.mpr low)]

/-- A group in range is the encoding of a scalar value. -/
theorem group_encodes (group : Bytes) (fits : shaped group) (inside : ranged group) :
    ∃ scalar, IsScalar scalar ∧ group = encodeRune scalar := by
  match group, fits, inside with
  | [first], fits, _ =>
    simp only [shaped, decide_eq_true_eq, UInt8.lt_iff_toNat_lt, UInt8.reduceToNat] at fits
    refine ⟨first.toNat, Or.inl (Nat.lt_trans fits (by decide)), ?_⟩
    rw [encodeRune, if_pos fits]
    dsimp only
    rw [UInt8.ofNat_toNat]
  | [first, second], fits, inside =>
    simp only [shaped, Bool.and_eq_true, decide_eq_true_eq, UInt8.le_iff_toNat_le,
      UInt8.reduceToNat] at fits
    have tail := continuation_bounds second fits.2
    refine ⟨(first.toNat - 0xC0) * 64 + (second.toNat - 0x80), Or.inl (by omega), ?_⟩
    rw [encode_two _ (by omega) (by omega), byte_of_value first _ (by omega),
      byte_of_value second _ (by omega)]
  | [first, second, third], fits, inside =>
    simp only [shaped, Bool.and_eq_true, decide_eq_true_eq, UInt8.le_iff_toNat_le,
      UInt8.reduceToNat] at fits
    have last := continuation_bounds third fits.2
    have bounds := second_byte_bounds first second inside
    have overlong : first.toNat = 0xE0 → 0xA0 ≤ second.toNat :=
      fun same => (second_byte_high first second inside).2.1 (UInt8.toNat_inj.mp same)
    have surrogate : first.toNat = 0xED → second.toNat ≤ 0x9F :=
      fun same => bounds.2.1 (UInt8.toNat_inj.mp same)
    have scalar : IsScalar ((first.toNat - 0xE0) * 4096 + (second.toNat - 0x80) * 64 +
        (third.toNat - 0x80)) := by
      unfold IsScalar
      omega
    refine ⟨_, scalar, ?_⟩
    rw [encode_three _ (by omega) (by omega) scalar, byte_of_value first _ (by omega),
      byte_of_value second _ (by omega), byte_of_value third _ (by omega)]
  | [first, second, third, fourth], fits, inside =>
    simp only [shaped, Bool.and_eq_true, decide_eq_true_eq, UInt8.le_iff_toNat_le,
      UInt8.reduceToNat] at fits
    have last := continuation_bounds fourth fits.2
    have middle := continuation_bounds third fits.1.2
    have bounds := second_byte_bounds first second inside
    have plane : first.toNat = 0xF0 → 0x90 ≤ second.toNat :=
      fun same => (second_byte_high first second inside).2.2 (UInt8.toNat_inj.mp same)
    have top : first.toNat = 0xF4 → second.toNat ≤ 0x8F :=
      fun same => bounds.2.2 (UInt8.toNat_inj.mp same)
    refine ⟨(first.toNat - 0xF0) * 262144 + (second.toNat - 0x80) * 4096 + (third.toNat - 0x80) * 64 +
      (fourth.toNat - 0x80), Or.inr (by omega), ?_⟩
    rw [encode_four _ (by omega) (by omega), byte_of_value first _ (by omega),
      byte_of_value second _ (by omega), byte_of_value third _ (by omega),
      byte_of_value fourth _ (by omega)]

theorem well_formed_iff (text : Bytes) : WellFormed text ↔ ∃ groups : List Bytes,
    text = groups.flatten ∧ ∀ group ∈ groups, shaped group ∧ ranged group := by
  constructor
  · rintro ⟨scalars, valid, rfl⟩
    refine ⟨scalars.map encodeRune, (List.flatMap_def ..), ?_⟩
    intro group member
    obtain ⟨scalar, inside, rfl⟩ := List.mem_map.mp member
    exact encode_rune_group scalar (valid scalar inside)
  · rintro ⟨groups, rfl, fit⟩
    induction groups with
    | nil => exact ⟨[], by simp, rfl⟩
    | cons group groups ih =>
      obtain ⟨scalars, valid, same⟩ := ih fun other member => fit other (List.mem_cons_of_mem _ member)
      have own := fit group List.mem_cons_self
      obtain ⟨scalar, first, rfl⟩ := group_encodes group own.1 own.2
      refine ⟨scalar :: scalars, ?_, by simp [same]⟩
      simpa [first] using valid

theorem well_formed_of_runes (text : Bytes) (clean : ∀ rune ∈ runes text, rune.1 ≠ runeError) :
    WellFormed text := by
  induction size : text.length using Nat.strongRecOn generalizing text with
  | ind count ih =>
    cases text with
    | nil => exact ⟨[], by simp, rfl⟩
    | cons first rest =>
      rcases decode_rune_group first rest with error | ⟨fits, inside⟩
      · have head : ((decodeRune (first :: rest)).1,
          (first :: rest).take (decodeRune (first :: rest)).2) ∈
            runes (first :: rest) := by
          rw [runes, runesFrom]
          exact List.mem_cons_self
        exact absurd (congrArg Prod.fst error) (clean _ head)
      · obtain ⟨scalar, valid, encoded⟩ := group_encodes _ fits inside
        have cut := List.take_append_drop (decodeRune (first :: rest)).2 (first :: rest)
        rw [encoded] at cut
        rw [← cut, runes_encode scalar valid] at clean
        have shorter : ((first :: rest).drop (decodeRune (first :: rest)).2).length < count := by
          have positive := decode_rune_width_pos first rest
          rw [List.length_drop, ← size]
          simp only [List.length_cons]
          omega
        obtain ⟨scalars, scalarsValid, same⟩ := ih _ shorter _
          (fun rune member => clean rune (List.mem_cons_of_mem _ member)) rfl
        rw [← cut, same]
        exact ⟨scalar :: scalars, by simpa [valid] using scalarsValid, rfl⟩

theorem raw_valid_of_well_formed (text : Bytes) (wellFormed : WellFormed text) :
    hasRawInvalidUTF8 text = false := by
  obtain ⟨groups, same, fit⟩ := (well_formed_iff text).mp wellFormed
  exact (raw_valid_iff text).mpr ⟨groups, same, fun group member => (fit group member).1⟩

/-- The check is the validity of UTF-8 on every text but those made of complete
groups one of which is out of range. -/
theorem utf8_check_iff (text : Bytes) :
    (isUTF8OrASCII text = true ↔ WellFormed text) ↔ ¬OutOfRange text := by
  constructor
  · rintro agrees ⟨groups, same, fit, group, member, outside⟩
    have accepted : isUTF8OrASCII text = true := by
      rw [isUTF8OrASCII, (raw_valid_iff text).mpr ⟨groups, same, fit⟩]
      exact ite_self _
    obtain ⟨others, sameOthers, otherFit⟩ := (well_formed_iff text).mp (agrees.mp accepted)
    have equal := groups_unique groups others fit (fun other inside => (otherFit other inside).1)
      (same ▸ sameOthers)
    rw [equal] at member
    rw [(otherFit group member).2] at outside
    cases outside
  · intro inRange
    constructor
    · intro accepted
      by_cases suspect : (runes text).any fun rune => rune.1 = 0xFFFD
      · rw [isUTF8OrASCII, if_pos suspect, Bool.not_eq_true'] at accepted
        obtain ⟨groups, same, fit⟩ := (raw_valid_iff text).mp accepted
        refine (well_formed_iff text).mpr ⟨groups, same, fun group member => ⟨fit group member, ?_⟩⟩
        by_contra outside
        exact inRange ⟨groups, same, fit, group, member, by simpa using outside⟩
      · refine well_formed_of_runes text ?_
        intro rune member error
        exact suspect (List.any_eq_true.mpr ⟨rune, member, by simpa [runeError] using error⟩)
    · intro wellFormed
      rw [isUTF8OrASCII, raw_valid_of_well_formed text wellFormed]
      exact ite_self _

/-- The three bytes of a surrogate are accepted and encode no scalar value. -/
theorem surrogate_accepted :
    isUTF8OrASCII [0xED, 0xA0, 0x80] = true ∧ ¬WellFormed [0xED, 0xA0, 0x80] := by
  have accepted : isUTF8OrASCII [0xED, 0xA0, 0x80] = true := by decide
  refine ⟨accepted, fun wellFormed => ?_⟩
  have broken : OutOfRange [0xED, 0xA0, 0x80] :=
    ⟨[[0xED, 0xA0, 0x80]], rfl, by simp [shaped, isContinuation], _, List.mem_singleton_self _, rfl⟩
  exact (utf8_check_iff _).mp ⟨fun _ => wellFormed, fun _ => accepted⟩ broken

end Herold.Mail

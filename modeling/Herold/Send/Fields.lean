import Herold.Send.Header

/-!
# The entries of the header map

What the last assignment to each name leaves in the map, which names a request
can reach, and that every value the builder makes itself stays on one line.
-/

namespace Herold.Send

open Herold.Go

def lastValue (name : Bytes) : List (Bytes × Bytes) → Option Bytes
  | [] => none
  | field :: rest =>
    (lastValue name rest).or (if field.1 = name then some field.2 else none)

section

variable (request : SendRequest) (text : Bytes) (name : Bytes) (headers : List (Bytes × Bytes))

theorem last_value_append (left right : List (Bytes × Bytes)) :
    lastValue name (left ++ right) = (lastValue name right).or (lastValue name left) := by
  induction left with
  | nil => simp [lastValue]
  | cons field left ih =>
    rw [List.cons_append, lastValue, lastValue, ih, Option.or_assoc]

theorem last_value_none (fields : List (Bytes × Bytes))
    (absent : ∀ field ∈ fields, field.1 ≠ name) : lastValue name fields = none := by
  induction fields with
  | nil => rfl
  | cons field fields ih =>
    have here := absent field (List.mem_cons_self ..)
    rw [lastValue, ih fun other member => absent other (List.mem_cons_of_mem _ member), if_neg here]
    rfl

theorem last_value_mem (name value : Bytes) (fields : List (Bytes × Bytes))
    (last : lastValue name fields = some value) : (name, value) ∈ fields := by
  induction fields with
  | nil => cases last
  | cons field fields ih =>
    rw [lastValue, Option.or_eq_some_iff] at last
    rcases last with later | ⟨_, here⟩
    · exact List.mem_cons_of_mem _ (ih later)
    · split at here
      case isTrue same =>
        cases here
        rw [← same]
        exact List.mem_cons_self ..
      case isFalse => cases here

theorem mem_set_header (field entry : Bytes × Bytes) :
    entry ∈ setHeader headers field ↔ entry = field ∨ (entry.1 ≠ field.1 ∧ entry ∈ headers) := by
  simp only [setHeader, List.mem_append, List.mem_filter, decide_eq_true_eq, List.mem_singleton]
  constructor
  · rintro (⟨member, other⟩ | rfl)
    · exact .inr ⟨other, member⟩
    · exact .inl rfl
  · rintro (rfl | ⟨other, member⟩)
    · exact .inr rfl
    · exact .inl ⟨member, other⟩

theorem mem_assigned (fields headers : List (Bytes × Bytes)) (name value : Bytes) :
    (name, value) ∈ fields.foldl setHeader headers ↔
      lastValue name fields = some value ∨
        (lastValue name fields = none ∧ (name, value) ∈ headers) := by
  induction fields generalizing headers with
  | nil => simp [lastValue]
  | cons field fields ih =>
    rw [List.foldl_cons, ih, mem_set_header, lastValue]
    cases later : lastValue name fields with
    | some found => simp
    | none =>
      by_cases same : field.1 = name
      · subst same
        simp only [reduceCtorEq, false_or, true_and, Option.none_or, if_true, Option.some.injEq,
          ne_eq, not_true_eq_false, false_and, or_false]
        constructor
        · intro equal
          rw [← equal]
        · rintro rfl
          rfl
      · have other : (name, value) ≠ field := fun equal => same (by rw [← equal])
        have apart : name ≠ field.1 := fun equal => same equal.symm
        simp [same, other, apart]

theorem mem_header_map (now : Stamp) (messageID boundary name value : Bytes) :
    (name, value) ∈ headerMap request now messageID boundary ↔
      lastValue name (generated request now messageID ++ supplied request ++
        contentHeaders request.body boundary) = some value := by
  rw [headerMap, mem_assigned]
  simp

theorem set_header_distinct (field : Bytes × Bytes)
    (distinct : headers.Pairwise fun left right => left.1 ≠ right.1) :
    (setHeader headers field).Pairwise fun left right => left.1 ≠ right.1 := by
  rw [setHeader, List.pairwise_append]
  refine ⟨distinct.filter _, List.pairwise_singleton .., ?_⟩
  intro left member right single
  rw [List.mem_singleton.mp single]
  exact of_decide_eq_true (List.mem_filter.mp member).2

theorem assigned_distinct (fields headers : List (Bytes × Bytes))
    (distinct : headers.Pairwise fun left right => left.1 ≠ right.1) :
    (fields.foldl setHeader headers).Pairwise fun left right => left.1 ≠ right.1 := by
  induction fields generalizing headers with
  | nil => exact distinct
  | cons field fields ih => exact ih _ (set_header_distinct headers field distinct)

theorem insert_header_perm (field : Bytes × Bytes) (headers : List (Bytes × Bytes)) :
    (insertHeader field headers).Perm (field :: headers) := by
  induction headers with
  | nil => exact List.Perm.refl _
  | cons other headers ih =>
    rw [insertHeader]
    split
    · exact List.Perm.refl _
    · exact (ih.cons other).trans (List.Perm.swap field other headers)

theorem sort_headers_perm : (sortHeaders headers).Perm headers := by
  induction headers with
  | nil => exact List.Perm.refl _
  | cons field headers ih => exact (insert_header_perm field _).trans (ih.cons field)

def asciiLower (text : Bytes) : Bytes :=
  text.map fun byte => if 65 ≤ byte && byte ≤ 90 then byte + 32 else byte

def isCapital (byte : UInt8) : Bool := 65 ≤ byte && byte ≤ 90

theorem to_lower_no_capital : ∀ byte ∈ toLower text, isCapital byte = false := by
  intro byte inside
  obtain ⟨item, member, here⟩ := List.mem_flatMap.mp inside
  by_contra capital
  simp only [isCapital, Bool.and_eq_false_iff, decide_eq_false_iff_not, not_or, not_not] at capital
  have low : 65 ≤ byte.toNat := capital.1
  have high : byte.toNat ≤ 90 := capital.2
  have narrow : toLowerRune item.1 < (0x80 : Nat) := by
    by_contra wide
    have far : (0x80 : UInt8) ≤ byte := encode_rune_wide _ (Nat.not_lt.mp wide) byte here
    have far : 0x80 ≤ byte.toNat := far
    omega
  have value : toLowerRune item.1 = byte.toNat := by
    simp only [encodeRune, if_pos narrow, List.mem_singleton] at here
    rw [here, UInt8.toNat_ofNat_of_lt' (Nat.lt_trans narrow (by decide))]
  have rune := lower_rune_below_letters item.1 byte.toNat (by omega) value
  rw [rune] at value
  unfold toLowerRune at value
  rw [if_pos (show byte.toNat < 0x80 by omega), if_pos (by simp [low, high])] at value
  have shifted : byte.toNat + 0x20 = byte.toNat := value
  omega

theorem lower_raised (upper : Bool) (byte : UInt8) (plain : isCapital byte = false) :
    (fun char : UInt8 => if 65 ≤ char && char ≤ 90 then char + 32 else char)
      (if upper && 97 ≤ byte && byte ≤ 122 then byte - 32 else byte) = byte := by
  have all : ∀ upper : Bool, ∀ value : Fin 256, isCapital (UInt8.ofNat value) = false →
      (fun char : UInt8 => if 65 ≤ char && char ≤ 90 then char + 32 else char)
        (if upper && 97 ≤ UInt8.ofNat value && UInt8.ofNat value ≤ 122 then UInt8.ofNat value - 32
          else UInt8.ofNat value) = UInt8.ofNat value := by decide +kernel
  have here := all upper ⟨byte.toNat, byte.toNat_lt⟩
  rw [UInt8.ofNat_toNat] at here
  exact here plain

theorem lower_capitalize (upper : Bool) (text : Bytes)
    (plain : ∀ byte ∈ text, isCapital byte = false) : asciiLower (capitalize upper text) = text := by
  induction text generalizing upper with
  | nil => rfl
  | cons byte text ih =>
    have here := plain byte (List.mem_cons_self ..)
    have later := ih ((if upper && 97 ≤ byte && byte ≤ 122 then byte - 32 else byte) == 45)
      fun other member => plain other (List.mem_cons_of_mem _ member)
    rw [capitalize, asciiLower, List.map_cons]
    exact congrArg₂ List.cons (lower_raised upper byte here) later

theorem canon_of_lower :
    canonHeaderName name = capitalize true (asciiLower (canonHeaderName name)) := by
  rw [canonHeaderName, lower_capitalize true (toLower name) (to_lower_no_capital name)]

def ownNames : List Bytes :=
  ["from", "date", "message-id", "mime-version", "content-type",
    "content-transfer-encoding"].map ascii

theorem own_names_reserved : ∀ name ∈ ownNames, isReservedHeader (capitalize true name) = true := by
  decide

/-- No entry of the request has one of the builder's names, in whatever case. -/
theorem supplied_apart : ∀ field ∈ supplied request, asciiLower field.1 ∉ ownNames := by
  intro field member
  simp only [supplied, List.mem_append] at member
  rcases member with (((recipients | copies) | set) | tag) | custom
  · split at recipients
    · cases recipients
    · rw [List.mem_singleton.mp recipients]
      show asciiLower (ascii "To") ∉ ownNames
      decide
  · split at copies
    · cases copies
    · rw [List.mem_singleton.mp copies]
      show asciiLower (ascii "Cc") ∉ ownNames
      decide
  · split at set
    · cases set
    · rw [List.mem_singleton.mp set]
      show asciiLower (ascii "X-Herold-Configuration-Set") ∉ ownNames
      decide
  · obtain ⟨tag, _, rfl⟩ := List.mem_map.mp tag
    -- a tag's field starts with an x, and none of the builder's names does
    have starts : ∀ name ∈ ownNames, name.head? ≠ some 120 := by decide
    intro own
    exact starts _ own (by simp [asciiLower, ascii])
  · obtain ⟨listed, free⟩ := List.mem_filter.mp custom
    obtain ⟨given, _, rfl⟩ := List.mem_map.mp listed
    intro own
    have reserved := own_names_reserved _ own
    rw [← canon_of_lower] at reserved
    simp [reserved] at free

theorem supplied_keeps (own : asciiLower name ∈ ownNames) :
    lastValue name (supplied request) = none := by
  apply last_value_none
  intro field member same
  exact supplied_apart request field member (same ▸ own)

theorem digit_breakless (value : Nat) : isBreakless [digit value] = true := by
  have all : ∀ value : Fin 10, isBreakless [UInt8.ofNat (48 + value.val)] = true := by decide
  exact all ⟨value % 10, Nat.mod_lt _ (by decide)⟩

theorem two_digits_breakless (value : Nat) : isBreakless (twoDigits value) = true := by
  have split : twoDigits value = [digit (value / 10)] ++ [digit value] := rfl
  rw [split, breakless_append, digit_breakless, digit_breakless]
  rfl

theorem rfc1123z_breakless (stamp : Stamp) : isBreakless stamp.rfc1123Z = true := by
  have weekdays : ∀ weekday, isBreakless (weekdayName weekday) = true := by decide
  have months : ∀ month, isBreakless (monthName month) = true := by decide
  simp only [Stamp.rfc1123Z, breakless_append, weekdays, months, two_digits_breakless, Bool.true_and,
    Bool.and_true]
  decide

theorem hex_encode_breakless (bytes : Bytes) : isBreakless (hexEncode bytes) = true := by
  have digits : ∀ value, isBreakless [hexDigit value] = true := by
    intro value
    unfold hexDigit
    rw [List.getD_eq_getElem?_getD]
    cases found : hexDigits[value]? with
    | none => rfl
    | some char =>
      have all : ∀ char ∈ hexDigits, isBreakless [char] = true := by decide +kernel
      exact all char (List.mem_of_getElem? found)
  induction bytes with
  | nil => rfl
  | cons byte bytes ih =>
    have split : hexEncode (byte :: bytes) =
        [hexDigit (byte.toNat / 16)] ++ [hexDigit (byte.toNat % 16)] ++ hexEncode bytes := rfl
    rw [split, breakless_append, breakless_append, digits, digits, ih]
    rfl

theorem table_char_breakless (sextet : Nat) : isBreakless [tableChar sextet] = true := by
  unfold tableChar
  rw [List.getD_eq_getElem?_getD]
  cases found : stdAlphabet[sextet]? with
  | none => rfl
  | some char =>
    have all : ∀ char ∈ stdAlphabet, isBreakless [char] = true := by decide +kernel
    exact all char (List.mem_of_getElem? found)

theorem base64_breakless : isBreakless (base64URLOk text) = true := by
  fun_induction base64URLOk text with
  | case1 first second third rest ih =>
    rw [← List.singleton_append, breakless_append, table_char_breakless,
      ← List.singleton_append, breakless_append, table_char_breakless,
      ← List.singleton_append, breakless_append, table_char_breakless,
      ← List.singleton_append, breakless_append, table_char_breakless, ih]
    rfl
  | case2 first second =>
    rw [← List.singleton_append, breakless_append, table_char_breakless,
      ← List.singleton_append, breakless_append, table_char_breakless,
      ← List.singleton_append, breakless_append, table_char_breakless]
    rfl
  | case3 first =>
    rw [← List.singleton_append, breakless_append, table_char_breakless,
      ← List.singleton_append, breakless_append, table_char_breakless]
    rfl
  | case4 => rfl

/-- A control character is a rune of its own, so a text that holds one is encoded. -/
theorem control_needs_encoding (byte : UInt8) (inside : byte ∈ text)
    (control : byte < 0x20) : needsEncoding text = true := by
  obtain ⟨before, after, rfl⟩ := List.append_of_mem inside
  have small : byte < 0x80 := UInt8.lt_trans control (by decide)
  rw [needsEncoding, runes_before_ascii before byte after small, List.any_append,
    runes_ascii_cons byte after small]
  have low : byte.toNat < 0x20 := control
  simp [low]

theorem encode_header_value_breakless : isBreakless (encodeHeaderValue text) = true := by
  unfold encodeHeaderValue
  split
  · rw [breakless_append, breakless_append, base64_breakless]
    decide
  case isFalse plain =>
    rw [breakless_iff]
    constructor
    · intro inside
      exact plain (control_needs_encoding text 13 inside (by decide))
    · intro inside
      exact plain (control_needs_encoding text 10 inside (by decide))

theorem to_lower_breakless : isBreakless (toLower text) = isBreakless text := by
  have same : isBreakless (toLower text) = true ↔ isBreakless text = true := by
    rw [breakless_iff, breakless_iff, mem_to_lower rfl, mem_to_lower rfl]
  exact Bool.eq_iff_iff.mpr same

theorem sextet_of_table (sextet : Nat) (small : sextet < 64) :
    stdSextet (tableChar sextet) = some sextet ∧ tableChar sextet ≠ 61 := by
  have all : ∀ sextet : Fin 64,
      stdSextet (tableChar sextet) = some sextet.val ∧ tableChar sextet ≠ 61 := by decide +kernel
  exact all ⟨sextet, small⟩

theorem first_of_sextets (first second : UInt8) :
    UInt8.ofNat (first.toNat / 4 * 4 + (first.toNat % 4 * 16 + second.toNat / 16) / 16) = first := by
  have bound := second.toNat_lt
  have value : first.toNat / 4 * 4 + (first.toNat % 4 * 16 + second.toNat / 16) / 16 = first.toNat := by
    omega
  rw [value, UInt8.ofNat_toNat]

theorem second_of_sextets (first second third : UInt8) :
    UInt8.ofNat ((first.toNat % 4 * 16 + second.toNat / 16) % 16 * 16 +
      (second.toNat % 16 * 4 + third.toNat / 64) / 4) = second := by
  have bound := second.toNat_lt
  have thirdBound := third.toNat_lt
  have value : (first.toNat % 4 * 16 + second.toNat / 16) % 16 * 16 +
      (second.toNat % 16 * 4 + third.toNat / 64) / 4 = second.toNat := by
    omega
  rw [value, UInt8.ofNat_toNat]

theorem third_of_sextets (second third : UInt8) :
    UInt8.ofNat ((second.toNat % 16 * 4 + third.toNat / 64) % 4 * 64 + third.toNat % 64) = third := by
  have bound := third.toNat_lt
  have value : (second.toNat % 16 * 4 + third.toNat / 64) % 4 * 64 + third.toNat % 64 =
    third.toNat := by
    omega
  rw [value, UInt8.ofNat_toNat]

theorem std_quanta_base64 : stdQuanta (base64URLOk text) = some text := by
  fun_induction base64URLOk text with
  | case1 first second third rest ih =>
    have firstBound := first.toNat_lt
    have secondBound := second.toNat_lt
    have thirdBound := third.toNat_lt
    obtain ⟨one, _⟩ := sextet_of_table (first.toNat / 4) (by omega)
    obtain ⟨two, _⟩ := sextet_of_table (first.toNat % 4 * 16 + second.toNat / 16) (by omega)
    obtain ⟨three, _⟩ := sextet_of_table (second.toNat % 16 * 4 + third.toNat / 64) (by omega)
    obtain ⟨four, unpadded⟩ := sextet_of_table (third.toNat % 64) (by omega)
    rw [stdQuanta]
    · simp only [one, two, three, four, ih, Option.map_some, first_of_sextets, second_of_sextets,
        third_of_sextets]
    · intro _ padded
      exact absurd padded unpadded
    · intro padded
      exact absurd padded unpadded
  | case2 first second =>
    have firstBound := first.toNat_lt
    have secondBound := second.toNat_lt
    obtain ⟨one, _⟩ := sextet_of_table (first.toNat / 4) (by omega)
    obtain ⟨two, _⟩ := sextet_of_table (first.toNat % 4 * 16 + second.toNat / 16) (by omega)
    obtain ⟨three, unpadded⟩ := sextet_of_table (second.toNat % 16 * 4) (by omega)
    have last := second_of_sextets first second 0
    simp only [UInt8.toNat_zero, Nat.zero_div, Nat.add_zero] at last
    rw [stdQuanta]
    · simp only [one, two, three, first_of_sextets, last]
    · intro padded
      exact absurd padded unpadded
  | case3 first =>
    have firstBound := first.toNat_lt
    obtain ⟨one, _⟩ := sextet_of_table (first.toNat / 4) (by omega)
    obtain ⟨two, _⟩ := sextet_of_table (first.toNat % 4 * 16) (by omega)
    have last := first_of_sextets first 0
    simp only [UInt8.toNat_zero, Nat.zero_div, Nat.add_zero] at last
    simp only [stdQuanta, one, two, last]
  | case4 => rfl

def encodedText (value : Bytes) : Option Bytes :=
  if hasPrefix value (ascii "=?utf-8?B?") && (ascii "?=").isSuffixOf value then
    stdDecode ((value.drop 10).take (value.length - 12))
  else none

def Denotes (value text : Bytes) : Prop := value = text ∨ encodedText value = some text

theorem std_decode_base64 : stdDecode (base64URLOk text) = some text := by
  have unbroken : (base64URLOk text).filter (fun byte => !isLineBreak byte) = base64URLOk text := by
    rw [List.filter_eq_self]
    intro byte member
    have clean := base64_breakless text
    rw [isBreakless, List.all_eq_true] at clean
    have here := clean byte member
    simp only [Bool.and_eq_true, bne_iff_ne, ne_eq] at here
    simp [isLineBreak, here.1, here.2]
  rw [stdDecode, unbroken, std_quanta_base64]

theorem encode_header_value_denotes : Denotes (encodeHeaderValue text) text := by
  unfold encodeHeaderValue
  split
  · right
    have opens : hasPrefix (ascii "=?utf-8?B?" ++ base64URLOk text ++ ascii "?=")
        (ascii "=?utf-8?B?") = true := by
      rw [hasPrefix, List.append_assoc, List.isPrefixOf_iff_prefix]
      exact List.prefix_append ..
    have closes : (ascii "?=").isSuffixOf
        (ascii "=?utf-8?B?" ++ base64URLOk text ++ ascii "?=") = true := by
      rw [List.isSuffixOf_iff_suffix]
      exact List.suffix_append ..
    have inner : ((ascii "=?utf-8?B?" ++ base64URLOk text ++ ascii "?=").drop 10).take
        ((ascii "=?utf-8?B?" ++ base64URLOk text ++ ascii "?=").length - 12) = base64URLOk text := by
      have start : (ascii "=?utf-8?B?").length = 10 := by decide
      rw [List.append_assoc, ← start, List.drop_left, List.length_append, List.length_append, start]
      rw [show 10 + ((base64URLOk text).length + (ascii "?=").length) - 12 =
        (base64URLOk text).length by
        rw [show (ascii "?=").length = 2 by decide]
        omega]
      exact List.take_left
    rw [encodedText, opens, closes, Bool.and_self, if_pos rfl, inner, std_decode_base64]
  · exact .inl rfl

end

end Herold.Send

import Herold.Go.Unicode

/-!
# Base64

`base64.RawURLEncoding` with its strict decoder, and the decoder of
`base64.StdEncoding`. Both skip line breaks wherever they stand; only the strict
one refuses a last quantum with unused bits set.
-/

namespace Herold.Go

def urlAlphabet : Bytes :=
  ascii "ABCDEFGHIJKLMNOPQRSTUVWXYZabcdefghijklmnopqrstuvwxyz0123456789-_"

def sextetChar (sextet : Nat) : UInt8 := urlAlphabet.getD sextet 65

def charSextet (char : UInt8) : Option Nat := urlAlphabet.findIdx? fun letter => letter = char

/-- `RawURLEncoding.EncodeToString`. -/
def rawURLEncode : Bytes → Bytes
  | first :: second :: third :: rest =>
    sextetChar (first.toNat / 4) ::
      sextetChar (first.toNat % 4 * 16 + second.toNat / 16) ::
        sextetChar (second.toNat % 16 * 4 + third.toNat / 64) ::
          sextetChar (third.toNat % 64) :: rawURLEncode rest
  | [first, second] =>
    [sextetChar (first.toNat / 4), sextetChar (first.toNat % 4 * 16 + second.toNat / 16),
      sextetChar (second.toNat % 16 * 4)]
  | [first] => [sextetChar (first.toNat / 4), sextetChar (first.toNat % 4 * 16)]
  | [] => []

def decodeQuanta : Bytes → Option Bytes
  | first :: second :: third :: fourth :: rest =>
    match charSextet first, charSextet second, charSextet third, charSextet fourth with
    | some a, some b, some c, some d =>
      match decodeQuanta rest with
      | some bytes =>
        some (UInt8.ofNat (a * 4 + b / 16) :: UInt8.ofNat (b % 16 * 16 + c / 4) ::
          UInt8.ofNat (c % 4 * 64 + d) :: bytes)
      | none => none
    | _, _, _, _ => none
  | [first, second, third] =>
    match charSextet first, charSextet second, charSextet third with
    | some a, some b, some c =>
      if c % 4 = 0 then
        some [UInt8.ofNat (a * 4 + b / 16), UInt8.ofNat (b % 16 * 16 + c / 4)]
      else none
    | _, _, _ => none
  | [first, second] =>
    match charSextet first, charSextet second with
    | some a, some b => if b % 16 = 0 then some [UInt8.ofNat (a * 4 + b / 16)] else none
    | _, _ => none
  | [_] => none
  | [] => some []

def isLineBreak (byte : UInt8) : Bool := byte = 13 || byte = 10

/-- `RawURLEncoding.Strict().DecodeString`. -/
def rawURLDecodeStrict (text : Bytes) : Option Bytes :=
  decodeQuanta (text.filter fun byte => !isLineBreak byte)

def stdAlphabet : Bytes :=
  ascii "ABCDEFGHIJKLMNOPQRSTUVWXYZabcdefghijklmnopqrstuvwxyz0123456789+/"

def stdSextet (char : UInt8) : Option Nat := stdAlphabet.findIdx? fun letter => letter = char

/-- The quanta of the padded encoding. Unused bits of the last one are ignored. -/
def stdQuanta : Bytes → Option Bytes
  | [] => some []
  | [first, second, 61, 61] =>
    match stdSextet first, stdSextet second with
    | some a, some b => some [UInt8.ofNat (a * 4 + b / 16)]
    | _, _ => none
  | [first, second, third, 61] =>
    match stdSextet first, stdSextet second, stdSextet third with
    | some a, some b, some c =>
      some [UInt8.ofNat (a * 4 + b / 16), UInt8.ofNat (b % 16 * 16 + c / 4)]
    | _, _, _ => none
  | first :: second :: third :: fourth :: rest =>
    match stdSextet first, stdSextet second, stdSextet third, stdSextet fourth with
    | some a, some b, some c, some d =>
      (stdQuanta rest).map fun bytes =>
        UInt8.ofNat (a * 4 + b / 16) :: UInt8.ofNat (b % 16 * 16 + c / 4) ::
          UInt8.ofNat (c % 4 * 64 + d) :: bytes
    | _, _, _, _ => none
  | _ => none

/-- `StdEncoding.DecodeString`. -/
def stdDecode (text : Bytes) : Option Bytes :=
  stdQuanta (text.filter fun byte => !isLineBreak byte)

theorem sextet_char_listed (sextet : Nat) : sextetChar sextet ∈ urlAlphabet := by
  unfold sextetChar
  rw [List.getD_eq_getElem?_getD]
  cases found : urlAlphabet[sextet]? with
  | none => decide
  | some char => exact List.mem_of_getElem? found

theorem raw_url_encode_listed (bytes : Bytes) : ∀ char ∈ rawURLEncode bytes, char ∈ urlAlphabet := by
  fun_induction rawURLEncode bytes with
  | case1 first second third rest ih =>
    intro char member
    simp only [List.mem_cons] at member
    rcases member with rfl | rfl | rfl | rfl | later
    · exact sextet_char_listed _
    · exact sextet_char_listed _
    · exact sextet_char_listed _
    · exact sextet_char_listed _
    · exact ih char later
  | case2 first second =>
    intro char member
    simp only [List.mem_cons, List.not_mem_nil, or_false] at member
    rcases member with rfl | rfl | rfl <;> exact sextet_char_listed _
  | case3 first =>
    intro char member
    simp only [List.mem_cons, List.not_mem_nil, or_false] at member
    rcases member with rfl | rfl <;> exact sextet_char_listed _
  | case4 => simp

theorem raw_url_encode_ascii (bytes : Bytes) : ∀ char ∈ rawURLEncode bytes, char < 0x80 := by
  intro char member
  have small : ∀ byte ∈ urlAlphabet, byte < 0x80 := by decide +kernel
  exact small char (raw_url_encode_listed bytes char member)

theorem decode_quanta_alphabet (text bytes : Bytes) (decoded : decodeQuanta text = some bytes) :
    ∀ char ∈ text, (charSextet char).isSome := by
  fun_induction decodeQuanta text generalizing bytes with
  | case1 first second third fourth rest a b c d decodedRest later ih =>
    intro char member
    simp only [List.mem_cons] at member
    rcases member with rfl | rfl | rfl | rfl | inRest
    all_goals simp_all
  | _ => simp_all

theorem raw_url_decode_alphabet (text bytes : Bytes)
    (decoded : rawURLDecodeStrict text = some bytes) (char : UInt8) (member : char ∈ text)
    (kept : isLineBreak char = false) : (charSextet char).isSome := by
  refine decode_quanta_alphabet _ bytes decoded char ?_
  rw [List.mem_filter]
  exact ⟨member, by simp [kept]⟩

theorem decode_quanta_head (first second third fourth : UInt8) (rest bytes : Bytes)
    (a b c d : Nat) (firstIs : charSextet first = some a) (secondIs : charSextet second = some b)
    (thirdIs : charSextet third = some c) (fourthIs : charSextet fourth = some d)
    (decoded : decodeQuanta (first :: second :: third :: fourth :: rest) = some bytes) :
    ∃ tail, bytes = UInt8.ofNat (a * 4 + b / 16) :: UInt8.ofNat (b % 16 * 16 + c / 4) ::
      UInt8.ofNat (c % 4 * 64 + d) :: tail := by
  simp only [decodeQuanta, firstIs, secondIs, thirdIs, fourthIs] at decoded
  split at decoded
  case h_1 tail _ => exact ⟨tail, (Option.some.inj decoded).symm⟩
  case h_2 => cases decoded

end Herold.Go

import Herold.Go.Strings
import Herold.Go.Decimal

/-!
# Number sets

A number set is read as text such as `1:5,7,10:*`. The parser keeps each range
as two numbers and writes `*` as the largest number of 32 bits, so a set that
names that number itself reads the same. What a set denotes is defined on the
text: `*` is the highest number in use and a range may be written from either
end.
-/

namespace Herold.Imap

open Herold.Go

def maxNumber : Nat := 0xFFFFFFFF

/-- `strconv.ParseUint` in base ten for 32 bits. -/
def parseUint32 (text : Bytes) : Option Nat :=
  if text = [] ∨ !text.all isDigit then none
  else if decimalValue text ≤ maxNumber then some (decimalValue text) else none

structure NumRange where
  start : Nat
  stop : Nat
  deriving DecidableEq

abbrev NumSet := List NumRange

def parseRangeTerm (text : Bytes) : Option Nat :=
  if text = ascii "*" then some maxNumber else parseUint32 text

def parseRangeLoHi (text : Bytes) : Option NumRange :=
  match splitN 58 2 text with
  | [low] => (parseRangeTerm low).map fun number => ⟨number, number⟩
  | [low, high] => do
      let start ← parseRangeTerm low
      let stop ← parseRangeTerm high
      some ⟨start, stop⟩
  | _ => none

def parseNumSetString (text : Bytes) : Option NumSet := (splitByte 44 text).mapM parseRangeLoHi

inductive SetTerm where
  | star
  | number (value : Nat)
  deriving DecidableEq

namespace SetTerm

def read (text : Bytes) : Option SetTerm :=
  if text = ascii "*" then some .star else (parseUint32 text).map .number

def encoded : SetTerm → Nat
  | star => maxNumber
  | number value => value

def value (highest : Nat) : SetTerm → Nat
  | star => highest
  | number value => value

end SetTerm

structure SetRange where
  first : SetTerm
  last : SetTerm
  deriving DecidableEq

namespace SetRange

def read (text : Bytes) : Option SetRange :=
  match splitN 58 2 text with
  | [term] => (SetTerm.read term).map fun term => ⟨term, term⟩
  | [first, last] => do
      let first ← SetTerm.read first
      let last ← SetTerm.read last
      some ⟨first, last⟩
  | _ => none

def encoded (range : SetRange) : NumRange := ⟨range.first.encoded, range.last.encoded⟩

/-- The number lies between the ends of the range, whichever is the larger. -/
def Denotes (highest : Nat) (range : SetRange) (number : Nat) : Prop :=
  min (range.first.value highest) (range.last.value highest) ≤ number ∧
    number ≤ max (range.first.value highest) (range.last.value highest)

instance (highest : Nat) (range : SetRange) (number : Nat) :
    Decidable (range.Denotes highest number) := inferInstanceAs (Decidable (_ ∧ _))

end SetRange

def readSet (text : Bytes) : Option (List SetRange) := (splitByte 44 text).mapM SetRange.read

/-- The text denotes the number, where `highest` is the highest number in use. -/
def Denotes (text : Bytes) (highest number : Nat) : Prop :=
  ∃ ranges, readSet text = some ranges ∧ ∃ range ∈ ranges, range.Denotes highest number

instance (text : Bytes) (highest number : Nat) : Decidable (Denotes text highest number) :=
  match read : readSet text with
  | none => isFalse fun ⟨ranges, same, _⟩ => by simp [read] at same
  | some ranges =>
    decidable_of_iff (∃ range ∈ ranges, range.Denotes highest number) <| by
      simp [Denotes, read]

theorem parse_range_term_encodes (text : Bytes) :
    parseRangeTerm text = (SetTerm.read text).map SetTerm.encoded := by
  unfold parseRangeTerm SetTerm.read
  by_cases star : text = ascii "*"
  · simp [star, SetTerm.encoded]
  · simp only [star, if_false, Option.map_map]
    cases parseUint32 text <;> rfl

theorem parse_range_encodes (text : Bytes) :
    parseRangeLoHi text = (SetRange.read text).map SetRange.encoded := by
  unfold parseRangeLoHi SetRange.read
  split
  · rw [parse_range_term_encodes, Option.map_map, Option.map_map]
    rfl
  · rename_i low high _
    rw [parse_range_term_encodes, parse_range_term_encodes]
    cases SetTerm.read low with
    | none => rfl
    | some first =>
      cases SetTerm.read high with
      | none => rfl
      | some last => rfl
  · rfl

theorem map_parse_range_encodes (parts : List Bytes) :
    parts.mapM parseRangeLoHi =
      (parts.mapM SetRange.read).map fun ranges => ranges.map SetRange.encoded := by
  induction parts with
  | nil => rfl
  | cons part parts ih =>
    simp only [List.mapM_cons, parse_range_encodes, ih]
    cases SetRange.read part with
    | none => rfl
    | some range =>
      cases parts.mapM SetRange.read with
      | none => rfl
      | some ranges => rfl

theorem parse_num_set_encodes (text : Bytes) :
    parseNumSetString text = (readSet text).map fun ranges => ranges.map SetRange.encoded :=
  map_parse_range_encodes (splitByte 44 text)

end Herold.Imap

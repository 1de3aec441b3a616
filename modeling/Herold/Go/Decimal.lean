import Herold.Go.Unicode
import Mathlib.Data.Nat.Digits.Defs

/-!
# Decimal numbers as Go writes them
-/

namespace Herold.Go

/-- The `%d` rendering of a number that is not negative. -/
def decimal (value : Nat) : Bytes :=
  if value = 0 then [48]
  else (Nat.digits 10 value).reverse.map fun digit => UInt8.ofNat (48 + digit)

def decimalValue (text : Bytes) : Nat :=
  Nat.ofDigits 10 (text.reverse.map fun byte => byte.toNat - 48)

theorem decimal_value_snoc (digits : Bytes) (digit : UInt8) :
    decimalValue (digits ++ [digit]) = decimalValue digits * 10 + (digit.toNat - 48) := by
  simp only [decimalValue, List.reverse_append, List.reverse_singleton, List.singleton_append,
    List.map_cons, Nat.ofDigits_cons]
  omega

def isDigit (byte : UInt8) : Bool := 48 ≤ byte && byte ≤ 57

/-- `strconv.ParseInt` in base ten for 64 bits. -/
def parseInt64 (text : Bytes) : Option Int :=
  let (negative, digits) := match text with
    | 45 :: digits => (true, digits)
    | 43 :: digits => (false, digits)
    | _ => (false, text)
  if digits = [] ∨ !digits.all isDigit then none
  else
    let value := decimalValue digits
    if negative then (if value ≤ 2 ^ 63 then some (-(value : Int)) else none)
    else if value < 2 ^ 63 then some value else none

theorem decimal_value_decimal (value : Nat) : decimalValue (decimal value) = value := by
  unfold decimalValue decimal
  split
  case isTrue zero => simp [zero]
  case isFalse =>
    have digitBack : ∀ digit ∈ Nat.digits 10 value,
        (UInt8.ofNat (48 + digit)).toNat - 48 = digit := by
      intro digit member
      have small := Nat.digits_lt_base (by decide) member
      rw [UInt8.toNat_ofNat']
      omega
    have restored : ((Nat.digits 10 value).reverse.map fun digit =>
        UInt8.ofNat (48 + digit)).reverse.map (fun byte => byte.toNat - 48) =
        Nat.digits 10 value := by
      rw [← List.map_reverse, List.reverse_reverse, List.map_map]
      exact List.map_congr_left (g := id) digitBack |>.trans (List.map_id _)
    rw [restored, Nat.ofDigits_digits]

theorem decimal_injective : Function.Injective decimal :=
  Function.LeftInverse.injective decimal_value_decimal

end Herold.Go

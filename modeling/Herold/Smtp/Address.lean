import Herold.Go.Strings

/-!
# Addresses in the SMTP sessions
-/

namespace Herold.Smtp

open Herold.Go

/-- `splitAddress`: the halves around the last at sign, both of them non-empty. -/
def splitAddress (addr : Bytes) : Option (Bytes × Bytes) :=
  match cutLastByte 64 (trimSpace addr) with
  | some (localPart, domain) =>
    if localPart = [] ∨ domain = [] then none else some (localPart, domain)
  | none => none

theorem split_address_cut (addr localPart domain : Bytes)
    (split : splitAddress addr = some (localPart, domain)) :
    cutLastByte 64 (trimSpace addr) = some (localPart, domain) ∧ localPart ≠ [] := by
  unfold splitAddress at split
  split at split
  case h_1 left right cut =>
    split_ifs at split with empty
    simp only [Option.some.injEq, Prod.mk.injEq] at split
    obtain ⟨rfl, rfl⟩ := split
    exact ⟨cut, fun none => empty (Or.inl none)⟩
  case h_2 => cases split

end Herold.Smtp

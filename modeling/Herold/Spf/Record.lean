import Herold.Go.Decimal
import Herold.Go.Strings

/-!
# SPF records

A record is a list of mechanisms, each with a qualifier, and of modifiers. The text of
a network in `ip4` and `ip6` is read by a function that is given.
-/

namespace Herold.Spf

open Herold.Go

inductive Address where
  | v4 (value : BitVec 32)
  | v6 (value : BitVec 128)
  deriving DecidableEq

def Address.is4 : Address → Bool
  | .v4 _ => true
  | .v6 _ => false

def samePrefix (bits : Nat) : Address → Address → Bool
  | .v4 left, .v4 right => left >>> (32 - bits) = right >>> (32 - bits)
  | .v6 left, .v6 right => left >>> (128 - bits) = right >>> (128 - bits)
  | _, _ => false

structure Network where
  address : Address
  bits : Nat
  deriving DecidableEq

def Network.contains (network : Network) (ip : Address) : Bool :=
  samePrefix network.bits network.address ip

inductive Qualifier where
  | pass
  | fail
  | softFail
  | neutral
  deriving DecidableEq

inductive MechanismName where
  | all
  | includes
  | a
  | mx
  | ptr
  | ip4
  | ip6
  | existing
  deriving DecidableEq

structure Mechanism where
  qualifier : Qualifier
  name : MechanismName
  domain : Bytes := []
  network : Option Network := none
  bits4 : Nat := 32
  bits6 : Nat := 128
  deriving DecidableEq

structure Record where
  mechanisms : List Mechanism
  modifiers : List (Bytes × Bytes)
  deriving DecidableEq

def qualifierOf (byte : UInt8) : Option Qualifier :=
  if byte = 43 then some .pass
  else if byte = 45 then some .fail
  else if byte = 126 then some .softFail
  else if byte = 63 then some .neutral
  else none

def takeQualifier : Bytes → Qualifier × Bytes
  | [] => (.pass, [])
  | byte :: rest =>
    match qualifierOf byte with
    | some qualifier => (qualifier, rest)
    | none => (.pass, byte :: rest)

def endsName (byte : UInt8) : Bool := byte = 58 || byte = 47

def nameOf (text : Bytes) : Option MechanismName :=
  let name := toLower text
  if name = ascii "all" then some .all
  else if name = ascii "include" then some .includes
  else if name = ascii "a" then some .a
  else if name = ascii "mx" then some .mx
  else if name = ascii "ptr" then some .ptr
  else if name = ascii "ip4" then some .ip4
  else if name = ascii "ip6" then some .ip6
  else if name = ascii "exists" then some .existing
  else none

def isMechanismWithArg (term : Bytes) : Bool :=
  (nameOf ((takeQualifier term).2.takeWhile fun byte => !endsName byte)).isSome

/-- `strconv.Atoi` of a number within bounds. -/
def parseBits (limit : Nat) (text : Bytes) : Option Nat :=
  match parseInt64 text with
  | some value => if 0 ≤ value ∧ value ≤ limit then some value.toNat else none
  | none => none

def parseBitsOr (otherwise limit : Nat) (text : Bytes) : Option Nat :=
  if text.isEmpty then some otherwise else parseBits limit text

/-- The two prefix lengths after the domain of `a` and `mx`. -/
def parseDualBits (text : Bytes) : Option (Nat × Nat) :=
  match text with
  | [] => some (32, 128)
  | 47 :: 47 :: six => (parseBits 128 six).map fun bits6 => (32, bits6)
  | 47 :: tail =>
    let parts := (cutFirst [47, 47] tail).getD (tail, [])
    (parseBitsOr 32 32 parts.1).bind fun bits4 =>
      (parseBitsOr 128 128 parts.2).map fun bits6 => (bits4, bits6)
  | _ => none

section Parsing

variable (cidr : Bytes → Option Network)

def parseNetwork (mechanism : Mechanism) (rest : Bytes) (four : Bool) : Option Mechanism :=
  match rest with
  | 58 :: text =>
    let whole := if text.contains 47 then text else text ++ (if four then ascii "/32" else ascii "/128")
    match cidr whole with
    | none => none
    | some network => if network.address.is4 = four then some { mechanism with network } else none
  | _ => none

def parseHost (mechanism : Mechanism) (rest : Bytes) : Option Mechanism :=
  let named := match rest with
    | 58 :: text => (text.takeWhile fun byte => byte ≠ 47, text.dropWhile fun byte => byte ≠ 47)
    | _ => ([], rest)
  (parseDualBits named.2).map fun (bits4, bits6) => { mechanism with domain := named.1, bits4, bits6 }

def parseDomain (mechanism : Mechanism) (rest : Bytes) (needed : Bool) : Option Mechanism :=
  match rest with
  | 58 :: domain => if needed && domain.isEmpty then none else some { mechanism with domain }
  | [] => if needed then none else some mechanism
  | _ => none

/-- The `switch` of `parseMechanism`. -/
def parseArgument (mechanism : Mechanism) (rest : Bytes) : Option Mechanism :=
  match mechanism.name with
  | .all => if rest.isEmpty then some mechanism else none
  | .ip4 => parseNetwork cidr mechanism rest true
  | .ip6 => parseNetwork cidr mechanism rest false
  | .a => parseHost mechanism rest
  | .mx => parseHost mechanism rest
  | .includes => parseDomain mechanism rest true
  | .existing => parseDomain mechanism rest true
  | .ptr => parseDomain mechanism rest false

def parseMechanism (term : Bytes) : Option Mechanism :=
  let (qualifier, text) := takeQualifier term
  match nameOf (text.takeWhile fun byte => !endsName byte) with
  | none => none
  | some name =>
    parseArgument cidr { qualifier, name } (text.dropWhile fun byte => !endsName byte)

def parseTerm (record : Record) (term : Bytes) : Option Record :=
  if term.contains 61 && !isMechanismWithArg term then
    match cutFirstByte 61 term with
    | some ([], _) => none
    | some (name, value) =>
      some { record with modifiers := record.modifiers ++ [(toLower name, value)] }
    | none => none
  else (parseMechanism cidr term).map fun mechanism =>
    { record with mechanisms := record.mechanisms ++ [mechanism] }

def parseRecord (text : Bytes) : Option Record :=
  match fields (trimSpace text) with
  | [] => none
  | version :: terms =>
    if equalFold version (ascii "v=spf1") then terms.foldlM (parseTerm cidr) ⟨[], []⟩ else none

end Parsing

def Record.redirect (record : Record) : Option Bytes :=
  (record.modifiers.find? fun modifier => modifier.1 = ascii "redirect").map Prod.snd

end Herold.Spf

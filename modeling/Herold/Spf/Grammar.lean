import Herold.Spf.Verifier

/-!
# The records of RFC 7208

The grammar of records without macros, read term by term. It is stricter than
`ParseRecord`: terms are parted by spaces alone, a domain ends in a proper label, and
the length of a network is written without leading zeros or a sign.
-/

namespace Herold.Spf

open Herold.Go

def isAlpha (byte : UInt8) : Bool := (65 ≤ byte && byte ≤ 90) || (97 ≤ byte && byte ≤ 122)

def isAlphaNumeric (byte : UInt8) : Bool := isAlpha byte || isDigit byte

/-- `macro-string`, no macro in it. -/
def isMacroString (text : Bytes) : Bool := text.all fun byte => 33 ≤ byte && byte ≤ 126 && byte ≠ 37

/-- `toplabel` -/
def isTopLabel (label : Bytes) : Bool :=
  (label.all fun byte => isAlphaNumeric byte || byte = 45) &&
    label.head?.any isAlphaNumeric && label.getLast?.any isAlphaNumeric && !label.all isDigit

/-- `domain-spec` -/
def isDomainSpec (text : Bytes) : Bool :=
  isMacroString text && (cutLastByte 46 (trimSuffix text [46])).any fun parts => isTopLabel parts.2

/-- `name` of a modifier -/
def isName (text : Bytes) : Bool :=
  text.head?.any isAlpha && text.all fun byte =>
    isAlphaNumeric byte || byte = 45 || byte = 95 || byte = 46

def isLength (digits : Nat) (text : Bytes) : Bool :=
  text = [48] || (text.all isDigit && (text.head?.any fun byte => byte ≠ 48) && text.length ≤ digits)

/-- `dual-cidr-length` -/
def isDualLength : Bytes → Bool
  | [] => true
  | 47 :: 47 :: six => isLength 3 six
  | 47 :: lengths =>
    match cutFirst [47, 47] lengths with
    | some (four, six) => isLength 2 four && isLength 3 six
    | none => isLength 2 lengths
  | _ => false

def isNetworkByte (four : Bool) (byte : UInt8) : Bool :=
  isDigit byte || byte = 46 ||
    (!four && (byte = 58 || (65 ≤ byte && byte ≤ 70) || (97 ≤ byte && byte ≤ 102)))

def isNetwork (four : Bool) (text : Bytes) : Bool :=
  let parts := cutFirstByte 47 text
  ((parts.map Prod.fst).getD text).all (isNetworkByte four) &&
    parts.all fun parts => isLength (if four then 2 else 3) parts.2

section Terms

variable (cidr : Bytes → Option Network)

def standardNetwork (mechanism : Mechanism) (four : Bool) : Bytes → Option Mechanism
  | 58 :: text =>
    let whole := if text.contains 47 then text else text ++ (if four then ascii "/32" else ascii "/128")
    if isNetwork four text then
      -- A client of an IPv4-mapped network is an IPv4 client, which `ip6` does not match.
      (cidr whole).bind fun network =>
        if network.address.is4 = four then some { mechanism with network }
        else if four then none else some mechanism
    else none
  | _ => none

/-- The domain of `a` and `mx` and the lengths after it: a label has no slash, so they
begin behind the last one. -/
def hostParts : Bytes → Bytes × Bytes
  | 58 :: text =>
    let label := (text.reverse.takeWhile fun byte => byte ≠ 46).reverse
    let lengths := label.dropWhile fun byte => byte ≠ 47
    (text.take (text.length - lengths.length), lengths)
  | text => ([], text)

def standardHost (mechanism : Mechanism) (rest : Bytes) : Option Mechanism :=
  let (domain, lengths) := hostParts rest
  if (rest.head? ≠ some 58 || isDomainSpec domain) && isDualLength lengths then
    (parseDualBits lengths).map fun (bits4, bits6) => { mechanism with domain, bits4, bits6 }
  else none

def standardDomain (mechanism : Mechanism) (needed : Bool) : Bytes → Option Mechanism
  | 58 :: domain => if isDomainSpec domain then some { mechanism with domain } else none
  | [] => if needed then none else some mechanism
  | _ => none

def standardArgument (mechanism : Mechanism) (rest : Bytes) : Option Mechanism :=
  match mechanism.name with
  | .all => if rest.isEmpty then some mechanism else none
  | .ip4 => standardNetwork cidr mechanism true rest
  | .ip6 => standardNetwork cidr mechanism false rest
  | .a => standardHost mechanism rest
  | .mx => standardHost mechanism rest
  | .includes => standardDomain mechanism true rest
  | .existing => standardDomain mechanism true rest
  | .ptr => standardDomain mechanism false rest

/-- The name of a mechanism, which is written in ASCII. -/
def standardName (word : Bytes) : Option MechanismName :=
  if word.all isAlphaNumeric then nameOf word else none

/-- `directive` -/
def standardMechanism (term : Bytes) : Option Mechanism :=
  let (qualifier, text) := takeQualifier term
  (standardName (text.takeWhile fun byte => !endsName byte)).bind fun name =>
    standardArgument cidr { qualifier, name } (text.dropWhile fun byte => !endsName byte)

def isDomainModifier (name : Bytes) : Bool := name = ascii "redirect" || name = ascii "exp"

/-- `modifier` -/
def standardModifier (name value : Bytes) : Option (Bytes × Bytes) :=
  if if isDomainModifier (toLower name) then isDomainSpec value else isMacroString value then
    some (toLower name, value)
  else none

def standardTerm (record : Record) (term : Bytes) : Option Record :=
  let directive := (standardMechanism cidr term).map fun mechanism =>
    { record with mechanisms := record.mechanisms ++ [mechanism] }
  match cutFirstByte 61 term with
  | none => directive
  | some (name, value) =>
    if isName name then
      (standardModifier name value).map fun modifier =>
        { record with modifiers := record.modifiers ++ [modifier] }
    else directive

/-- `redirect` and `exp` stand once at most. -/
def repeatsModifier (record : Record) : Bool :=
  let count := fun name => (record.modifiers.filter fun modifier => modifier.1 = name).length
  1 < count (ascii "redirect") || 1 < count (ascii "exp")

/-- `record` without its version. -/
def standardParse (terms : Bytes) : Option Record :=
  (((splitByte 32 terms).filter fun term => !term.isEmpty).foldlM (standardTerm cidr) ⟨[], []⟩).filter
    fun record => !repeatsModifier record

end Terms

def lowerLetter (byte : UInt8) : UInt8 := if 65 ≤ byte && byte ≤ 90 then byte + 32 else byte

def isVersion1 (text : Bytes) : Bool :=
  (text.take 6).map lowerLetter = ascii "v=spf1" && (text.drop 6).head?.all fun byte => byte = 32

def standardRecord (cidr : Bytes → Option Network) (texts : List Bytes) : Except Status Record :=
  match texts.filter isVersion1 with
  | [] => .error .none
  | [text] =>
    match standardParse cidr (text.drop 6) with
    | some record => .ok record
    | none => .error .permError
  | _ => .error .permError

end Herold.Spf

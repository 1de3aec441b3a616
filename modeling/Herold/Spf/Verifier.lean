import Herold.Spf.Record

/-!
# SPF evaluation

`Check` walks the record of the sender's domain with a budget of DNS lookups that its
recursion shares, and with the names it is in the middle of.
-/

namespace Herold.Spf

open Herold.Go

inductive Status where
  | none
  | neutral
  | pass
  | fail
  | softFail
  | tempError
  | permError
  deriving DecidableEq

/-- An answer of the resolver. An error that is neither a missing record nor temporary
is `failed`. -/
inductive Lookup (Answer : Type) where
  | absent
  | temporary
  | failed
  | found (answer : Answer)

structure Zone where
  txt : Bytes → Lookup (List Bytes)
  mx : Bytes → Lookup (List Bytes)
  addresses : Bytes → Lookup (List Address)
  cidr : Bytes → Option Network
  caseless : ∀ left right, equalFold left right = true →
    txt left = txt right ∧ mx left = mx right ∧ addresses left = addresses right

def qualifierToStatus : Qualifier → Status
  | .pass => .pass
  | .fail => .fail
  | .softFail => .softFail
  | .neutral => .neutral

def isAngle (byte : UInt8) : Bool := byte = 60 || byte = 62

def senderDomain (address : Bytes) : Bytes :=
  match cutLastByte 64 (dropTrailing isAngle (address.dropWhile isAngle)) with
  | some (_, domain) => toLower domain
  | none => []

def macroValue (domain sender : Bytes) : Bytes → Bytes
  | [] => []
  | first :: rest =>
    if first = 100 then domain
    else if first = 115 then sender
    else if first = 111 then senderDomain sender
    else if first = 108 then
      match cutLastByte 64 sender with
      | some ([], _) => sender
      | some (part, _) => part
      | none => sender
    else [37, 123] ++ (first :: rest) ++ [125]

-- The number counts the bytes that a macro has used up already.
def expandFrom (domain sender : Bytes) : Nat → Bytes → Bytes
  | _, [] => []
  | used + 1, _ :: rest => expandFrom domain sender used rest
  | 0, byte :: rest =>
    if byte = 37 then
      match rest with
      | 37 :: _ => 37 :: expandFrom domain sender 1 rest
      | 95 :: _ => 32 :: expandFrom domain sender 1 rest
      | 45 :: _ => ascii "%20" ++ expandFrom domain sender 1 rest
      | 123 :: after =>
        match cutFirstByte 125 after with
        | some (token, _) =>
          macroValue domain sender token ++ expandFrom domain sender (token.length + 2) rest
        | none => byte :: expandFrom domain sender 0 rest
      | _ => byte :: expandFrom domain sender 0 rest
    else byte :: expandFrom domain sender 0 rest

def hasMacro (spec : Bytes) : Bool := (cutFirst [37, 123] spec).isSome

def expandDomain (spec domain sender : Bytes) : Bytes :=
  if hasMacro spec then expandFrom domain sender 0 spec else spec

def looksLikeSpf (text : Bytes) : Bool := hasPrefix (toLower (trimSpace text)) (ascii "v=spf1")

def selectRecord (cidr : Bytes → Option Network) (texts : List Bytes) : Except Status Record :=
  match (texts.filter looksLikeSpf).mapM (parseRecord cidr) with
  | none => .error .permError
  | some [] => .error .none
  | some [record] => .ok record
  | some _ => .error .permError

def matchIPs (ip : Address) (addresses : List Address) (mechanism : Mechanism) : Bool :=
  addresses.any fun address =>
    samePrefix (if address.is4 then mechanism.bits4 else mechanism.bits6) address ip

/-- The result that a mechanism ends the evaluation with, and the budget that is left. -/
structure Match where
  ending : Option Status
  left : Nat
  deriving DecidableEq

def consumeLookup (limit : Nat) (then_ : Nat → Match) : Match :=
  match limit with
  | 0 => ⟨some .permError, 0⟩
  | limit + 1 => then_ limit

def matchHosts (zone : Zone) (ip : Address) (mechanism : Mechanism) : List Bytes → Nat → Match
  | [], limit => ⟨none, limit⟩
  | host :: hosts, limit =>
    consumeLookup limit fun limit =>
      match zone.addresses (trimSuffix host [46]) with
      | .absent => matchHosts zone ip mechanism hosts limit
      | .temporary => ⟨some .tempError, limit⟩
      | .failed => matchHosts zone ip mechanism hosts limit
      | .found addresses =>
        if matchIPs ip addresses mechanism then ⟨some (qualifierToStatus mechanism.qualifier), limit⟩
        else matchHosts zone ip mechanism hosts limit

def includeEnding (qualifier : Qualifier) : Status → Option Status
  | .pass => some (qualifierToStatus qualifier)
  | .fail => none
  | .softFail => none
  | .neutral => none
  | .tempError => some .tempError
  | .permError => some .permError
  | .none => some .permError

def orDomain (spec domain : Bytes) : Bytes := if spec.isEmpty then domain else spec

def matchMechanism (zone : Zone) (ip : Address) (sender : Bytes) (recurse : Nat → Bytes → Status × Nat)
    (limit : Nat) (domain : Bytes) (mechanism : Mechanism) : Match :=
  let matched := qualifierToStatus mechanism.qualifier
  match mechanism.name with
  | .all => ⟨some matched, limit⟩
  | .ip4 => ⟨if mechanism.network.any (·.contains ip) then some matched else none, limit⟩
  | .ip6 => ⟨if mechanism.network.any (·.contains ip) then some matched else none, limit⟩
  | .a =>
    consumeLookup limit fun limit =>
      match zone.addresses (expandDomain (orDomain mechanism.domain domain) domain sender) with
      | .absent => ⟨none, limit⟩
      | .temporary => ⟨some .tempError, limit⟩
      | .failed => ⟨none, limit⟩
      | .found addresses => ⟨if matchIPs ip addresses mechanism then some matched else none, limit⟩
  | .mx =>
    consumeLookup limit fun limit =>
      match zone.mx (expandDomain (orDomain mechanism.domain domain) domain sender) with
      | .absent => ⟨none, limit⟩
      | .temporary => ⟨some .tempError, limit⟩
      | .failed => ⟨none, limit⟩
      | .found hosts => matchHosts zone ip mechanism hosts limit
  | .includes =>
    let (status, left) := recurse limit (expandDomain mechanism.domain domain sender)
    ⟨includeEnding mechanism.qualifier status, left⟩
  | .existing =>
    consumeLookup limit fun limit =>
      match zone.addresses (expandDomain mechanism.domain domain sender) with
      | .absent => ⟨none, limit⟩
      | .temporary => ⟨some .tempError, limit⟩
      | .failed => ⟨none, limit⟩
      | .found _ => ⟨some matched, limit⟩
  | .ptr => ⟨none, limit⟩

def eval (zone : Zone) (ip : Address) (sender : Bytes) (recurse : Nat → Bytes → Status × Nat)
    (domain : Bytes) (redirect : Option Bytes) : List Mechanism → Nat → Status × Nat
  | [], limit =>
    match redirect with
    | none => (.neutral, limit)
    | some target => recurse limit (expandDomain target domain sender)
  | mechanism :: mechanisms, limit =>
    let result := matchMechanism zone ip sender recurse limit domain mechanism
    match result.ending with
    | some status => (status, result.left)
    | none => eval zone ip sender recurse domain redirect mechanisms result.left

def checkRecord (zone : Zone) (ip : Address) (sender : Bytes) (recurse : Nat → Bytes → Status × Nat)
    (domain : Bytes) (limit : Nat) : Status × Nat :=
  match zone.txt domain with
  | .absent => (.none, limit)
  | .temporary => (.tempError, limit)
  | .failed => (.permError, limit)
  | .found texts =>
    match selectRecord zone.cidr texts with
    | .error status => (status, limit)
    | .ok record => eval zone ip sender recurse domain record.redirect record.mechanisms limit

/-- `check`. Each call takes from the budget, so as many calls as it holds are enough. -/
def check (zone : Zone) (ip : Address) (sender : Bytes) : Nat → List Bytes → Nat → Bytes → Status × Nat
  | 0, _, limit, _ => (.permError, limit)
  | calls + 1, stack, limit, domain =>
    if stack.any fun name => equalFold name domain then (.permError, limit)
    else match limit with
      | 0 => (.permError, 0)
      | limit + 1 =>
        checkRecord zone ip sender (check zone ip sender calls (domain :: stack)) domain limit

def defaultLookupLimit : Nat := 10

/-- The sender's domain, or the HELO name where the reverse path has none. -/
def checkedDomain (mailFrom helo : Bytes) : Bytes := orDomain (senderDomain mailFrom) helo

/-- `Check` on an address that can be parsed. -/
def checkSender (zone : Zone) (ip : Address) (mailFrom helo : Bytes) : Status :=
  let sender := if (senderDomain mailFrom).isEmpty then ascii "postmaster@" ++ helo else mailFrom
  if (checkedDomain mailFrom helo).isEmpty then .none
  else (check zone ip sender (defaultLookupLimit + 1) [] defaultLookupLimit
    (checkedDomain mailFrom helo)).1

end Herold.Spf

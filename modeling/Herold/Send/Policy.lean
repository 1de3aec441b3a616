import Herold.Go.Strings

/-!
# Who may send as whom

`sendpolicy.CheckFrom` over the store's alias and identity lookups.
-/

namespace Herold.Send

open Herold.Go

structure Principal where
  id : Nat
  canonicalEmail : Bytes
  isAdmin : Bool := false
  deriving DecidableEq

structure APIKey where
  id : Nat
  allowedFromAddresses : List Bytes := []
  allowedFromDomains : List Bytes := []
  deriving DecidableEq

structure Identity where
  email : Bytes
  verifiedAtUs : Int
  deriving DecidableEq

inductive AliasLookup where
  | found (principalID : Nat)
  | notFound
  | failed (error : Bytes)
  deriving DecidableEq

structure Directory where
  resolveAlias : Bytes → Bytes → AliasLookup
  listJMAPIdentities : Nat → Except Bytes (List Identity)

inductive Reason where
  | notOwned
  | keyAddressConstraint
  | keyDomainConstraint
  deriving DecidableEq

inductive Decision where
  | allowed
  | denied (reason : Reason)
  deriving DecidableEq

/-- `splitAddr`: the halves around the last at sign, neither of them empty. -/
def splitAddr (addr : Bytes) : Option (Bytes × Bytes) :=
  match cutLastByte 64 addr with
  | some (localPart, domain) =>
    if localPart = [] ∨ domain = [] then none else some (localPart, domain)
  | none => none

def principalOwnsAddress (directory : Directory) (principal : Principal) (addr : Bytes) :
    Except Bytes Bool :=
  if equalFold principal.canonicalEmail addr then .ok true
  else match splitAddr addr with
    | none => .ok false
    | some (localPart, domain) => match directory.resolveAlias localPart domain with
      | .found target => .ok (target == principal.id)
      | .failed error => .error (ascii "sendpolicy: alias lookup: " ++ error)
      | .notFound => match directory.listJMAPIdentities principal.id with
        | .error error => .error (ascii "sendpolicy: identity lookup: " ++ error)
        | .ok identities => .ok (identities.any fun identity =>
          identity.verifiedAtUs != 0 && equalFold identity.email addr)

def admitsAddress (key : APIKey) (addr : Bytes) : Bool :=
  key.allowedFromAddresses.isEmpty ||
    key.allowedFromAddresses.any fun allowed => equalFold allowed addr

def admitsDomain (key : APIKey) (addr : Bytes) : Bool :=
  key.allowedFromDomains.isEmpty ||
    key.allowedFromDomains.any fun allowed =>
      equalFold allowed (((splitAddr addr).map Prod.snd).getD [])

/-- The rules behind ownership, which bind only a session with an API key. -/
def checkKey (key : Option APIKey) (addr : Bytes) : Decision :=
  match key with
  | none => .allowed
  | some key =>
    if admitsAddress key addr = false then .denied .keyAddressConstraint
    else if admitsDomain key addr = false then .denied .keyDomainConstraint
    else .allowed

def checkFrom (directory : Directory) (principal : Principal) (key : Option APIKey) (addr : Bytes) :
    Except Bytes Decision :=
  if principal.isAdmin then .ok .allowed
  else match principalOwnsAddress directory principal addr with
    | .error error => .error error
    | .ok false => .ok (.denied .notOwned)
    | .ok true => .ok (checkKey key addr)

end Herold.Send

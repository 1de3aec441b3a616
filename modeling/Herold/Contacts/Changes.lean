import Herold.Jmap.PagedWalk

/-!
# Contact/changes

The state of the contacts is a counter that the handlers advance, while the walk counts
the contact rows the store appended to the feed. A client's state string is good as
long as the two agree. Destroying an address book appends one row for each of its
contacts and advances the counter by one.
-/

namespace Herold.ContactSync

open Herold.Store Herold.Jmap Herold.ChangeFeed Herold.Machine

abbrev AddressBookID := Nat

abbrev ContactID := Nat

inductive FeedKind where
  | contact
  | addressBook
  | other (name : Nat)
  deriving DecidableEq

structure AddressBook where
  id : AddressBookID
  principalID : PrincipalID
  isDefault : Bool := false
  deriving DecidableEq

structure Contact where
  id : ContactID
  addressBookID : AddressBookID
  principalID : PrincipalID
  deriving DecidableEq

/-- The tables; the last identifiers are those of the `AUTOINCREMENT` columns, and the
two counters those of `jmap_states`. -/
structure Server where
  books : List AddressBook := []
  contacts : List Contact := []
  lastBook : Nat := 0
  lastContact : Nat := 0
  feed : Feed FeedKind := { rows := [], numbered := List.Pairwise.nil }
  contactState : PrincipalID → Nat := fun _ => 0
  addressBookState : PrincipalID → Nat := fun _ => 0

namespace Server

variable (server : Server)

/-- `IncrementJMAPState` for contacts. -/
def incrementContactState (principal : PrincipalID) : Server :=
  { server with contactState := fun other =>
      if other = principal then server.contactState other + 1 else server.contactState other }

/-- `IncrementJMAPState` for address books. -/
def incrementAddressBookState (principal : PrincipalID) : Server :=
  { server with addressBookState := fun other =>
      if other = principal then server.addressBookState other + 1 else server.addressBookState other }

def withoutDefault (principal : PrincipalID) : List AddressBook :=
  server.books.map fun book =>
    if book.principalID = principal ∧ book.isDefault then { book with isDefault := false } else book

def insertAddressBook (principal : PrincipalID) (isDefault : Bool) : Server :=
  let id := server.lastBook + 1
  { server with
    books := (if isDefault then server.withoutDefault principal else server.books) ++
      [{ id := id, principalID := principal, isDefault := isDefault }]
    lastBook := id
    feed := server.feed.append principal .addressBook id 0 .created }

/-- `UpdateAddressBook`, for the column that other rows depend on. -/
def updateAddressBook (id : AddressBookID) (principal : PrincipalID)
    (wasDefault isDefault : Bool) : Server :=
  { server with
    books := (if isDefault && !wasDefault then server.withoutDefault principal
      else server.books).map fun book =>
      if book.id = id then { book with isDefault := isDefault } else book
    feed := server.feed.append principal .addressBook id 0 .updated }

def appendDestroyed (principal : PrincipalID) (book : AddressBookID) :
    List ContactID → Feed FeedKind → Feed FeedKind
  | [], feed => feed
  | id :: ids, feed => appendDestroyed principal book ids
    (feed.append principal .contact id book .destroyed)

def contactsOf (book : AddressBookID) : List ContactID :=
  (server.contacts.filter fun contact => contact.addressBookID = book).map Contact.id

/-- `DeleteAddressBook`, with the cascade of the schema. -/
def deleteAddressBook (id : AddressBookID) (principal : PrincipalID) : Server :=
  { server with
    books := server.books.filter fun book => book.id ≠ id
    contacts := server.contacts.filter fun contact => contact.addressBookID ≠ id
    feed := (appendDestroyed principal id (server.contactsOf id) server.feed).append principal
      .addressBook id 0 .destroyed }

def insertContact (principal : PrincipalID) (book : AddressBookID) : Server :=
  let id := server.lastContact + 1
  { server with
    contacts := server.contacts ++ [{ id := id, addressBookID := book, principalID := principal }]
    lastContact := id
    feed := server.feed.append principal .contact id book .created }

/-- `UpdateContact`; it writes no column of the model. -/
def updateContactRow (contact : Contact) : Server :=
  { server with
    feed := server.feed.append contact.principalID .contact contact.id contact.addressBookID .updated }

def deleteContact (contact : Contact) : Server :=
  { server with
    contacts := server.contacts.filter fun other => other.id ≠ contact.id
    feed := server.feed.append contact.principalID .contact
      contact.id contact.addressBookID .destroyed }

end Server

/-- One object of a `Contact/set` or `AddressBook/set` call, its reference resolved. A
call is a row of them. -/
inductive Operation where
  | createContact (book : Option AddressBookID)
  | updateContact (id : ContactID)
  | destroyContact (id : ContactID)
  | createAddressBook (isDefault : Bool)
  | updateAddressBook (id : AddressBookID) (isDefault : Option Bool)
  | destroyAddressBook (id : AddressBookID)
  deriving DecidableEq

/-- The checks of a body: its JSON, the card, its photos, names and uids in use. What
they look at is not modelled, so a verdict is any function of the state and the object. -/
abbrev Checks := Server → PrincipalID → Operation → Bool

section Handlers

variable (server : Server) (principal : PrincipalID)

/-- The book a new contact goes to: the named one if the principal owns it, or the
principal's default book. -/
def targetBook : Option AddressBookID → Option AddressBook
  | some id => server.books.find? fun book => book.id = id ∧ book.principalID = principal
  | none => server.books.find? fun book => book.principalID = principal ∧ book.isDefault

def createContact (book : Option AddressBookID) : Server :=
  match targetBook server principal book with
  | none => server
  | some target => (server.insertContact principal target.id).incrementContactState principal

def ownContact (id : ContactID) : Option Contact :=
  server.contacts.find? fun contact => contact.id = id ∧ contact.principalID = principal

def ownBook (id : AddressBookID) : Option AddressBook :=
  server.books.find? fun book => book.id = id ∧ book.principalID = principal

def updateContact (id : ContactID) : Server :=
  match ownContact server principal id with
  | none => server
  | some contact => (server.updateContactRow contact).incrementContactState principal

def destroyContact (id : ContactID) : Server :=
  match ownContact server principal id with
  | none => server
  | some contact => (server.deleteContact contact).incrementContactState principal

/-- `createAddressBook`: the first book becomes the default one. -/
def createAddressBook (isDefault : Bool) : Server :=
  let first := (server.books.find? fun book => book.principalID = principal ∧ book.isDefault).isNone
  (server.insertAddressBook principal (first || isDefault)).incrementAddressBookState principal

def updateAddressBook (id : AddressBookID) (isDefault : Option Bool) : Server :=
  match ownBook server principal id with
  | none => server
  | some book =>
    (server.updateAddressBook id principal book.isDefault
      (isDefault.getD book.isDefault)).incrementAddressBookState
      principal

def destroyAddressBook (id : AddressBookID) : Server :=
  match ownBook server principal id with
  | none => server
  | some _ =>
    ((server.deleteAddressBook id principal).incrementAddressBookState
      principal).incrementContactState principal

def operate (checks : Checks) (operation : Operation) : Server :=
  if checks server principal operation then
    match operation with
    | .createContact book => createContact server principal book
    | .updateContact id => updateContact server principal id
    | .destroyContact id => destroyContact server principal id
    | .createAddressBook isDefault => createAddressBook server principal isDefault
    | .updateAddressBook id isDefault => updateAddressBook server principal id isDefault
    | .destroyAddressBook id => destroyAddressBook server principal id
  else server

end Handlers

def callByOrdinal (principal : PrincipalID) (sinceOrdinal maxChanges : Nat) : Call FeedKind where
  principal := principal
  kind := .contact
  encoding := .byOrdinal
  since := sinceOrdinal
  maxChanges := maxChanges

structure Response where
  folded : Folded := {}
  newState : Nat
  hasMoreChanges : Bool := false

/-- `Contact/changes`; no answer stands for `cannotCalculateChanges`. -/
def contactChanges (server : Server) (principal : PrincipalID) (since maxChanges : Nat) :
    Option Response :=
  let state := server.contactState principal
  if since = state then some { newState := state }
  else if state < since then none
  else
    let walk := walkChanges (callByOrdinal principal since maxChanges) server.feed
    some
      { folded := walk.folded
        newState := if walk.hasMore then walk.cutoff else state
        hasMoreChanges := walk.hasMore }

def existing (server : Server) (principal : PrincipalID) : List ContactID :=
  (server.contacts.filter fun contact => contact.principalID = principal).map Contact.id

/-- A state string the server returned, with the identifiers a client at that state
holds and the length of the feed when it was returned. -/
structure Returned where
  state : Nat
  held : List ContactID
  seen : Nat

structure System where
  server : Server := {}
  returned : List Returned := []

/-- What happens next: an object of some principal's set call, a row that some other
part of the server appends, a `Contact/get` of the client, or its call of
`Contact/changes` from a state it was given. -/
inductive Event where
  | operate (principal : PrincipalID) (operation : Operation)
  | elsewhere (principal : PrincipalID) (name entityID parentEntityID : Nat) (op : ChangeOp)
      (cause : ChangeCause)
  | get
  | changes (index maxChanges : Nat)

section Client

variable (client : PrincipalID) (checks : Checks)

def System.step (system : System) : Event → System
  | .operate principal operation =>
    { system with server := operate system.server principal checks operation }
  | .elsewhere principal name entityID parentEntityID op cause =>
    { system with server := { system.server with
        feed := system.server.feed.append principal (.other name) entityID parentEntityID op cause } }
  | .get =>
    { system with returned := system.returned ++ [
        { state := system.server.contactState client
          held := existing system.server client
          seen := system.server.feed.rows.length }] }
  | .changes index maxChanges =>
    match system.returned[index]? with
    | none => system
    | some returned =>
      match contactChanges system.server client returned.state maxChanges with
      | none => system
      | some response =>
        { system with returned := system.returned ++ [
            { state := response.newState
              held := applied returned.held response.folded
              seen := system.server.feed.rows.length }] }

def machine : Machine System Event where
  step system event := some (system.step client checks event)

inductive Follows (server : Server) (maxChanges : Nat) :
    Nat → List ContactID → List Response → List ContactID → Prop where
  | last {since : Nat} {held : List ContactID} {response : Response}
      (answered : contactChanges server client since maxChanges = some response)
      (complete : response.hasMoreChanges = false) :
      Follows server maxChanges since held [response] (applied held response.folded)
  | more {since : Nat} {held : List ContactID} {response : Response} {later : List Response}
      {final : List ContactID} (answered : contactChanges server client since maxChanges =
        some response)
      (trimmed : response.hasMoreChanges = true)
      (rest : Follows server maxChanges response.newState (applied held response.folded) later final) :
      Follows server maxChanges since held (response :: later) final

def rowsBehind (server : Server) (seen : Nat) : List (Entry FeedKind) :=
  ofKind .contact ((server.feed.rows.drop seen).filter (selects client 0 true))

/-- From every state the client was given it can come up to date: it is answered until
there is no more, then holds the contacts there are, and was told of every contact that
changed since the state was returned. -/
def Resumable (system : System) : Prop :=
  ∀ returned ∈ system.returned, ∀ maxChanges, 1 ≤ maxChanges →
    ∃ responses final,
      Follows client system.server maxChanges returned.state returned.held responses final ∧
      (∀ id, id ∈ final ↔ id ∈ existing system.server client) ∧
      ∀ entry ∈ rowsBehind client system.server returned.seen,
        (entry.entityID ∈ existing system.server client →
          ∃ response ∈ responses, entry.entityID ∈ response.folded.created ∨
            entry.entityID ∈ response.folded.updated) ∧
        (entry.entityID ∉ existing system.server client → entry.entityID ∈ returned.held →
          ∃ response ∈ responses, entry.entityID ∈ response.folded.destroyed)

/-- The condition: an address book is destroyed only while it holds exactly one contact. -/
def DestroysSingle (system : System) : Event → Prop
  | .operate principal (.destroyAddressBook id) =>
    checks system.server principal (.destroyAddressBook id) →
    (ownBook system.server principal id).isSome →
      (system.server.contactsOf id).length = 1
  | _ => True

end Client

end Herold.ContactSync

import Herold.Contacts.Changes

/-!
# Resuming Contact/changes

Each operation is described by what it does to one principal's contact rows, counter
and contacts. While the counter is the number of rows, a state string is a number of
rows the client knows, and the windows of its calls are the rows behind them.
-/

namespace Herold.ContactSync

open Herold.Store Herold.Jmap Herold.ChangeFeed Herold.Machine

abbrev contactRows (server : Server) (client : PrincipalID) : List (Entry FeedKind) :=
  rowsSince server.feed client .contact 0

section Appending

variable (feed : Feed FeedKind) (client principal : PrincipalID)

theorem rows_append (kind : FeedKind) (entityID parentEntityID : Nat) (op : ChangeOp)
    (cause : ChangeCause)
    (other : ¬(principal = client ∧ kind = .contact)) :
    rowsSince (feed.append principal kind entityID parentEntityID op cause) client .contact 0 =
      rowsSince feed client .contact 0 := by
  simp only [rowsSince, entriesAfter, ofKind, Feed.append, List.filter_append]
  have none : ([feed.nextEntry principal kind entityID parentEntityID op cause].filter
      (selects client 0 true)).filter (fun entry => decide (entry.kind = .contact)) = [] := by
    rw [List.filter_filter, List.filter_eq_nil_iff]
    intro entry member
    rw [List.mem_singleton.mp member]
    simp only [selects, Feed.nextEntry, Bool.and_eq_true]
    rintro ⟨isContact, ⟨same, _⟩, _⟩
    exact other ⟨of_decide_eq_true same, of_decide_eq_true isContact⟩
  rw [none, List.append_nil]

theorem rows_append_contact (entityID parentEntityID : Nat) (op : ChangeOp) :
    rowsSince (feed.append client .contact entityID parentEntityID op) client .contact 0 =
      rowsSince feed client .contact 0 ++
        [feed.nextEntry client .contact entityID parentEntityID op .user] := by
  simp only [rowsSince, entriesAfter, ofKind, Feed.append, List.filter_append]
  simp [selects, Feed.nextEntry]

theorem rows_append_destroyed (book : AddressBookID) (ids : List ContactID)
    (other : principal ≠ client) :
    rowsSince (Server.appendDestroyed principal book ids feed) client .contact 0 =
      rowsSince feed client .contact 0 := by
  induction ids generalizing feed with
  | nil => rfl
  | cons id ids ih =>
    rw [Server.appendDestroyed, ih]
    exact rows_append feed client principal _ _ _ _ _ fun same => other same.1

end Appending

section Effect

variable (client : PrincipalID) (server next : Server)

/-- The effect of a step on the rows, the counter and the contacts of a principal. -/
inductive Effect : Prop where
  | quiet (rows : contactRows next client = contactRows server client)
      (state : next.contactState client = server.contactState client)
      (same : existing next client = existing server client)
  | created (entry : Entry FeedKind)
      (rows : contactRows next client = contactRows server client ++ [entry])
      (state : next.contactState client = server.contactState client + 1) (op : entry.op = .created)
      (fresh : server.lastContact < entry.entityID) (within : entry.entityID ≤ next.lastContact)
      (same : ∀ id, id ∈ existing next client ↔ id ∈ existing server client ∨ id = entry.entityID)
  | updated (entry : Entry FeedKind)
      (rows : contactRows next client = contactRows server client ++ [entry])
      (state : next.contactState client = server.contactState client + 1) (op : entry.op = .updated)
      (known : entry.entityID ∈ existing server client)
      (same : existing next client = existing server client)
  | destroyed (entry : Entry FeedKind)
      (rows : contactRows next client = contactRows server client ++ [entry])
      (state : next.contactState client = server.contactState client + 1) (op : entry.op = .destroyed)
      (known : entry.entityID ∈ existing server client)
      (same : ∀ id, id ∈ existing next client ↔ id ∈ existing server client ∧ id ≠ entry.entityID)

/-- The tables of a server: a contact has the principal of its book, and no identifier
is above the last one given out. -/
structure Tidy (server : Server) : Prop where
  bookOwner : ∀ left ∈ server.books, ∀ right ∈ server.books, left.id = right.id →
    left.principalID = right.principalID
  bookBounded : ∀ book ∈ server.books, book.id ≤ server.lastBook
  owner : ∀ contact ∈ server.contacts, ∀ book ∈ server.books, book.id = contact.addressBookID →
    book.principalID = contact.principalID
  books : ∀ contact ∈ server.contacts, contact.addressBookID ≤ server.lastBook
  bounded : ∀ contact ∈ server.contacts, contact.id ≤ server.lastContact
  distinct : (server.contacts.map Contact.id).Nodup

theorem Tidy.contact_eq {server : Server} (tidy : Tidy server) {left right : Contact}
    (leftListed : left ∈ server.contacts) (rightListed : right ∈ server.contacts)
    (same : left.id = right.id) :
    left = right := List.inj_on_of_nodup_map tidy.distinct leftListed rightListed same

theorem mem_existing {server : Server} {client : PrincipalID} {id : ContactID} :
    id ∈ existing server client ↔ ∃ contact ∈ server.contacts, contact.principalID = client ∧
    contact.id = id := by
  simp [existing, and_assoc]

variable {client} {server}

theorem create_contact_effect (principal : PrincipalID) (book : Option AddressBookID) :
    Effect client server (createContact server principal book) := by
  unfold createContact
  cases targetBook server principal book with
  | none => exact Effect.quiet rfl rfl rfl
  | some target =>
    by_cases own : principal = client
    · subst own
      refine Effect.created _ (rows_append_contact server.feed principal (server.lastContact + 1)
        target.id .created)
        ?_ rfl (Nat.lt_succ_self _) (Nat.le_refl _) ?_
      · simp [Server.incrementContactState, Server.insertContact]
      · intro id
        simp [existing, Server.incrementContactState, Server.insertContact, Feed.nextEntry]
    · refine Effect.quiet ?_ ?_ ?_
      · exact rows_append server.feed client principal _ _ _ _ _ fun same => own same.1
      · simp [Server.incrementContactState, Server.insertContact, Ne.symm own]
      · simp [existing, Server.incrementContactState, Server.insertContact, own]

theorem own_contact_found {principal : PrincipalID} {id : ContactID} {contact : Contact}
    (found : ownContact server principal id = some contact) :
    contact ∈ server.contacts ∧ contact.id = id ∧ contact.principalID = principal := by
  have passes := List.find?_some found
  simp only [Bool.decide_and, Bool.and_eq_true, decide_eq_true_eq] at passes
  exact ⟨List.mem_of_find?_eq_some found, passes⟩

theorem update_contact_effect (principal : PrincipalID) (id : ContactID) :
    Effect client server (updateContact server principal id) := by
  unfold updateContact
  cases found : ownContact server principal id with
  | none => exact Effect.quiet rfl rfl rfl
  | some contact =>
    obtain ⟨member, isId, isOwner⟩ := own_contact_found found
    by_cases own : principal = client
    · subst own
      have rows := rows_append_contact server.feed principal contact.id contact.addressBookID .updated
      rw [← isOwner] at rows
      refine Effect.updated _ (by rw [← isOwner]; exact rows) ?_ rfl ?_ rfl
      · simp [Server.incrementContactState, Server.updateContactRow]
      · exact mem_existing.mpr ⟨contact, member, isOwner, rfl⟩
    · refine Effect.quiet ?_ ?_ rfl
      · exact rows_append server.feed client contact.principalID _ _ _ _ _ fun same =>
          own (isOwner.symm.trans same.1)
      · simp [Server.incrementContactState, Server.updateContactRow, Ne.symm own]

theorem destroy_contact_effect (tidy : Tidy server) (principal : PrincipalID) (id : ContactID) :
    Effect client server (destroyContact server principal id) := by
  unfold destroyContact
  cases found : ownContact server principal id with
  | none => exact Effect.quiet rfl rfl rfl
  | some contact =>
    obtain ⟨member, isId, isOwner⟩ := own_contact_found found
    by_cases own : principal = client
    · subst own
      have rows := rows_append_contact server.feed principal contact.id contact.addressBookID .destroyed
      rw [← isOwner] at rows
      refine Effect.destroyed _ (by rw [← isOwner]; exact rows) ?_ rfl ?_ ?_
      · simp [Server.incrementContactState, Server.deleteContact]
      · exact mem_existing.mpr ⟨contact, member, isOwner, rfl⟩
      · intro other
        simp only [mem_existing, Server.incrementContactState, Server.deleteContact, List.mem_filter,
          decide_eq_true_eq, Feed.nextEntry]
        constructor
        · rintro ⟨kept, ⟨among, differs⟩, same, rfl⟩
          exact ⟨⟨kept, among, same, rfl⟩, differs⟩
        · rintro ⟨⟨kept, among, same, rfl⟩, differs⟩
          exact ⟨kept, ⟨among, differs⟩, same, rfl⟩
    · refine Effect.quiet ?_ ?_ ?_
      · exact rows_append server.feed client contact.principalID _ _ _ _ _ fun same =>
          own (isOwner.symm.trans same.1)
      · simp [Server.incrementContactState, Server.deleteContact, Ne.symm own]
      · -- the identifiers are distinct, so no contact of the client goes
        simp only [existing, Server.incrementContactState, Server.deleteContact, List.filter_filter]
        congr 1
        refine List.filter_congr fun other among => ?_
        by_cases ofClient : other.principalID = client
        · have differs : other.id ≠ contact.id := by
            intro same
            have equal := tidy.contact_eq among member same
            rw [equal, isOwner] at ofClient
            exact own ofClient
          simp [ofClient, differs]
        · simp [ofClient]

theorem create_address_book_effect (principal : PrincipalID) (isDefault : Bool) :
    Effect client server (createAddressBook server principal isDefault) :=
  Effect.quiet (rows_append server.feed client principal _ _ _ _ _ fun same => by cases same.2) rfl rfl

theorem update_address_book_effect (principal : PrincipalID) (id : AddressBookID)
    (isDefault : Option Bool) :
    Effect client server (updateAddressBook server principal id isDefault) := by
  unfold updateAddressBook
  cases ownBook server principal id with
  | none => exact Effect.quiet rfl rfl rfl
  | some book =>
    exact Effect.quiet (rows_append server.feed client principal _ _ _ _ _
      fun same => by cases same.2) rfl rfl

theorem own_book_found {principal : PrincipalID} {id : AddressBookID} {book : AddressBook}
    (found : ownBook server principal id = some book) :
    book ∈ server.books ∧ book.id = id ∧ book.principalID = principal := by
  have passes := List.find?_some found
  simp only [Bool.decide_and, Bool.and_eq_true, decide_eq_true_eq] at passes
  exact ⟨List.mem_of_find?_eq_some found, passes⟩

theorem cascade_elsewhere (tidy : Tidy server) {principal : PrincipalID} {book : AddressBook}
    (listed : book ∈ server.books) (owned : book.principalID = principal) (other : principal ≠ client) :
    (server.contacts.filter fun contact => decide (contact.addressBookID ≠ book.id)).filter
        (fun contact => decide (contact.principalID = client)) =
      server.contacts.filter fun contact => decide (contact.principalID = client) := by
  rw [List.filter_filter]
  refine List.filter_congr fun contact among => ?_
  by_cases ofClient : contact.principalID = client
  · have differs : contact.addressBookID ≠ book.id := by
      intro same
      have owner := tidy.owner contact among book listed same.symm
      exact other (owned.symm.trans (owner.trans ofClient))
    simp [ofClient, differs]
  · simp [ofClient]

theorem destroy_address_book_effect (tidy : Tidy server) (principal : PrincipalID) (id : AddressBookID)
    (single : (ownBook server principal id).isSome → (server.contactsOf id).length = 1) :
    Effect client server (destroyAddressBook server principal id) := by
  unfold destroyAddressBook
  cases found : ownBook server principal id with
  | none => exact Effect.quiet rfl rfl rfl
  | some book =>
    obtain ⟨listed, rfl, owned⟩ := own_book_found found
    by_cases own : principal = client
    · subst own
      -- the one contact of the book
      obtain ⟨only, isOnly⟩ := List.length_eq_one_iff.mp (single (by rw [found]; rfl))
      have onlyOf : ∀ contact ∈ server.contacts, contact.addressBookID = book.id →
        contact.id = only := by
        intro contact among inBook
        have inside : contact.id ∈ server.contactsOf book.id :=
          List.mem_map_of_mem (List.mem_filter.mpr ⟨among, decide_eq_true inBook⟩)
        rw [isOnly] at inside
        exact List.mem_singleton.mp inside
      have among : only ∈ server.contactsOf book.id := by
        rw [isOnly]
        exact List.mem_singleton_self only
      obtain ⟨contact, inBook, isContact⟩ := List.mem_map.mp among
      obtain ⟨member, placed⟩ := List.mem_filter.mp inBook
      have ofBook : contact.addressBookID = book.id := of_decide_eq_true placed
      have owner := tidy.owner contact member book listed ofBook.symm
      refine Effect.destroyed (server.feed.nextEntry principal .contact only book.id .destroyed
        .user) ?_ ?_ rfl ?_ ?_
      · change rowsSince ((Server.appendDestroyed principal book.id (server.contactsOf book.id)
          server.feed).append principal .addressBook book.id 0 .destroyed) principal .contact 0 = _
        rw [rows_append _ principal principal _ _ _ _ _ (fun same => by cases same.2), isOnly]
        exact rows_append_contact server.feed principal only book.id .destroyed
      · simp [Server.incrementContactState, Server.incrementAddressBookState, Server.deleteAddressBook]
      · exact mem_existing.mpr ⟨contact, member, owner.symm.trans owned, isContact⟩
      · intro other
        simp only [mem_existing, Server.incrementContactState, Server.incrementAddressBookState,
          Server.deleteAddressBook, List.mem_filter, decide_eq_true_eq, Feed.nextEntry]
        constructor
        · rintro ⟨kept, ⟨stays, differs⟩, same, rfl⟩
          refine ⟨⟨kept, stays, same, rfl⟩, fun isOnly => differs ?_⟩
          rw [tidy.contact_eq stays member (isOnly.trans isContact.symm), ofBook]
        · rintro ⟨⟨kept, stays, same, rfl⟩, differs⟩
          exact ⟨kept, ⟨stays, fun inside => differs (onlyOf kept stays inside)⟩, same, rfl⟩
    · refine Effect.quiet ?_ ?_ ?_
      · change rowsSince ((Server.appendDestroyed principal book.id (server.contactsOf book.id)
          server.feed).append principal .addressBook book.id 0 .destroyed) client .contact 0 = _
        rw [rows_append _ client principal _ _ _ _ _ fun same => by cases same.2]
        exact rows_append_destroyed server.feed client principal book.id _ own
      · simp [Server.incrementContactState, Server.incrementAddressBookState,
          Server.deleteAddressBook, Ne.symm own]
      · exact congrArg (List.map Contact.id) (cascade_elsewhere tidy listed owned own)

theorem operate_effect (tidy : Tidy server) (checks : Checks) (principal : PrincipalID)
    (operation : Operation)
    (single : ∀ id, operation = .destroyAddressBook id → checks server principal operation →
      (ownBook server principal id).isSome → (server.contactsOf id).length = 1) :
    Effect client server (operate server principal checks operation) := by
  unfold operate
  by_cases passes : checks server principal operation = true
  · rw [if_pos passes]
    cases operation with
    | createContact book => exact create_contact_effect principal book
    | updateContact id => exact update_contact_effect principal id
    | destroyContact id => exact destroy_contact_effect tidy principal id
    | createAddressBook isDefault => exact create_address_book_effect principal isDefault
    | updateAddressBook id isDefault => exact update_address_book_effect principal id isDefault
    | destroyAddressBook id =>
      exact destroy_address_book_effect tidy principal id (single id rfl passes)
  · rw [if_neg passes]
    exact Effect.quiet rfl rfl rfl

end Effect

section Tables

variable {server : Server}

theorem without_default_books {principal : PrincipalID} {book : AddressBook}
    (listed : book ∈ server.withoutDefault principal) :
    ∃ before ∈ server.books, before.id = book.id ∧ before.principalID = book.principalID := by
  obtain ⟨before, member, rfl⟩ := List.mem_map.mp listed
  refine ⟨before, member, ?_⟩
  by_cases demoted : before.principalID = principal ∧ before.isDefault
  · rw [if_pos demoted]
    exact ⟨rfl, rfl⟩
  · rw [if_neg demoted]
    exact ⟨rfl, rfl⟩

/-- A step that leaves the contacts alone, and whose books were there before or are all
the one new book. -/
theorem Tidy.books_changed (tidy : Tidy server) {next : Server} (principal : PrincipalID)
    (contacts : next.contacts = server.contacts) (lastBook : server.lastBook ≤ next.lastBook)
    (lastContact : next.lastContact = server.lastContact)
    (traced : ∀ book ∈ next.books,
      (book.id = server.lastBook + 1 ∧ book.id ≤ next.lastBook ∧ book.principalID = principal) ∨
      ∃ before ∈ server.books, before.id = book.id ∧ before.principalID = book.principalID) :
    Tidy next := by
  refine ⟨?_, ?_, ?_, ?_, ?_, ?_⟩
  · intro left leftListed right rightListed same
    rcases traced left leftListed with ⟨leftNew, _, leftOwner⟩ | ⟨leftOld, leftAmong, leftId, leftOwner⟩
    · rcases traced right rightListed with ⟨_, _, rightOwner⟩ | ⟨rightOld, rightAmong, rightId, _⟩
      · exact leftOwner.trans rightOwner.symm
      · have bound := tidy.bookBounded rightOld rightAmong
        rw [rightId, ← same, leftNew] at bound
        exact absurd bound (Nat.not_succ_le_self _)
    · rcases traced right rightListed with ⟨rightNew, _, _⟩ | ⟨rightOld, rightAmong,
        rightId, rightOwner⟩
      · have bound := tidy.bookBounded leftOld leftAmong
        rw [leftId, same, rightNew] at bound
        exact absurd bound (Nat.not_succ_le_self _)
      · rw [← leftOwner, ← rightOwner]
        exact tidy.bookOwner leftOld leftAmong rightOld rightAmong
          (leftId.trans (same.trans rightId.symm))
  · intro book listed
    rcases traced book listed with ⟨_, bound, _⟩ | ⟨before, among, sameId, _⟩
    · exact bound
    · rw [← sameId]
      exact (tidy.bookBounded before among).trans lastBook
  · intro contact member book listed same
    rw [contacts] at member
    rcases traced book listed with ⟨new, _, _⟩ | ⟨before, among, sameId, samePrincipal⟩
    · have old := tidy.books contact member
      rw [← same, new] at old
      exact absurd old (Nat.not_succ_le_self _)
    · rw [← samePrincipal]
      exact tidy.owner contact member before among (sameId.trans same)
  · intro contact member
    rw [contacts] at member
    exact (tidy.books contact member).trans lastBook
  · intro contact member
    rw [contacts] at member
    rw [lastContact]
    exact tidy.bounded contact member
  · rw [contacts]
    exact tidy.distinct

theorem Tidy.shrunk (tidy : Tidy server) {next : Server}
    (contacts : next.contacts.Sublist server.contacts)
    (books : ∀ book ∈ next.books, book ∈ server.books) (lastBook : next.lastBook = server.lastBook)
    (lastContact : next.lastContact = server.lastContact) : Tidy next := by
  refine ⟨?_, ?_, ?_, ?_, ?_, ?_⟩
  · intro left leftListed right rightListed
    exact tidy.bookOwner left (books left leftListed) right (books right rightListed)
  · intro book listed
    rw [lastBook]
    exact tidy.bookBounded book (books book listed)
  · intro contact member book listed
    exact tidy.owner contact (contacts.subset member) book (books book listed)
  · intro contact member
    rw [lastBook]
    exact tidy.books contact (contacts.subset member)
  · intro contact member
    rw [lastContact]
    exact tidy.bounded contact (contacts.subset member)
  · exact tidy.distinct.sublist (contacts.map Contact.id)

theorem target_book_found {principal : PrincipalID} {choice : Option AddressBookID} {book : AddressBook}
    (found : targetBook server principal choice = some book) :
    book ∈ server.books ∧ book.principalID = principal := by
  cases choice with
  | none =>
    have passes := List.find?_some found
    simp only [Bool.decide_and, Bool.and_eq_true, decide_eq_true_eq] at passes
    exact ⟨List.mem_of_find?_eq_some found, passes.1⟩
  | some id =>
    have passes := List.find?_some found
    simp only [Bool.decide_and, Bool.and_eq_true, decide_eq_true_eq] at passes
    exact ⟨List.mem_of_find?_eq_some found, passes.2⟩

theorem create_contact_tidy (tidy : Tidy server) (principal : PrincipalID)
    (book : Option AddressBookID) :
    Tidy (createContact server principal book) := by
  unfold createContact
  cases found : targetBook server principal book with
  | none => exact tidy
  | some target =>
    obtain ⟨listed, owned⟩ := target_book_found found
    have parts : ∀ contact ∈ (server.insertContact principal target.id).contacts,
        contact ∈ server.contacts ∨
          contact = { id := server.lastContact + 1, addressBookID := target.id,
                      principalID := principal } := by
      intro contact member
      rcases List.mem_append.mp member with old | new
      · exact Or.inl old
      · exact Or.inr (List.mem_singleton.mp new)
    refine ⟨tidy.bookOwner, tidy.bookBounded, ?_, ?_, ?_, ?_⟩
    · intro contact member other among same
      rcases parts contact member with old | rfl
      · exact tidy.owner contact old other among same
      · exact (tidy.bookOwner other among target listed same).trans owned
    · intro contact member
      rcases parts contact member with old | rfl
      · exact tidy.books contact old
      · exact tidy.bookBounded target listed
    · intro contact member
      rcases parts contact member with old | rfl
      · exact (tidy.bounded contact old).trans (Nat.le_succ _)
      · exact Nat.le_refl _
    · change ((server.contacts ++ [_]).map Contact.id).Nodup
      rw [List.map_append, List.nodup_append]
      refine ⟨tidy.distinct, List.nodup_singleton _, ?_⟩
      intro left leftListed right rightListed same
      obtain ⟨contact, among, rfl⟩ := List.mem_map.mp leftListed
      have bound := tidy.bounded contact among
      rw [same, List.mem_singleton.mp rightListed] at bound
      exact absurd bound (Nat.not_succ_le_self _)

theorem create_address_book_tidy (tidy : Tidy server) (principal : PrincipalID) (isDefault : Bool) :
    Tidy (createAddressBook server principal isDefault) := by
  refine tidy.books_changed principal rfl (Nat.le_succ _) rfl ?_
  intro book listed
  rcases List.mem_append.mp listed with old | new
  · right
    split at old
    · exact without_default_books old
    · exact ⟨book, old, rfl, rfl⟩
  · left
    rw [List.mem_singleton.mp new]
    exact ⟨rfl, Nat.le_refl _, rfl⟩

theorem update_address_book_tidy (tidy : Tidy server) (principal : PrincipalID) (id : AddressBookID)
    (isDefault : Option Bool) : Tidy (updateAddressBook server principal id isDefault) := by
  unfold updateAddressBook
  cases ownBook server principal id with
  | none => exact tidy
  | some changed =>
    refine tidy.books_changed principal rfl (Nat.le_refl _) rfl ?_
    intro book listed
    right
    obtain ⟨before, member, rfl⟩ := List.mem_map.mp listed
    have kept : (if before.id = id then { before with isDefault := isDefault.getD changed.isDefault }
        else before).id = before.id ∧
        (if before.id = id then { before with isDefault := isDefault.getD changed.isDefault }
          else before).principalID = before.principalID := by
      split_ifs
      · exact ⟨rfl, rfl⟩
      · exact ⟨rfl, rfl⟩
    rw [kept.1, kept.2]
    split at member
    · exact without_default_books member
    · exact ⟨before, member, rfl, rfl⟩

theorem operate_tidy (tidy : Tidy server) (checks : Checks) (principal : PrincipalID)
    (operation : Operation) :
    Tidy (operate server principal checks operation) := by
  unfold operate
  split_ifs with passes
  · cases operation with
    | createContact book => exact create_contact_tidy tidy principal book
    | updateContact id =>
      change Tidy (updateContact server principal id)
      unfold updateContact
      cases ownContact server principal id with
      | none => exact tidy
      | some contact => exact tidy.shrunk (List.Sublist.refl _) (fun _ listed => listed) rfl rfl
    | destroyContact id =>
      change Tidy (destroyContact server principal id)
      unfold destroyContact
      cases ownContact server principal id with
      | none => exact tidy
      | some contact => exact tidy.shrunk List.filter_sublist (fun _ listed => listed) rfl rfl
    | createAddressBook isDefault => exact create_address_book_tidy tidy principal isDefault
    | updateAddressBook id isDefault => exact update_address_book_tidy tidy principal id isDefault
    | destroyAddressBook id =>
      change Tidy (destroyAddressBook server principal id)
      unfold destroyAddressBook
      cases ownBook server principal id with
      | none => exact tidy
      | some book =>
        exact tidy.shrunk List.filter_sublist (fun _ listed => (List.mem_filter.mp listed).1) rfl rfl
  · exact tidy

end Tables

section Counter

variable {client : PrincipalID} {server next : Server}

/-- The counter is the number of contact rows, and the rows tell which contacts there are. -/
structure Synced (client : PrincipalID) (server : Server) : Prop where
  counted : server.contactState client = (contactRows server client).length
  once : OnceOnly (contactRows server client)
  alive : ∀ id, id ∈ existing server client ↔
    Says (contactRows server client) id .created ∧ ¬Says (contactRows server client) id .destroyed
  bounded : ∀ entry ∈ contactRows server client, entry.entityID ≤ server.lastContact

theorem says_single {entry : Entry FeedKind} {id : Nat} {op : ChangeOp} :
    Says [entry] id op ↔ entry.entityID = id ∧ entry.op = op := by
  simp [Says]

theorem once_append {rows : List (Entry FeedKind)} {entry : Entry FeedKind} (once : OnceOnly rows)
    (last : ∀ earlier ∈ rows, earlier.entityID = entry.entityID →
      earlier.op ≠ .destroyed ∧ ¬(earlier.op = .created ∧ entry.op = .created)) : OnceOnly
        (rows ++ [entry]) := by
  refine List.pairwise_append.mpr ⟨once, List.pairwise_singleton _ _, ?_⟩
  intro earlier member later isLast same
  rw [List.mem_singleton.mp isLast] at same ⊢
  exact last earlier member same

theorem Synced.after (synced : Synced client server) (tidy : Tidy server)
    (effect : Effect client server next)
    (growing : server.lastContact ≤ next.lastContact) : Synced client next := by
  have exists_bound : ∀ id ∈ existing server client, id ≤ server.lastContact := by
    intro id member
    obtain ⟨contact, among, _, rfl⟩ := mem_existing.mp member
    exact tidy.bounded contact among
  cases effect with
  | quiet rows state same =>
    refine ⟨?_, ?_, ?_, ?_⟩
    · rw [state, rows]
      exact synced.counted
    · rw [rows]
      exact synced.once
    · rw [rows, same]
      exact synced.alive
    · rw [rows]
      exact fun entry member => (synced.bounded entry member).trans growing
  | created entry rows state op fresh within same =>
    have unused : ∀ op, ¬Says (contactRows server client) entry.entityID op := by
      rintro op ⟨earlier, member, same, _⟩
      have bound := synced.bounded earlier member
      rw [same] at bound
      exact absurd fresh (Nat.not_lt.mpr bound)
    refine ⟨by rw [state, rows, synced.counted]; simp, ?_, ?_, ?_⟩
    · rw [rows]
      refine once_append synced.once fun earlier member about => ?_
      exact absurd ⟨earlier, member, about, rfl⟩ (unused earlier.op)
    · intro id
      rw [same, rows, says_append, says_append, says_single, says_single, op, synced.alive]
      by_cases isNew : id = entry.entityID
      · subst isNew
        simp [unused]
      · simp [isNew, Ne.symm isNew]
    · intro earlier member
      rw [rows] at member
      rcases List.mem_append.mp member with old | new
      · exact (synced.bounded earlier old).trans growing
      · rw [List.mem_singleton.mp new]
        exact within
  | updated entry rows state op known same =>
    have living := (synced.alive entry.entityID).mp known
    refine ⟨by rw [state, rows, synced.counted]; simp, ?_, ?_, ?_⟩
    · rw [rows]
      refine once_append synced.once fun earlier member about => ⟨?_, by rw [op]; simp⟩
      exact fun gone => living.2 ⟨earlier, member, about, gone⟩
    · intro id
      rw [same, rows, says_append, says_append, says_single, says_single, op, synced.alive]
      simp
    · intro earlier member
      rw [rows] at member
      rcases List.mem_append.mp member with old | new
      · exact (synced.bounded earlier old).trans growing
      · rw [List.mem_singleton.mp new]
        exact (exists_bound _ known).trans growing
  | destroyed entry rows state op known same =>
    have living := (synced.alive entry.entityID).mp known
    refine ⟨by rw [state, rows, synced.counted]; simp, ?_, ?_, ?_⟩
    · rw [rows]
      refine once_append synced.once fun earlier member about => ⟨?_, by rw [op]; simp⟩
      exact fun gone => living.2 ⟨earlier, member, about, gone⟩
    · intro id
      rw [same, rows, says_append, says_append, says_single, says_single, op, synced.alive]
      by_cases isGone : id = entry.entityID
      · simp [isGone]
      · simp [isGone, Ne.symm isGone]
    · intro earlier member
      rw [rows] at member
      rcases List.mem_append.mp member with old | new
      · exact (synced.bounded earlier old).trans growing
      · rw [List.mem_singleton.mp new]
        exact (exists_bound _ known).trans growing

end Counter

section Answers

variable {client : PrincipalID} {server : Server} {rows : List (Entry FeedKind)}

/-- What a client at a state holds: the contacts that the rows up to there left. -/
def Holds (rows : List (Entry FeedKind)) (state : Nat) (held : List ContactID) : Prop :=
  ∀ id, id ∈ held ↔ Says (rows.take state) id .created ∧ ¬Says (rows.take state) id .destroyed

theorem pending_contact_rows (since maxChanges : Nat) :
    pending (callByOrdinal client since maxChanges) server.feed =
      (contactRows server client).drop since := rfl

theorem contact_changes_spec (synced : Synced client server) {since : Nat} (maxChanges : Nat)
    (known : since ≤ (contactRows server client).length) :
    ∃ response taken rest, contactChanges server client since maxChanges = some response ∧
      (contactRows server client).drop since = taken ++ rest ∧ response.folded = foldEntries taken {} ∧
      response.newState = since + taken.length ∧ (response.hasMoreChanges = false → rest = []) ∧
      (response.hasMoreChanges = true → taken ≠ []) := by
  unfold contactChanges
  dsimp only
  rw [synced.counted]
  by_cases same : since = (contactRows server client).length
  · rw [if_pos same]
    refine ⟨_, [], [], rfl, ?_, rfl, same.symm, fun _ => rfl, fun more => by cases more⟩
    rw [List.drop_eq_nil_of_le (Nat.le_of_eq same.symm)]
    rfl
  · rw [if_neg same, if_neg (Nat.not_lt.mpr known)]
    obtain ⟨taken, rest, walked⟩ :=
      walk_changes_spec (callByOrdinal client since maxChanges) server.feed
    have split := walked.split
    rw [pending_contact_rows] at split
    refine ⟨_, taken, rest, rfl, split, walked.folded, ?_, walked.ended, fun more =>
      walked.started more rfl⟩
    have lengths := congrArg List.length split
    rw [List.length_drop, List.length_append] at lengths
    dsimp only
    by_cases trimmed : (walkChanges (callByOrdinal client since maxChanges) server.feed).hasMore = true
    · rw [if_pos trimmed]
      have some := walked.started trimmed rfl
      rw [walked.cut _ (List.getLast?_eq_some_getLast some)]
      change 0 + (since - 0) + taken.length = _
      omega
    · rw [if_neg trimmed]
      have ended := walked.ended (by simpa using trimmed)
      rw [ended, List.length_nil] at lengths
      omega

theorem holds_applied (once : OnceOnly rows) {state : Nat} {held : List ContactID}
    (holds : Holds rows state held)
    {taken rest : List (Entry FeedKind)} (split : rows.drop state = taken ++ rest) :
    Holds rows (state + taken.length) (applied held (foldEntries taken {})) := by
  have whole : rows = rows.take state ++ (taken ++ rest) := by rw [← split, List.take_append_drop]
  have front : rows.take (state + taken.length) = rows.take state ++ taken := by
    rw [List.take_add, split, List.take_left]
  rw [whole] at once
  obtain ⟨_, behind, across⟩ := List.pairwise_append.mp once
  have window : OnceOnly taken := (List.pairwise_append.mp behind).1
  intro id
  have unknown : Says taken id .created → id ∉ held := by
    rintro ⟨entry, member, same, made⟩ isHeld
    obtain ⟨⟨earlier, before, about, madeBefore⟩, _⟩ := (holds id).mp isHeld
    have twice := across earlier before entry (List.mem_append_left _ member) (about.trans same.symm)
    exact twice.2 ⟨madeBefore, made⟩
  have finished : Says (rows.take state) id .destroyed → ¬Says taken id .created := by
    rintro ⟨earlier, before, about, gone⟩ ⟨entry, member, same, _⟩
    exact (across earlier before entry (List.mem_append_left _ member) (about.trans same.symm)).1 gone
  rw [applied_window window unknown, holds id, front, says_append, says_append]
  by_cases gone : Says (rows.take state) id .destroyed
  · simp [gone, finished gone]
  · simp [gone]

theorem follows_end (synced : Synced client server) (maxChanges : Nat) {since : Nat}
    {held : List ContactID}
    (known : since ≤ (contactRows server client).length)
    (holds : Holds (contactRows server client) since held) :
    ∃ (responses : List Response) (final : List ContactID) (windows : List (List (Entry FeedKind))),
      Follows client server maxChanges since held responses final ∧
      Holds (contactRows server client) (contactRows server client).length final ∧
      (contactRows server client).drop since = windows.flatten ∧
      responses.map Response.folded = windows.map (foldEntries · {}) := by
  generalize left : (contactRows server client).length - since = size
  induction size using Nat.strong_induction_on generalizing since held with
  | _ size ih =>
    obtain ⟨response, taken, rest, answered, split, folded, moved, ended, started⟩ :=
      contact_changes_spec synced maxChanges known
    have next := holds_applied synced.once holds split
    have lengths := congrArg List.length split
    rw [List.length_drop, List.length_append] at lengths
    rw [← folded] at next
    by_cases trimmed : response.hasMoreChanges = true
    · have taking := List.length_pos_of_ne_nil (started trimmed)
      rw [← moved] at next
      obtain ⟨responses, final, windows, follows, inTheEnd, cut, folds⟩ :=
        ih ((contactRows server client).length - response.newState) (by omega) (by omega) next rfl
      refine ⟨_, final, taken :: windows, Follows.more answered trimmed follows, inTheEnd, ?_, ?_⟩
      · rw [split, List.flatten_cons, ← cut, moved, ← List.drop_drop, split, List.drop_left]
      · rw [List.map_cons, List.map_cons, folds, folded]
    · have complete : response.hasMoreChanges = false := by simpa using trimmed
      have none := ended complete
      rw [none, List.length_nil] at lengths
      refine ⟨_, _, [taken], Follows.last answered complete, ?_, ?_, ?_⟩
      · rw [show (contactRows server client).length = since + taken.length by omega]
        exact next
      · rw [split, none]
        simp
      · rw [List.map_singleton, List.map_singleton, folded]

end Answers

section Runs

variable {client : PrincipalID} {checks : Checks}

theorem append_grows (feed : Feed FeedKind) (principal : PrincipalID) (kind : FeedKind)
    (entityID parentEntityID : Nat) (op : ChangeOp) (cause : ChangeCause) :
    feed.rows <+: (feed.append principal kind entityID parentEntityID op cause).rows :=
  List.prefix_append _ _

theorem append_destroyed_grows (principal : PrincipalID) (book : AddressBookID) (ids : List ContactID)
    (feed : Feed FeedKind) : feed.rows <+: (Server.appendDestroyed principal book ids feed).rows := by
  induction ids generalizing feed with
  | nil => exact List.prefix_rfl
  | cons id ids ih => exact (append_grows feed principal .contact id book .destroyed .user).trans (ih _)

structure Grown (server next : Server) : Prop where
  feed : server.feed.rows <+: next.feed.rows
  lastContact : server.lastContact ≤ next.lastContact

theorem Grown.refl (server : Server) : Grown server server := ⟨List.prefix_rfl, Nat.le_refl _⟩

theorem operate_grows (server : Server) (principal : PrincipalID) (operation : Operation) :
    Grown server (operate server principal checks operation) := by
  unfold operate
  split_ifs
  · cases operation with
    | createContact book =>
      change Grown server (createContact server principal book)
      unfold createContact
      cases targetBook server principal book with
      | none => exact Grown.refl server
      | some target => exact ⟨append_grows _ _ _ _ _ _ _, Nat.le_succ _⟩
    | updateContact id =>
      change Grown server (updateContact server principal id)
      unfold updateContact
      cases ownContact server principal id with
      | none => exact Grown.refl server
      | some contact => exact ⟨append_grows _ _ _ _ _ _ _, Nat.le_refl _⟩
    | destroyContact id =>
      change Grown server (destroyContact server principal id)
      unfold destroyContact
      cases ownContact server principal id with
      | none => exact Grown.refl server
      | some contact => exact ⟨append_grows _ _ _ _ _ _ _, Nat.le_refl _⟩
    | createAddressBook isDefault => exact ⟨append_grows _ _ _ _ _ _ _, Nat.le_refl _⟩
    | updateAddressBook id isDefault =>
      change Grown server (updateAddressBook server principal id isDefault)
      unfold updateAddressBook
      cases ownBook server principal id with
      | none => exact Grown.refl server
      | some book => exact ⟨append_grows _ _ _ _ _ _ _, Nat.le_refl _⟩
    | destroyAddressBook id =>
      change Grown server (destroyAddressBook server principal id)
      unfold destroyAddressBook
      cases ownBook server principal id with
      | none => exact Grown.refl server
      | some book =>
        exact ⟨(append_destroyed_grows _ _ _ _).trans (append_grows _ _ _ _ _ _ _), Nat.le_refl _⟩
  · exact Grown.refl server

/-- A state string the server returned is a number of rows whose outcome the client
holds, and these rows were there when it was returned. -/
structure Valid (client : PrincipalID) (server : Server) (returned : Returned) : Prop where
  holds : Holds (contactRows server client) returned.state returned.held
  seen : returned.seen ≤ server.feed.rows.length
  behind : returned.state ≤
    (ofKind FeedKind.contact ((server.feed.rows.take returned.seen).filter
      (selects client 0 true))).length

theorem contact_rows_split (server : Server) (client : PrincipalID) (seen : Nat) :
    contactRows server client =
      ofKind FeedKind.contact ((server.feed.rows.take seen).filter (selects client 0 true)) ++
        rowsBehind client server seen := by
  unfold contactRows rowsSince entriesAfter rowsBehind ofKind
  rw [← List.filter_append, ← List.filter_append, List.take_append_drop]

theorem Valid.known {server : Server} {returned : Returned} (valid : Valid client server returned) :
    returned.state ≤ (contactRows server client).length := by
  rw [contact_rows_split server client returned.seen, List.length_append]
  exact valid.behind.trans (Nat.le_add_right _ _)

theorem Valid.drop {server : Server} {returned : Returned} (valid : Valid client server returned)
    {entry : Entry FeedKind} (member : entry ∈ rowsBehind client server returned.seen) :
    entry ∈ (contactRows server client).drop returned.state := by
  rw [contact_rows_split server client returned.seen, List.drop_append_of_le_length valid.behind]
  exact List.mem_append_right _ member

theorem Valid.grown {server next : Server} {returned : Returned} (valid : Valid client server returned)
    (grown : Grown server next) : Valid client next returned := by
  obtain ⟨more, extended⟩ := grown.feed
  have front : next.feed.rows.take returned.seen = server.feed.rows.take returned.seen := by
    rw [← extended, List.take_append_of_le_length valid.seen]
  refine ⟨?_, ?_, ?_⟩
  · have rows : contactRows next client = contactRows server client ++
        ofKind FeedKind.contact (more.filter (selects client 0 true)) := by
      unfold contactRows rowsSince entriesAfter ofKind
      rw [← List.filter_append, ← List.filter_append, extended]
    intro id
    rw [rows, List.take_append_of_le_length valid.known]
    exact valid.holds id
  · rw [← extended, List.length_append]
    exact valid.seen.trans (Nat.le_add_right _ _)
  · rw [front]
    exact valid.behind

structure Steady (client : PrincipalID) (system : System) : Prop where
  tidy : Tidy system.server
  synced : Synced client system.server
  valid : ∀ returned ∈ system.returned, Valid client system.server returned

theorem rows_up_to_now (server : Server) (client : PrincipalID) :
    ofKind FeedKind.contact ((server.feed.rows.take server.feed.rows.length).filter
      (selects client 0 true)) =
      contactRows server client := by
  rw [List.take_length]
  rfl

theorem Steady.server_step {system : System} (steady : Steady client system) {next : Server}
    (tidy : Tidy next) (grown : Grown system.server next) (effect : Effect client system.server next) :
    Steady client { system with server := next } := by
  refine ⟨tidy, steady.synced.after steady.tidy effect grown.lastContact, ?_⟩
  exact fun returned member => (steady.valid returned member).grown grown

theorem Steady.returned_step {system : System} (steady : Steady client system) {returned : Returned}
    (valid : Valid client system.server returned) :
    Steady client { system with returned := system.returned ++ [returned] } := by
  refine ⟨steady.tidy, steady.synced, ?_⟩
  intro other member
  rcases List.mem_append.mp member with old | new
  · exact steady.valid other old
  · rw [List.mem_singleton.mp new]
    exact valid

theorem step_keeps_steady {system : System} {event : Event} (steady : Steady client system)
    (single : DestroysSingle checks system event) :
      Steady client (system.step client checks event) := by
  cases event with
  | operate principal operation =>
    refine steady.server_step (operate_tidy steady.tidy checks principal operation)
      (operate_grows system.server principal operation)
        (operate_effect steady.tidy checks principal operation ?_)
    intro id isDestroy passes owned
    subst isDestroy
    exact single passes owned
  | elsewhere principal name entityID parentEntityID op cause =>
    refine steady.server_step ?_ ⟨append_grows _ _ _ _ _ _ _, Nat.le_refl _⟩ ?_
    · exact steady.tidy.shrunk (List.Sublist.refl _) (fun _ listed => listed) rfl rfl
    · exact Effect.quiet
        (rows_append system.server.feed client principal _ _ _ _ _ fun same => by cases same.2) rfl rfl
  | get =>
    refine steady.returned_step ⟨?_, Nat.le_refl _, ?_⟩
    · intro id
      change id ∈ existing system.server client ↔ _
      rw [steady.synced.alive, steady.synced.counted, List.take_length]
    · change system.server.contactState client ≤ (ofKind FeedKind.contact
        ((system.server.feed.rows.take system.server.feed.rows.length).filter
          (selects client 0 true))).length
      rw [rows_up_to_now, steady.synced.counted]
  | changes index maxChanges =>
    simp only [System.step]
    cases asked : system.returned[index]? with
    | none => exact steady
    | some returned =>
      have valid := steady.valid returned (List.mem_of_getElem? asked)
      obtain ⟨response, taken, rest, answered, split, folded, moved, _, _⟩ :=
        contact_changes_spec steady.synced maxChanges valid.known
      simp only [answered]
      refine steady.returned_step ⟨?_, Nat.le_refl _, ?_⟩
      · change Holds _ response.newState (applied returned.held response.folded)
        rw [moved, folded]
        exact holds_applied steady.synced.once valid.holds split
      · change response.newState ≤ (ofKind FeedKind.contact
          ((system.server.feed.rows.take system.server.feed.rows.length).filter
            (selects client 0 true))).length
        have lengths := congrArg List.length split
        have known := valid.known
        rw [List.length_drop, List.length_append] at lengths
        rw [rows_up_to_now, moved]
        omega

theorem Steady.start : Steady client {} := by
  refine ⟨⟨?_, ?_, ?_, ?_, ?_, ?_⟩, ⟨rfl, List.Pairwise.nil, ?_, ?_⟩, ?_⟩
  · intro left listed
    cases listed
  · intro book listed
    cases listed
  · intro contact listed
    cases listed
  · intro contact listed
    cases listed
  · intro contact listed
    cases listed
  · exact List.nodup_nil
  · intro id
    simp [existing, contactRows, rowsSince, entriesAfter, ofKind, Says]
  · intro entry listed
    cases listed
  · intro returned listed
    cases listed

theorem Steady.resumable {system : System} (steady : Steady client system) :
    Resumable client system := by
  intro returned member maxChanges _
  have valid := steady.valid returned member
  obtain ⟨responses, final, windows, follows, inTheEnd, cut, folds⟩ :=
    follows_end steady.synced maxChanges valid.known valid.holds
  refine ⟨responses, final, follows, ?_, ?_⟩
  · intro id
    rw [inTheEnd id, List.take_length, steady.synced.alive]
  · intro entry behind
    have listed := valid.drop behind
    have parts := List.take_append_drop returned.state (contactRows system.server client)
    have told : ∀ window ∈ windows, ∃ response ∈ responses,
      response.folded = foldEntries window {} := by
      intro window among
      have isFold : foldEntries window {} ∈ responses.map Response.folded := by
        rw [folds]
        exact List.mem_map_of_mem among
      exact List.mem_map.mp isFold
    have about : Says windows.flatten entry.entityID entry.op := by
      rw [← cut]
      exact ⟨entry, listed, rfl, rfl⟩
    constructor
    · intro exists_now
      have living := ((steady.synced.alive entry.entityID).mp exists_now).2
      rw [← parts, says_append, not_or, cut] at living
      obtain ⟨window, among, reported⟩ := reported_in_window about living.2
      obtain ⟨response, answered, same⟩ := told window among
      exact ⟨response, answered, by rw [same]; exact reported⟩
    · intro gone held
      obtain ⟨made, notGone⟩ := (valid.holds entry.entityID).mp held
      have destroyed : Says windows.flatten entry.entityID .destroyed := by
        by_contra alive
        refine gone ((steady.synced.alive entry.entityID).mpr ?_)
        rw [← parts, says_append, says_append, cut]
        exact ⟨Or.inl made, not_or.mpr ⟨notGone, alive⟩⟩
      have old : ¬Says windows.flatten entry.entityID .created := by
        rw [← cut]
        rintro ⟨later, among, same, madeAgain⟩
        obtain ⟨earlier, before, alsoSame, madeBefore⟩ := made
        have once := steady.synced.once
        rw [← parts] at once
        have twice := (List.pairwise_append.mp once).2.2 earlier before later among
          (alsoSame.trans same.symm)
        exact twice.2 ⟨madeBefore, madeAgain⟩
      obtain ⟨window, among, reported⟩ := destroyed_in_window destroyed old
      obtain ⟨response, answered, same⟩ := told window among
      exact ⟨response, answered, by rw [same]; exact reported⟩

/-- In every run that destroys only address books with exactly one contact, every state
string stays good. -/
theorem contact_changes_resumable (client : PrincipalID) (checks : Checks) (events : List Event)
    (final : System)
    (single : (machine client checks).Meets (DestroysSingle checks) {} events)
    (ran : (machine client checks).execute {} events = some final) : Resumable client final := by
  refine Steady.resumable ((machine client checks).meets_keeps (DestroysSingle checks)
    (Steady client) ?_
    events {} final Steady.start single ran)
  intro system event next steady allowed stepped
  cases stepped
  exact step_keeps_steady steady allowed

end Runs

def singleContactRun : List Event :=
  [.operate 1 (.createAddressBook false), .operate 1 (.createContact none), .get,
    .operate 1 (.destroyAddressBook 1), .changes 0 1]

theorem single_contact_run_resumable :
    ∃ final, (machine 1 fun _ _ _ => true).execute {} singleContactRun = some final ∧
    Resumable 1 final := by
  refine ⟨_, rfl, contact_changes_resumable 1 (fun _ _ _ => true) singleContactRun _ ?_ rfl⟩
  exact ⟨trivial, trivial, trivial, fun _ _ => rfl, trivial, trivial⟩

def emptyBookRun : List Event :=
  [.operate 1 (.createAddressBook false), .operate 1 (.createAddressBook false),
    .operate 1 (.destroyAddressBook 2), .get, .operate 1 (.createContact none)]

def emptyBookSystem : System :=
  emptyBookRun.foldl (fun system event => system.step 1 (fun _ _ _ => true) event) {}

theorem empty_book_answer : contactChanges emptyBookSystem.server 1 1 1 = some { newState := 2 } := by
  unfold contactChanges ChangeFeed.walkChanges
  rw [walk_pages_eq _ _ _ rfl]
  rfl

/-- The counter is one ahead of the rows, so the client is not told of the new contact. -/
theorem empty_book_hides_contact :
    ∃ final, (machine 1 fun _ _ _ => true).execute {} emptyBookRun = some final ∧
    ¬Resumable 1 final := by
  refine ⟨emptyBookSystem, rfl, ?_⟩
  intro resumable
  obtain ⟨responses, final, follows, holds, _⟩ :=
    resumable { state := 1, held := [], seen := 3 } (List.mem_singleton_self _) 1 (Nat.le_refl 1)
  have held : final = [] := by
    cases follows with
    | last answered complete =>
      cases empty_book_answer.symm.trans answered
      rfl
    | more answered trimmed rest =>
      cases empty_book_answer.symm.trans answered
      cases trimmed
  have missing : (1 : ContactID) ∈ final := (holds 1).mpr (by decide)
  rw [held] at missing
  cases missing

end Herold.ContactSync

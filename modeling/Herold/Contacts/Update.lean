import Herold.Contacts.Card
import Herold.Jmap.Update

/-!
# Contact/set update

The handler merges a patch into the stored card, derives the columns of the row from it
and hands the row to the store, which writes the card but neither the uid nor the address
book. The results say for which contacts and patches an update that reports success is
what a client reads back.
-/

namespace Herold.Contacts

open Herold.Go Herold.Go.Json

structure Contact where
  principalID : Nat
  addressBookID : Nat
  uid : Bytes
  jsContactJSON : Body

structure Store where
  contacts : Nat → Option Contact
  addressBooks : Nat → Option Nat

inductive SetError where
  | notFound
  | notAnObject
  | addressBookIdNotString
  | unknownAddressBookId
  | addressBookNotAccessible
  | tooLarge
  | photoRefused
  | card (error : CardError)
  deriving DecidableEq

inductive Answer where
  | refused (error : SetError)
  | failed
  | updated
  deriving DecidableEq

/-- What the rest of the server answers: the size limit and the photo blobs of a merged
body, and the store's own failures. -/
structure Outside where
  tooLarge : Body → Bool
  photoRefused : Body → Bool
  loadFails : Bool
  storeFails : Bool
  /-- Counting photo references or the state, once the row is written. -/
  countFails : Bool

def addressBookIDFromJMAP (text : Bytes) : Option Nat := (Jmap.parseUint64 text).filter (· ≠ 0)

def jmapIDFromAddressBook (book : Nat) : Bytes := decimal book

/-- A map read from an object: the last member of a name is the one that stays. -/
def lastOf (members : List (Bytes × Value)) : Body := fun key =>
  (members.reverse.find? fun member => member.1 = key).map Prod.snd

def readPatch : Option Value → Option Body
  | none => some fun _ => none
  | some .null => some fun _ => none
  | some (.object members) => some (lastOf members)
  | some _ => none

def unmarshalString : Value → Option Bytes
  | .string text => some text
  | .null => some []
  | _ => none

def patchedBook (store : Store) (pid : Nat) (patch : Body) (contact : Contact) : Except SetError Nat :=
  match patch (ascii "addressBookId") with
  | none => .ok contact.addressBookID
  | some value =>
    match unmarshalString value with
    | none => .error .addressBookIdNotString
    | some text =>
      match addressBookIDFromJMAP text with
      | none => .error .unknownAddressBookId
      | some book =>
        if store.addressBooks book = some pid then .ok book else .error .addressBookNotAccessible

def projectedMembers : List Bytes := [ascii "id", ascii "myRights", ascii "addressBookId"]

def merge (patch stored : Body) : Body := fun key =>
  if projectedMembers.contains key then stored key
  else match patch key with
    | none => stored key
    | some .null => none
    | some value => some value

def orElse (text fallback : Bytes) : Bytes := if text = [] then fallback else text

def mergedCard (contact : Contact) (merged : Body) : Card :=
  let card := unmarshalJSON merged
  { card with version := orElse card.version (ascii "1.0"), uid := orElse card.uid contact.uid }

/-- `UpdateContact` of the store: the card is written, and columns derived from it that
are left out here, while the uid and the address book stay. -/
def Store.updateContact (store : Store) (id : Nat) (contact : Contact) : Option Store :=
  (store.contacts id).map fun row =>
    { store with contacts := fun other =>
        if other = id then some { row with jsContactJSON := contact.jsContactJSON }
        else store.contacts other }

/-- `updateContact` of the handler. -/
def updateContact (outside : Outside) (store : Store) (pid id : Nat) (raw : Option Value) :
    Answer × Store :=
  if outside.loadFails then (.failed, store)
  else match store.contacts id with
    | none => (.refused .notFound, store)
    | some contact =>
      if contact.principalID ≠ pid then (.refused .notFound, store)
      else match readPatch raw with
        | none => (.refused .notAnObject, store)
        | some patch =>
          match patchedBook store pid patch contact with
          | .error error => (.refused error, store)
          | .ok book =>
            let merged := merge patch contact.jsContactJSON
            if outside.tooLarge merged then (.refused .tooLarge, store)
            else if outside.photoRefused merged then (.refused .photoRefused, store)
            else
              let card := mergedCard contact merged
              match validate card with
              | .error error => (.refused (.card error), store)
              | .ok () =>
                if outside.storeFails then (.failed, store)
                else match store.updateContact id
                    { contact with
                        addressBookID := book, uid := card.uid, jsContactJSON := marshalJSON card } with
                  | none => (.refused .notFound, store)
                  | some next => (if outside.countFails then .failed else .updated, next)

def rightsForAddressBookOwner : Value :=
  .object [(ascii "mayRead", .bool true), (ascii "mayWrite", .bool true),
    (ascii "mayAdmin", .bool true),
    (ascii "mayDelete", .bool true)]

def renderContact (id : Nat) (contact : Contact) : Body :=
  let out := put (ascii "id") (.string (decimal id)) contact.jsContactJSON
  let out := put (ascii "addressBookId") (.string (jmapIDFromAddressBook contact.addressBookID)) out
  put (ascii "myRights") rightsForAddressBookOwner out

/-- The filter of `Contact/query` by address book and uid, which reads the columns. -/
def matchContact (pid : Nat) (book : Option Nat) (uid : Option Bytes) (contact : Contact) : Bool :=
  contact.principalID = pid && book.all (contact.addressBookID = ·) && uid.all (contact.uid = ·)

/-- The members whose patch the body does not take over as it stands. -/
def ownMembers : List Bytes := projectedMembers ++ [ascii "uid", ascii "version"]

structure TakesEffect (id : Nat) (patch : Body) (before after : Contact) : Prop where
  replaced : ∀ key ∉ ownMembers, ∀ value, patch key = some value → value ≠ .null →
    Option.Rel Same (after.jsContactJSON key) (some value)
  removed : ∀ key ∉ ownMembers, patch key = some .null → after.jsContactJSON key = none
  unpatched : ∀ key, patch key = none →
    Option.Rel Same (after.jsContactJSON key) (before.jsContactJSON key)
  uid : ∀ text, text ≠ [] → patch (ascii "uid") = some (.string text) →
    after.jsContactJSON (ascii "uid") = some (.string text) ∧ after.uid = text
  moved : ∀ text, patch (ascii "addressBookId") = some (.string text) →
    addressBookIDFromJMAP text = some after.addressBookID
  stays : patch (ascii "addressBookId") = none → after.addressBookID = before.addressBookID
  uidFound : ∀ uid, matchContact before.principalID none (some uid) after = true ↔
    renderContact id after (ascii "uid") = some (.string uid)
  bookFound : ∀ book, matchContact before.principalID (some book) none after = true ↔
    renderContact id after (ascii "addressBookId") = some (.string (jmapIDFromAddressBook book))

/-- The patches that the store and the typed members do no harm to. -/
structure Harmless (patch : Body) (contact : Contact) : Prop where
  book : ∀ text, patch (ascii "addressBookId") = some (.string text) →
    addressBookIDFromJMAP text = some contact.addressBookID
  uid : ∀ text, text ≠ [] →
    merge patch contact.jsContactJSON (ascii "uid") = some (.string text) → text = contact.uid
  uidStored : patch (ascii "uid") = none →
    contact.jsContactJSON (ascii "uid") = some (.string contact.uid)
  versionStored : patch (ascii "version") = none →
    ∃ text ≠ [], contact.jsContactJSON (ascii "version") = some (.string text)
  name : ∀ value, merge patch contact.jsContactJSON (ascii "name") = some value → NameKept value
  maps : ∀ entry ∈ typedMaps, ∀ value,
    merge patch contact.jsContactJSON entry.1 = some value → MapKept entry.2 value

theorem update_contact_done (outside : Outside) (store next : Store) (pid id : Nat) (raw : Option Value)
    (patch : Body) (before : Contact) (found : store.contacts id = some before)
    (read : readPatch raw = some patch)
    (updated : updateContact outside store pid id raw = (.updated, next)) :
    let card := mergedCard before (merge patch before.jsContactJSON)
    outside.photoRefused (merge patch before.jsContactJSON) = false ∧ card.uid ≠ [] ∧
      next = { store with contacts := fun other =>
        if other = id then some { before with jsContactJSON := marshalJSON card }
          else store.contacts other } := by
  intro card
  unfold updateContact at updated
  simp only [found, read] at updated
  split at updated
  · cases updated
  split at updated
  · cases updated
  cases taken : patchedBook store pid patch before with
  | error error => simp [taken] at updated
  | ok book =>
    simp only [taken] at updated
    split at updated
    · cases updated
    split at updated
    · cases updated
    rename_i accepted
    cases valid : validate card with
    | error error =>
      rw [valid] at updated
      cases updated
    | ok done =>
      simp only [card] at valid
      simp only [valid, Store.updateContact, found, Option.map_some] at updated
      have named : card.uid ≠ [] := by
        intro blank
        simp only [card] at blank
        rw [validate, blank] at valid
        split at valid
        · cases valid
        · cases valid
      split at updated
      · cases updated
      · obtain ⟨-, rfl⟩ := Prod.mk.inj updated
        exact ⟨by simpa using accepted, named, rfl⟩

theorem update_contact_row (outside : Outside) (store next : Store) (pid id : Nat) (raw : Option Value)
    (patch : Body) (before : Contact) (found : store.contacts id = some before)
    (read : readPatch raw = some patch)
    (updated : updateContact outside store pid id raw = (.updated, next)) :
    let card := mergedCard before (merge patch before.jsContactJSON)
    next.contacts id = some { before with jsContactJSON := marshalJSON card } ∧ card.uid ≠ [] := by
  obtain ⟨-, named, rfl⟩ :=
    update_contact_done outside store next pid id raw patch before found read updated
  exact ⟨if_pos rfl, named⟩

theorem merge_patched (patch stored : Body) (key : Bytes) (own : key ∉ projectedMembers) (value : Value)
    (given : patch key = some value) (filled : value ≠ .null) :
      merge patch stored key = some value := by
  rw [merge, if_neg fun inside => own (List.contains_iff_mem.mp inside), given]
  cases value with
  | null => exact absurd rfl filled
  | _ => rfl

theorem merge_removed (patch stored : Body) (key : Bytes) (own : key ∉ projectedMembers)
    (given : patch key = some .null) : merge patch stored key = none := by
  rw [merge, if_neg fun inside => own (List.contains_iff_mem.mp inside), given]

theorem merge_unpatched (patch stored : Body) (key : Bytes) (given : patch key = none) :
    merge patch stored key = stored key := by
  rw [merge, given]
  split
  · rfl
  · rfl

theorem option_same_refl (value : Option Value) : Option.Rel Same value value := by
  cases value with
  | none => exact .none
  | some value => exact .some (.refl value)

theorem rel_none {value : Option Value} : Option.Rel Same value none ↔ value = none := by
  constructor
  · intro same
    cases same
    rfl
  · rintro rfl
    exact .none

theorem completed_same_iff (raw : Body) (version uid : Bytes) :
    (∀ key ∉ ownMembers, Option.Rel Same (marshalJSON (completed raw version uid) key) (raw key)) ↔
      (∀ value, raw (ascii "name") = some value → NameKept value) ∧
        ∀ entry ∈ typedMaps, ∀ value, raw entry.1 = some value → MapKept entry.2 value := by
  constructor
  · intro same
    constructor
    · intro value held
      have kept := same (ascii "name") (by decide)
      rw [completed_name, held] at kept
      exact (name_kept_iff value).mp kept
    · intro entry typed value held
      have foreign : ∀ entry ∈ typedMaps, entry.1 ∉ ownMembers := by decide
      have kept := same entry.1 (foreign entry typed)
      rw [completed_map raw version uid entry.1 entry.2 typed, held] at kept
      exact (map_kept_iff entry.2 (proper_map entry typed) value).mp kept
  · rintro ⟨names, maps⟩ key foreign
    simp only [ownMembers, List.mem_append, List.mem_cons, List.not_mem_nil, or_false,
      not_or] at foreign
    by_cases isName : key = ascii "name"
    · subst isName
      rw [completed_name]
      cases held : raw (ascii "name") with
      | none => exact .none
      | some value => exact (name_kept_iff value).mpr (names value held)
    by_cases typed : key ∈ typedMaps.map Prod.fst
    · obtain ⟨entry, isEntry, rfl⟩ := List.mem_map.mp typed
      rw [completed_map raw version uid entry.1 entry.2 isEntry]
      cases held : raw entry.1 with
      | none => exact .none
      | some value =>
        exact (map_kept_iff entry.2 (proper_map entry isEntry) value).mpr
          (maps entry isEntry value held)
    · rw [completed_other raw version uid key foreign.2.2 foreign.2.1 isName typed]
      exact option_same_refl _

theorem members_settled_iff (patch stored after : Body) :
    ((∀ key ∉ ownMembers, ∀ value, patch key = some value → value ≠ .null →
        Option.Rel Same (after key) (some value)) ∧
      (∀ key ∉ ownMembers, patch key = some .null → after key = none) ∧
        ∀ key ∉ ownMembers, patch key = none → Option.Rel Same (after key) (stored key)) ↔
      ∀ key ∉ ownMembers, Option.Rel Same (after key) (merge patch stored key) := by
  have own (key : Bytes) (foreign : key ∉ ownMembers) : key ∉ projectedMembers := fun inside =>
    foreign (List.mem_append_left _ inside)
  constructor
  · rintro ⟨replaced, removed, unpatched⟩ key foreign
    cases given : patch key with
    | none =>
      rw [merge_unpatched patch stored key given]
      exact unpatched key foreign given
    | some value =>
      by_cases isNull : value = .null
      · subst isNull
        rw [merge_removed patch stored key (own key foreign) given]
        exact rel_none.mpr (removed key foreign given)
      · rw [merge_patched patch stored key (own key foreign) value given isNull]
        exact replaced key foreign value given isNull
  · intro settled
    refine ⟨?_, ?_, ?_⟩
    · intro key foreign value given filled
      rw [← merge_patched patch stored key (own key foreign) value given filled]
      exact settled key foreign
    · intro key foreign given
      have gone := settled key foreign
      rw [merge_removed patch stored key (own key foreign) given] at gone
      exact rel_none.mp gone
    · intro key foreign given
      rw [← merge_unpatched patch stored key given]
      exact settled key foreign

theorem same_string {text : Bytes} {held : Option Value} :
    Option.Rel Same (some (.string text)) held ↔ held = some (.string text) := by
  constructor
  · intro same
    cases same with
    | some same =>
      cases same
      rfl
  · rintro rfl
    exact .some (.refl _)

theorem projected_kept (contact : Contact) (merged : Body) {key : Bytes}
    (own : key ∈ projectedMembers) :
    marshalJSON (mergedCard contact merged) key = merged key := by
  have apart : ∀ key ∈ projectedMembers, key ≠ ascii "version" ∧ key ≠ ascii "uid" ∧
      key ≠ ascii "name" ∧ key ∉ typedMaps.map Prod.fst := by decide
  obtain ⟨notVersion, notUid, notName, untyped⟩ := apart key own
  exact completed_other _ _ _ key notVersion notUid notName untyped

/-- A card that is written has a version, which is the stored one where the stored one is a text. -/
theorem card_version_eq_iff (contact : Contact) (merged : Body) :
    Option.Rel Same (marshalJSON (mergedCard contact merged) (ascii "version"))
      (merged (ascii "version")) ↔
      ∃ text ≠ [], merged (ascii "version") = some (.string text) := by
  have filled : (mergedCard contact merged).version ≠ [] := by
    show orElse (projectString merged (ascii "version")) (ascii "1.0") ≠ []
    rw [orElse]
    split
    · decide
    · assumption
  have shown : marshalJSON (mergedCard contact merged) (ascii "version") =
      some (.string (mergedCard contact merged).version) := completed_version _ _ _ filled
  rw [shown, same_string]
  constructor
  · intro held
    exact ⟨_, filled, held⟩
  · rintro ⟨text, nonempty, held⟩
    have isText : (mergedCard contact merged).version = text := by
      show orElse (projectString merged (ascii "version")) (ascii "1.0") = text
      rw [projectString, held, orElse, if_neg nonempty]
    rw [isText, held]

/-- The uid that the card shows is the one of the column, unless the merged body names another. -/
theorem card_uid_eq_iff (contact : Contact) (merged : Body) :
    (mergedCard contact merged).uid = contact.uid ↔
      ∀ text, text ≠ [] → merged (ascii "uid") = some (.string text) → text = contact.uid := by
  have shown : (mergedCard contact merged).uid =
      orElse (projectString merged (ascii "uid")) contact.uid := rfl
  rw [shown, orElse]
  constructor
  · intro same text filled held
    have projected : projectString merged (ascii "uid") = text := by rw [projectString, held]
    rw [projected, if_neg filled] at same
    exact same
  · intro kept
    split
    · rfl
    · rename_i filled
      unfold projectString at filled ⊢
      split at filled
      · rename_i text held
        exact kept text filled held
      · exact absurd rfl filled

theorem rendered_uid (id : Nat) (contact : Contact) :
    renderContact id contact (ascii "uid") = contact.jsContactJSON (ascii "uid") := rfl

theorem rendered_book (id : Nat) (contact : Contact) :
    renderContact id contact (ascii "addressBookId") =
      some (.string (jmapIDFromAddressBook contact.addressBookID)) := rfl

/-- An update that reports success is read back as it was asked for exactly when it keeps
the address book and the uid of the row and the typed members of the merged card are
spelled as their types write them. -/
theorem update_takes_effect_iff (outside : Outside) (store next : Store) (pid id : Nat)
    (raw : Option Value) (patch : Body) (before : Contact) (found : store.contacts id = some before)
    (read : readPatch raw = some patch)
    (updated : updateContact outside store pid id raw = (.updated, next)) :
    ∃ after, next.contacts id = some after ∧
    (TakesEffect id patch before after ↔ Harmless patch before) := by
  obtain ⟨row, named⟩ := update_contact_row outside store next pid id raw patch before found
    read updated
  refine ⟨_, row, ?_⟩
  set merged := merge patch before.jsContactJSON with isMerged
  have shown : marshalJSON (mergedCard before merged) (ascii "uid") =
      some (.string (mergedCard before merged).uid) := completed_uid _ _ _ named
  have kept := completed_same_iff merged (mergedCard before merged).version
    (mergedCard before merged).uid
  have settled := members_settled_iff patch before.jsContactJSON
    (marshalJSON (mergedCard before merged))
  constructor
  · intro effect
    obtain ⟨names, maps⟩ := kept.mp (settled.mp
      ⟨effect.replaced, effect.removed, fun key _ => effect.unpatched key⟩)
    have asked := (effect.uidFound (mergedCard before merged).uid).mpr shown
    have same : before.uid = (mergedCard before merged).uid := by simpa [matchContact] using asked
    refine ⟨effect.moved, (card_uid_eq_iff before merged).mp same.symm, fun bare => ?_, fun bare => ?_,
      names, maps⟩
    · have unchanged : Option.Rel Same (marshalJSON (mergedCard before merged) (ascii "uid"))
          (before.jsContactJSON (ascii "uid")) := effect.unpatched (ascii "uid") bare
      rw [shown, ← same] at unchanged
      exact same_string.mp unchanged
    · have unchanged : Option.Rel Same (marshalJSON (mergedCard before merged) (ascii "version"))
          (before.jsContactJSON (ascii "version")) := effect.unpatched (ascii "version") bare
      rw [← merge_unpatched patch before.jsContactJSON _ bare] at unchanged ⊢
      exact (card_version_eq_iff before merged).mp unchanged
  · intro harmless
    obtain ⟨replaced, removed, unpatched⟩ := settled.mpr (kept.mpr ⟨harmless.name, harmless.maps⟩)
    have same := (card_uid_eq_iff before merged).mpr harmless.uid
    rw [same] at shown
    refine ⟨replaced, removed, ?_, ?_, harmless.book, fun _ => rfl, ?_, ?_⟩
    · intro key bare
      show Option.Rel Same (marshalJSON (mergedCard before merged) key) (before.jsContactJSON key)
      by_cases own : key ∈ projectedMembers
      · rw [projected_kept before merged own, isMerged, merge_unpatched _ _ _ bare]
        exact option_same_refl _
      by_cases isUid : key = ascii "uid"
      · subst isUid
        rw [shown, harmless.uidStored bare]
        exact .some (.refl _)
      by_cases isVersion : key = ascii "version"
      · subst isVersion
        have stored := harmless.versionStored bare
        rw [← merge_unpatched patch before.jsContactJSON _ bare] at stored ⊢
        exact (card_version_eq_iff before merged).mpr stored
      · exact unpatched key (by simp [ownMembers, own, isUid, isVersion]) bare
    · intro text filled given
      have held : merged (ascii "uid") = some (.string text) :=
        merge_patched patch before.jsContactJSON (ascii "uid") (by decide) _ given (by simp)
      rw [harmless.uid text filled held]
      exact ⟨shown, rfl⟩
    · intro uid
      rw [rendered_uid]
      simp [matchContact, shown]
    · intro book
      rw [rendered_book]
      simp [matchContact, jmapIDFromAddressBook, decimal_injective.eq_iff]

def quietServer : Outside := ⟨fun _ => false, fun _ => false, false, false, false⟩

def annCard : Contact where
  principalID := 1
  addressBookID := 1
  uid := ascii "urn:ann"
  jsContactJSON := lastOf [(ascii "version", .string (ascii "1.0")),
    (ascii "uid", .string (ascii "urn:ann")),
    (ascii "name", .object [(ascii "full", .string (ascii "Ann"))])]

def twoBooks : Store where
  contacts := fun id => if id = 7 then some annCard else none
  addressBooks := fun book => if book = 1 ∨ book = 2 then some 1 else none

def annRenamed : Value := .object [(ascii "full", .string (ascii "Ann Lee"))]

def renamePatch : List (Bytes × Value) := [(ascii "name", annRenamed), (ascii "notes", .null)]

theorem rename_harmless : Harmless (lastOf renamePatch) annCard where
  book := by
    intro text given
    exact absurd given (by simp [lastOf, renamePatch, ascii])
  uid := by
    intro text _ held
    have stored : merge (lastOf renamePatch) annCard.jsContactJSON (ascii "uid") =
        some (.string (ascii "urn:ann")) := rfl
    rw [stored] at held
    exact (Value.string.inj (Option.some.inj held)).symm
  uidStored := fun _ => rfl
  versionStored := fun _ => ⟨ascii "1.0", by decide, rfl⟩
  name := by
    intro value held
    have stored : merge (lastOf renamePatch) annCard.jsContactJSON (ascii "name") =
      some annRenamed := rfl
    rw [stored] at held
    obtain rfl := Option.some.inj held
    have same : Same (rewrite cardName annRenamed) annRenamed := .refl annRenamed
    exact .inr (.inr ((rewrite_same_iff annRenamed cardName proper_name).mp same))
  maps := by
    intro entry typed value held
    simp only [typedMaps, List.mem_cons, List.not_mem_nil, or_false] at typed
    rcases typed with rfl | rfl | rfl | rfl | rfl
    all_goals cases held

theorem update_takes_effect_at_rename :
    ∃ after, (updateContact quietServer twoBooks 1 7 (some (.object renamePatch))).2.contacts 7 =
      some after ∧
      TakesEffect 7 (lastOf renamePatch) annCard after := by
  obtain ⟨after, row, exactly⟩ := update_takes_effect_iff quietServer twoBooks
    (updateContact quietServer twoBooks 1 7 (some (.object renamePatch))).2 1 7
      (some (.object renamePatch))
    (lastOf renamePatch) annCard rfl rfl rfl
  exact ⟨after, row, exactly.mpr rename_harmless⟩

/-- A move to the second address book is reported as done, and the card stays in the first. -/
theorem move_has_no_effect :
    (updateContact quietServer twoBooks 1 7
        (some (.object [(ascii "addressBookId", .string (ascii "2"))]))).1 = .updated ∧
      ¬∃ after, (updateContact quietServer twoBooks 1 7
          (some (.object [(ascii "addressBookId", .string (ascii "2"))]))).2.contacts 7 = some after ∧
        TakesEffect 7 (lastOf [(ascii "addressBookId", .string (ascii "2"))]) annCard after := by
  refine ⟨rfl, ?_⟩
  rintro ⟨after, row, effect⟩
  have asked := effect.moved (ascii "2") rfl
  have left : after.addressBookID = 1 := by
    have book := congrArg (Option.map Contact.addressBookID) row
    exact (Option.some.inj book).symm
  rw [left] at asked
  exact absurd asked (by decide)

end Herold.Contacts

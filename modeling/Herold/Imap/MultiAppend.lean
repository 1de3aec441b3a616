import Herold.Imap.UidExpunge

/-!
# APPEND with several messages

`applyMultiAppend` inserts its items one by one and rolls back with the list of
what it has inserted when one of them fails. The list is made empty and nothing is
ever added to it, so the rollback has no message to remove.
-/

namespace Herold.Imap

open Herold.Go Herold.Store

inductive AppendStage where
  | missingSpill
  | stat
  | seek
  | read
  | rewind
  | blobPut
  deriving DecidableEq

def AppendStage.text : AppendStage → String
  | missingSpill => "internal error: missing spill"
  | stat | seek | read | rewind | blobPut => "blob write failed"

/-- One message of the command: the blob its literal is stored as, the flag names it
came with, and what fails while it is handled. -/
structure AppendItem where
  blobHash : Bytes
  names : List Bytes := []
  stage : Option AppendStage := none
  insert : Option MailError := none
  deriving DecidableEq

/-- `rollbackMultiAppend`; an error of the store is logged and dropped. -/
def rollbackMultiAppend (fails : Bool) (store : MailStore) (mailbox : MailboxID)
    (ids : List MessageID) : MailStore :=
  if ids = [] ∨ fails then store
  else
    match store.expungeMessages mailbox ids with
    | .ok after => after
    | .error _ => store

def insertItem (pid : PrincipalID) (mailbox : MailboxID) (item : AppendItem) (store : MailStore) :
    Except MailError (Nat × MailStore) :=
  let flags := flagMaskFromNames item.names
  let keywords := withoutSnoozedKeyword (keywordsFromNames item.names)
  match item.insert with
  | some cause => .error cause
  | none => store.insertMessage pid flags keywords item.blobHash
      [{ mailboxID := mailbox, flags := flags, keywords := keywords }]

/-- The loop of `applyMultiAppend`, with the identifiers to roll back and the UIDs
given out so far. -/
def applyMultiAppend (rollbackFails : Bool) (pid : PrincipalID) (mailbox : Mailbox) :
    List AppendItem → List MessageID → List Nat → MailStore → MailStore × Response
  | [], _, uids, store =>
    (store, .taggedOK (.appendUID mailbox.uidValidity uids) "APPEND completed")
  | item :: items, inserted, uids, store =>
    match item.stage with
    | some stage =>
      (rollbackMultiAppend rollbackFails store mailbox.id inserted, .taggedNO .none stage.text)
    | none =>
      match insertItem pid mailbox.id item store with
      | .error cause =>
        (rollbackMultiAppend rollbackFails store mailbox.id inserted,
          if cause = .quotaExceeded then .taggedNO .overQuota "quota exceeded"
          else .taggedNO .none "append failed")
      | .ok (uid, store) =>
        applyMultiAppend rollbackFails pid mailbox items inserted (uids ++ [uid]) store

def Response.isNO : Response → Bool
  | .taggedNO _ _ => true
  | _ => false

def ItemFails (pid : PrincipalID) (mailbox : MailboxID) (store : MailStore)
    (item : AppendItem) : Prop :=
  item.stage ≠ none ∨ ∃ cause, insertItem pid mailbox item store = .error cause

theorem rollback_of_nothing (fails : Bool) (store : MailStore) (mailbox : MailboxID) :
    rollbackMultiAppend fails store mailbox [] = store := by
  simp [rollbackMultiAppend]

theorem insert_item_grown (pid : PrincipalID) (mailbox : MailboxID) (item : AppendItem)
    (store after : MailStore) (uid : Nat)
    (ok : insertItem pid mailbox item store = .ok (uid, after)) :
    MailStore.Grown mailbox store after := by
  unfold insertItem at ok
  cases fault : item.insert with
  | some cause => simp [fault] at ok
  | none =>
    simp only [fault] at ok
    exact MailStore.insert_message_grown store after pid _ _ _ _ uid ok

theorem insert_item_files (pid : PrincipalID) (mailbox : MailboxID) (item : AppendItem)
    (store after : MailStore) (uid : Nat)
    (ok : insertItem pid mailbox item store = .ok (uid, after)) :
    store.nextMessageID < after.nextMessageID ∧
      (after.member? store.nextMessageID mailbox).isSome := by
  unfold insertItem at ok
  cases fault : item.insert with
  | some cause => simp [fault] at ok
  | none =>
    simp only [fault] at ok
    have filed := MailStore.insert_message_filed store after pid _ _ _ _ uid ok
    refine ⟨?_, ?_⟩
    · rw [filed.nextMessageID]
      exact Nat.lt_succ_self _
    · unfold MailStore.insertMessage at ok
      simp only [bind, Except.bind] at ok
      split at ok
      · simp at ok
      · split at ok
        case h_1 found =>
          simp only [Except.ok.injEq, Prod.mk.injEq] at ok
          rw [← ok.2, found]
          rfl
        case h_2 => simp at ok

theorem multi_append_grown (rollbackFails : Bool) (pid : PrincipalID) (mailbox : Mailbox)
    (items : List AppendItem) (uids : List Nat) (store : MailStore) :
    MailStore.Grown mailbox.id store
      (applyMultiAppend rollbackFails pid mailbox items [] uids store).1 := by
  induction items generalizing uids store with
  | nil => exact MailStore.grown_refl mailbox.id store
  | cons item items ih =>
    unfold applyMultiAppend
    cases item.stage with
    | some stage =>
      simp only [rollback_of_nothing]
      exact MailStore.grown_refl mailbox.id store
    | none =>
      cases inserting : insertItem pid mailbox.id item store with
      | error cause =>
        simp only [rollback_of_nothing]
        exact MailStore.grown_refl mailbox.id store
      | ok pair =>
        obtain ⟨uid, next⟩ := pair
        exact MailStore.grown_trans mailbox.id store next _
          (insert_item_grown pid mailbox.id item store next uid inserting) (ih _ next)

theorem rows_keep_members (store after : MailStore) (mailbox : MailboxID)
    (same : after.rows mailbox = store.rows mailbox) (message : MessageID) (row : MessageMailbox)
    (found : after.member? message mailbox = some row) : row ∈ store.members := by
  obtain ⟨member, _, place⟩ := (MailStore.member_some_iff after message mailbox row).mp found
  have listed : row ∈ after.rows mailbox := List.mem_filter.mpr ⟨member, by simpa using place⟩
  rw [same] at listed
  exact (List.mem_filter.mp listed).1

/-- An `APPEND` leaves the mailbox as it was exactly when its first message already fails,
however many follow and whether it is refused or not. -/
theorem multi_append_undone_iff (pid : PrincipalID) (mailbox : Mailbox) (first : AppendItem)
    (items : List AppendItem) (store : MailStore) :
    (applyMultiAppend false pid mailbox (first :: items) [] [] store).1.rows mailbox.id =
        store.rows mailbox.id ↔
      ItemFails pid mailbox.id store first := by
  unfold applyMultiAppend
  cases stage : first.stage with
  | some failed =>
    simp only [rollback_of_nothing, true_iff]
    exact Or.inl (by simp [stage])
  | none =>
    cases inserting : insertItem pid mailbox.id first store with
    | error cause =>
      simp only [rollback_of_nothing, true_iff]
      exact Or.inr ⟨cause, inserting⟩
    | ok pair =>
      obtain ⟨uid, next⟩ := pair
      have stays : ¬ItemFails pid mailbox.id store first := by
        rintro (early | ⟨cause, late⟩)
        · exact early stage
        · rw [inserting] at late
          simp at late
      simp only [stays, iff_false]
      intro same
      -- the first message is still there at the end and was not there before
      obtain ⟨issued, filed⟩ := insert_item_files pid mailbox.id first store next uid inserting
      obtain ⟨row, found⟩ := Option.isSome_iff_exists.mp filed
      have grown := multi_append_grown false pid mailbox items ([] ++ [uid]) next
      have still := (grown.known store.nextMessageID mailbox.id issued).trans found
      have before := rows_keep_members store _ mailbox.id same _ row still
      have number := ((MailStore.member_some_iff next _ mailbox.id row).mp found).2.1
      exact absurd (store.messagesIssued row before) (by rw [number]; exact Nat.lt_irrefl _)

def appendBox : Mailbox := { id := 1, principalID := 7, name := ascii "INBOX", uidNext := 3 }

theorem refused_first_item_undone :
    (applyMultiAppend false 7 appendBox
        [{ blobHash := [1], stage := some .blobPut }, { blobHash := [2] }] [] [] twoMessages).1.rows 1 =
      twoMessages.rows 1 :=
  (multi_append_undone_iff 7 appendBox { blobHash := [1], stage := some .blobPut }
    [{ blobHash := [2] }] twoMessages).mpr (Or.inl (by decide))

/-- The second message is over quota, the command is refused, and the first stays. -/
theorem refused_second_item_leaves_first :
    let outcome := applyMultiAppend false 7 appendBox
      [{ blobHash := [1] }, { blobHash := [2], insert := some .quotaExceeded }] [] [] twoMessages
    outcome.2 = .taggedNO .overQuota "quota exceeded" ∧ outcome.1.rows 1 ≠ twoMessages.rows 1 ∧
      (outcome.1.rows 1).length = 3 := by
  decide +kernel

end Herold.Imap

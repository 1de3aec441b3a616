import Herold.Store.Queue
import Mathlib.Data.List.Dedup

/-!
# Mailboxes and the messages filed in them

A message may be filed in several mailboxes; each `message_mailboxes` row holds
the UID, flags and keywords the message has there. UIDs are handed out in
ascending order by the mailbox and message identifiers by an `AUTOINCREMENT`
column, so neither is ever given out twice. The table below keeps the order of
insertion, which within one mailbox is the order of the UIDs.

Columns of `messages` other than the blob hash, the quota accounting and the
blob references play no part in what a mailbox holds.
-/

namespace Herold.Store

open Herold.Go

abbrev PrincipalID := Nat

abbrev MailboxID := Nat

abbrev MessageID := Nat

abbrev MessageFlags := BitVec 16

namespace MessageFlags

def seen : MessageFlags := 1#16
def answered : MessageFlags := 2#16
def flagged : MessageFlags := 4#16
def deleted : MessageFlags := 8#16
def draft : MessageFlags := 16#16
def recent : MessageFlags := 32#16

end MessageFlags

abbrev ACLRights := BitVec 16

namespace ACLRights

def lookup : ACLRights := 1#16
def read : ACLRights := 2#16
def seen : ACLRights := 4#16
def write : ACLRights := 8#16
def insert : ACLRights := 16#16
def post : ACLRights := 32#16
def createMailbox : ACLRights := 64#16
def deleteMailbox : ACLRights := 128#16
def deleteMessage : ACLRights := 256#16
def expunge : ACLRights := 512#16
def admin : ACLRights := 1024#16
def all : ACLRights := 2047#16

end ACLRights

theorem and_one_bit_ne_zero (value : BitVec 16) (position : Nat) (inside : position < 16) :
    value &&& BitVec.twoPow 16 position ≠ 0 ↔ value.getLsbD position = true := by
  rw [BitVec.and_twoPow]
  by_cases has : value.getLsbD position = true
  · simp only [has, if_true, iff_true]
    intro zero
    have bit := congrArg (fun mask => mask.getLsbD position) zero
    simp [inside] at bit
  · simp [has]

structure Mailbox where
  id : MailboxID
  principalID : PrincipalID
  name : Bytes
  trash : Bool := false
  uidValidity : Nat := 1
  uidNext : Nat := 1
  highestModSeq : Nat := 0
  deriving DecidableEq

/-- One `message_mailboxes` row, with the blob hash of its message. -/
structure MessageMailbox where
  messageID : MessageID
  mailboxID : MailboxID
  uid : Nat
  modSeq : Nat := 0
  flags : MessageFlags := 0
  keywordsCSV : Bytes := []
  snoozedUntil : Option Micros := none
  wakeMailboxID : Option MailboxID := none
  blobHash : Bytes := []
  deriving DecidableEq

def splitKeywords (csv : Bytes) : List Bytes :=
  if csv = [] then [] else splitByte 44 csv

/-- `strings.Join(keywords, ",")`. -/
def joinKeywords (keywords : List Bytes) : Bytes := List.intercalate [44] keywords

def MessageMailbox.keywords (row : MessageMailbox) : List Bytes := splitKeywords row.keywordsCSV

def snoozedKeyword : Bytes := ascii "$snoozed"

inductive ChangeOp where
  | created
  | updated
  | destroyed
  deriving DecidableEq

inductive EntityKind where
  | email
  | mailbox
  | other
  deriving DecidableEq

/-- A `state_changes` row. -/
structure StateChange where
  seq : Nat
  principalID : PrincipalID
  kind : EntityKind := .email
  entityID : MessageID
  parentEntityID : MailboxID
  op : ChangeOp
  deriving DecidableEq

/-- A `grants` row on a mailbox; no subject stands for `anyone`. -/
structure Grant where
  mailboxID : MailboxID
  subject : Option PrincipalID
  level : Bytes
  deriving DecidableEq

structure MailStore where
  mailboxes : List Mailbox
  members : List MessageMailbox
  changes : List StateChange := []
  grants : List Grant := []
  superadmins : List PrincipalID := []
  nextMessageID : MessageID
  mailboxesDistinct : mailboxes.Pairwise fun left right => left.id ≠ right.id
  membersDistinct : members.Pairwise fun left right =>
    left.messageID = right.messageID → left.mailboxID ≠ right.mailboxID
  uidsAscend : members.Pairwise fun left right =>
    left.mailboxID = right.mailboxID → left.uid < right.uid
  uidsIssued : ∀ row ∈ members, ∀ mailbox ∈ mailboxes,
    mailbox.id = row.mailboxID → row.uid < mailbox.uidNext
  uidsPositive : ∀ row ∈ members, 0 < row.uid
  countersPositive : ∀ mailbox ∈ mailboxes, 0 < mailbox.uidNext
  messagesIssued : ∀ row ∈ members, row.messageID < nextMessageID

inductive MailError where
  | notFound
  | conflict
  | quotaExceeded
  | failed
  deriving DecidableEq

/-- The assignments of an `UPDATE message_mailboxes` statement. -/
structure MemberUpdate where
  apply : MessageMailbox → MessageMailbox
  keepsMessage : ∀ row, (apply row).messageID = row.messageID := by intro _; rfl
  keepsMailbox : ∀ row, (apply row).mailboxID = row.mailboxID := by intro _; rfl
  keepsUID : ∀ row, (apply row).uid = row.uid := by intro _; rfl

namespace MailStore

/-- `SELECT … FROM message_mailboxes WHERE message_id = ? AND mailbox_id = ?`. -/
def member? (store : MailStore) (message : MessageID) (mailbox : MailboxID) :
    Option MessageMailbox :=
  store.members.find? fun row => row.messageID = message ∧ row.mailboxID = mailbox

def mailboxByID (store : MailStore) (id : MailboxID) : Option Mailbox :=
  store.mailboxes.find? fun mailbox => mailbox.id = id

def mailboxByName (store : MailStore) (owner : PrincipalID) (name : Bytes) : Option Mailbox :=
  store.mailboxes.find? fun mailbox => mailbox.principalID = owner ∧ mailbox.name = name

def rows (store : MailStore) (mailbox : MailboxID) : List MessageMailbox :=
  store.members.filter fun row => row.mailboxID = mailbox

/-- `ListMessages` with its `AfterUID` and `Limit`. -/
def listMessages (store : MailStore) (mailbox : MailboxID) (afterUID : Nat) (limit : Nat) :
    List MessageMailbox :=
  ((store.rows mailbox).filter fun row => afterUID < row.uid).take limit

def updateRow (change : MemberUpdate) (message : MessageID) (mailbox : MailboxID)
    (row : MessageMailbox) : MessageMailbox :=
  if row.messageID = message ∧ row.mailboxID = mailbox then change.apply row else row

section

variable (id : MailboxID) (change : MemberUpdate) (message : MessageID)

theorem update_row_message (mailbox : MailboxID)
    (row : MessageMailbox) : (updateRow change message mailbox row).messageID = row.messageID := by
  unfold updateRow
  split
  · exact change.keepsMessage row
  · rfl

theorem update_row_mailbox (mailbox : MailboxID)
    (row : MessageMailbox) : (updateRow change message mailbox row).mailboxID = row.mailboxID := by
  unfold updateRow
  split
  · exact change.keepsMailbox row
  · rfl

theorem update_row_uid (mailbox : MailboxID)
    (row : MessageMailbox) : (updateRow change message mailbox row).uid = row.uid := by
  unfold updateRow
  split
  · exact change.keepsUID row
  · rfl

/-- `UPDATE message_mailboxes SET change WHERE message_id = ? AND mailbox_id = ?`. -/
def updateMember (store : MailStore) (change : MemberUpdate) (message : MessageID)
    (mailbox : MailboxID) : MailStore where
  mailboxes := store.mailboxes
  members := store.members.map (updateRow change message mailbox)
  changes := store.changes
  grants := store.grants
  superadmins := store.superadmins
  nextMessageID := store.nextMessageID
  mailboxesDistinct := store.mailboxesDistinct
  membersDistinct := by
    rw [List.pairwise_map]
    refine store.membersDistinct.imp ?_
    intro left right differ
    rwa [update_row_message, update_row_message, update_row_mailbox, update_row_mailbox]
  uidsAscend := by
    rw [List.pairwise_map]
    refine store.uidsAscend.imp ?_
    intro left right ascend
    rwa [update_row_mailbox, update_row_mailbox, update_row_uid, update_row_uid]
  uidsIssued := by
    intro row member
    obtain ⟨old, oldMember, rfl⟩ := List.mem_map.mp member
    rw [update_row_mailbox, update_row_uid]
    exact store.uidsIssued old oldMember
  uidsPositive := by
    intro row member
    obtain ⟨old, oldMember, rfl⟩ := List.mem_map.mp member
    rw [update_row_uid]
    exact store.uidsPositive old oldMember
  countersPositive := store.countersPositive
  messagesIssued := by
    intro row member
    obtain ⟨old, oldMember, rfl⟩ := List.mem_map.mp member
    rw [update_row_message]
    exact store.messagesIssued old oldMember

/-- `DELETE FROM message_mailboxes WHERE gone`. -/
def removeMembers (store : MailStore) (gone : MessageMailbox → Bool) : MailStore where
  mailboxes := store.mailboxes
  members := store.members.filter fun row => !gone row
  changes := store.changes
  grants := store.grants
  superadmins := store.superadmins
  nextMessageID := store.nextMessageID
  mailboxesDistinct := store.mailboxesDistinct
  membersDistinct := store.membersDistinct.filter _
  uidsAscend := store.uidsAscend.filter _
  uidsIssued := by
    intro row member
    exact store.uidsIssued row (List.mem_filter.mp member).1
  uidsPositive := by
    intro row member
    exact store.uidsPositive row (List.mem_filter.mp member).1
  countersPositive := store.countersPositive
  messagesIssued := by
    intro row member
    exact store.messagesIssued row (List.mem_filter.mp member).1

def raiseModSeq (id : MailboxID) (modSeq : Nat) (mailbox : Mailbox) : Mailbox :=
  if mailbox.id = id then { mailbox with highestModSeq := modSeq } else mailbox

theorem raise_mod_seq_id (modSeq : Nat) (mailbox : Mailbox) :
    (raiseModSeq id modSeq mailbox).id = mailbox.id := by
  unfold raiseModSeq
  split <;> rfl

theorem raise_mod_seq_next (modSeq : Nat) (mailbox : Mailbox) :
    (raiseModSeq id modSeq mailbox).uidNext = mailbox.uidNext := by
  unfold raiseModSeq
  split <;> rfl

/-- `UPDATE mailboxes SET highest_modseq = ? WHERE id = ?`. -/
def setHighestModSeq (store : MailStore) (id : MailboxID) (modSeq : Nat) : MailStore where
  mailboxes := store.mailboxes.map (raiseModSeq id modSeq)
  members := store.members
  changes := store.changes
  grants := store.grants
  superadmins := store.superadmins
  nextMessageID := store.nextMessageID
  mailboxesDistinct := by
    rw [List.pairwise_map]
    refine store.mailboxesDistinct.imp ?_
    intro left right differ
    rwa [raise_mod_seq_id, raise_mod_seq_id]
  membersDistinct := store.membersDistinct
  uidsAscend := store.uidsAscend
  uidsIssued := by
    intro row member mailbox mailboxMember
    obtain ⟨old, oldMember, rfl⟩ := List.mem_map.mp mailboxMember
    rw [raise_mod_seq_id, raise_mod_seq_next]
    exact store.uidsIssued row member old oldMember
  uidsPositive := store.uidsPositive
  countersPositive := by
    intro mailbox mailboxMember
    obtain ⟨old, oldMember, rfl⟩ := List.mem_map.mp mailboxMember
    rw [raise_mod_seq_next]
    exact store.countersPositive old oldMember
  messagesIssued := store.messagesIssued

/-- `appendStateChange`: the sequence is counted for each principal. -/
def appendChange (store : MailStore) (principal : PrincipalID) (kind : EntityKind) (entity parent : Nat)
    (op : ChangeOp) : MailStore :=
  let seqs := (store.changes.filter fun change => change.principalID = principal).map StateChange.seq
  let change : StateChange :=
    { seq := seqs.foldl max 0 + 1, principalID := principal, kind := kind, entityID := entity
      parentEntityID := parent, op := op }
  { store with changes := store.changes ++ [change] }

def appendStateChange (store : MailStore) (principal : PrincipalID) (message : MessageID)
    (mailbox : MailboxID) (op : ChangeOp) : MailStore :=
  store.appendChange principal .email message mailbox op

def takeUID (id : MailboxID) (mailbox : Mailbox) : Mailbox :=
  if mailbox.id = id then
    { mailbox with uidNext := mailbox.uidNext + 1, highestModSeq := mailbox.highestModSeq + 1 }
  else mailbox

theorem take_uid_id (mailbox : Mailbox) : (takeUID id mailbox).id = mailbox.id := by
  unfold takeUID
  split <;> rfl

theorem take_uid_next_le (mailbox : Mailbox) : mailbox.uidNext ≤ (takeUID id mailbox).uidNext := by
  unfold takeUID
  split
  · exact Nat.le_succ _
  · exact Nat.le_refl _

end

theorem mailbox_unique (store : MailStore) (left right : Mailbox) (leftMember : left ∈ store.mailboxes)
    (rightMember : right ∈ store.mailboxes) (same : left.id = right.id) : left = right := by
  have distinct : (store.mailboxes.map Mailbox.id).Nodup := by
    rw [List.Nodup, List.pairwise_map]
    exact store.mailboxesDistinct
  exact List.inj_on_of_nodup_map distinct leftMember rightMember same

structure Target where
  mailboxID : MailboxID
  flags : MessageFlags := 0
  keywords : List Bytes := []
  snoozedUntil : Option Micros := none
  wakeMailboxID : Option MailboxID := none
  deriving DecidableEq

def newRow (message : MessageID) (blobHash : Bytes) (target : Target) (mailbox : Mailbox) :
    MessageMailbox where
  messageID := message
  mailboxID := mailbox.id
  uid := mailbox.uidNext
  modSeq := mailbox.highestModSeq + 1
  flags := target.flags
  keywordsCSV := joinKeywords target.keywords
  snoozedUntil := target.snoozedUntil
  wakeMailboxID := if target.snoozedUntil.isSome then target.wakeMailboxID else none
  blobHash := blobHash

/-- `INSERT INTO message_mailboxes` together with the update of the mailbox counters. -/
def fileMember (store : MailStore) (row : MessageMailbox) (mailbox : Mailbox)
    (known : mailbox ∈ store.mailboxes) (place : row.mailboxID = mailbox.id)
    (numbered : row.uid = mailbox.uidNext) (issued : row.messageID < store.nextMessageID)
    (free : ∀ old ∈ store.members, old.messageID = row.messageID → old.mailboxID ≠ row.mailboxID) :
    MailStore where
  mailboxes := store.mailboxes.map (takeUID mailbox.id)
  members := store.members ++ [row]
  changes := store.changes
  grants := store.grants
  superadmins := store.superadmins
  nextMessageID := store.nextMessageID
  mailboxesDistinct := by
    rw [List.pairwise_map]
    refine store.mailboxesDistinct.imp ?_
    intro left right differ
    rwa [take_uid_id, take_uid_id]
  membersDistinct := by
    rw [List.pairwise_append]
    refine ⟨store.membersDistinct, List.pairwise_singleton _ _, ?_⟩
    intro old member new newMember same
    rw [List.mem_singleton] at newMember
    subst newMember
    exact free old member same
  uidsAscend := by
    rw [List.pairwise_append]
    refine ⟨store.uidsAscend, List.pairwise_singleton _ _, ?_⟩
    intro old member new newMember same
    rw [List.mem_singleton] at newMember
    subst newMember
    rw [numbered]
    exact store.uidsIssued old member mailbox known (place ▸ same.symm)
  uidsIssued := by
    intro filed member other otherMember same
    obtain ⟨old, oldMember, rfl⟩ := List.mem_map.mp otherMember
    rw [take_uid_id] at same
    rw [List.mem_append, List.mem_singleton] at member
    rcases member with before | rfl
    · exact Nat.lt_of_lt_of_le (store.uidsIssued filed before old oldMember same)
        (take_uid_next_le _ _)
    · have sameMailbox := store.mailbox_unique old mailbox oldMember known (same.trans place)
      subst sameMailbox
      rw [numbered, takeUID, if_pos rfl]
      exact Nat.lt_succ_self _
  uidsPositive := by
    intro filed member
    rw [List.mem_append, List.mem_singleton] at member
    rcases member with before | rfl
    · exact store.uidsPositive filed before
    · rw [numbered]
      exact store.countersPositive mailbox known
  countersPositive := by
    intro other otherMember
    obtain ⟨old, oldMember, rfl⟩ := List.mem_map.mp otherMember
    exact Nat.lt_of_lt_of_le (store.countersPositive old oldMember) (take_uid_next_le _ _)
  messagesIssued := by
    intro filed member
    rw [List.mem_append, List.mem_singleton] at member
    rcases member with before | rfl
    · exact store.messagesIssued filed before
    · exact issued

/-- One target of an insert. A mailbox named twice breaks the primary key. -/
def addMember (store : MailStore) (message : MessageID) (blobHash : Bytes) (target : Target) :
    Except MailError MailStore :=
  match found : store.mailboxByID target.mailboxID with
  | none => .error .notFound
  | some mailbox =>
    let row := newRow message blobHash target mailbox
    if checked : row.messageID < store.nextMessageID ∧
        ∀ old ∈ store.members, old.messageID = row.messageID → old.mailboxID ≠ row.mailboxID then
      .ok (store.fileMember row mailbox (List.mem_of_find?_eq_some found) rfl rfl checked.1 checked.2)
    else .error .conflict

def drawMessageID (store : MailStore) : MailStore :=
  { store with
    nextMessageID := store.nextMessageID + 1
    messagesIssued := fun row member => Nat.lt_succ_of_lt (store.messagesIssued row member) }

def fileTargets (principal : PrincipalID) (message : MessageID) (blobHash : Bytes) :
    List Target → MailStore → Except MailError MailStore
  | [], store => .ok store
  | target :: targets, store => do
      let store ← store.addMember message blobHash target
      fileTargets principal message blobHash targets
        (store.appendStateChange principal message target.mailboxID .created)

/-- A target that names neither flags nor keywords takes those of the message. -/
def Target.inherit (flags : MessageFlags) (keywords : List Bytes) (target : Target) : Target :=
  if target.flags = 0 ∧ target.keywords = [] then
    { target with flags := flags, keywords := keywords }
  else target

/-- `InsertMessage`, with the UID the first target was given. -/
def insertMessage (store : MailStore) (principal : PrincipalID) (flags : MessageFlags)
    (keywords : List Bytes) (blobHash : Bytes) (targets : List Target) :
    Except MailError (Nat × MailStore) :=
  match targets with
  | [] => .error .failed
  | first :: _ => do
      let message := store.nextMessageID
      let filed ← fileTargets principal message blobHash
        (targets.map (Target.inherit flags keywords)) store.drawMessageID
      match filed.member? message first.mailboxID with
      | some row => .ok (row.uid, filed)
      | none => .error .failed

def newKeywords (current add clear : List Bytes) : List Bytes :=
  let kept := (current ++ add.map toLower).filter fun keyword =>
    !(clear.map toLower).contains keyword
  kept.dedup.insertionSort (· ≤ ·)

def flagUpdate (add clear : MessageFlags) (keywordAdd keywordClear : List Bytes) (modSeq : Nat) :
    MemberUpdate where
  apply row :=
    { row with
      flags := (row.flags ||| add) &&& ~~~clear
      keywordsCSV := joinKeywords (newKeywords row.keywords keywordAdd keywordClear)
      modSeq := modSeq }

/-- `UpdateMessageFlags`; zero stands for no `UNCHANGEDSINCE`. -/
def updateMessageFlags (store : MailStore) (message : MessageID) (mailbox : MailboxID)
    (add clear : MessageFlags) (keywordAdd keywordClear : List Bytes) (unchangedSince : Nat) :
    Except MailError MailStore :=
  match store.member? message mailbox with
  | none => .error .notFound
  | some row =>
    if unchangedSince ≠ 0 ∧ unchangedSince < row.modSeq then .error .conflict
    else
      match store.mailboxByID mailbox with
      | none => .error .notFound
      | some box =>
        let modSeq := box.highestModSeq + 1
        let updated := store.updateMember
          (flagUpdate add clear keywordAdd keywordClear modSeq) message mailbox
        .ok ((updated.setHighestModSeq mailbox modSeq).appendStateChange box.principalID message
          mailbox .updated)

def snoozeKeywords (current : List Bytes) (snoozed : Bool) : List Bytes :=
  let kept := current.filter fun keyword => keyword ≠ [] ∧ keyword ≠ snoozedKeyword
  ((if snoozed then snoozedKeyword :: kept else kept).dedup).insertionSort (· ≤ ·)

def snoozeUpdate (until? : Option Micros) (wake : Option MailboxID) (modSeq : Nat) :
    MemberUpdate where
  apply row :=
    { row with
      keywordsCSV := joinKeywords (snoozeKeywords row.keywords until?.isSome)
      modSeq := modSeq
      snoozedUntil := until?
      wakeMailboxID := if until?.isSome then wake else none }

def setSnooze (store : MailStore) (message : MessageID) (mailbox : MailboxID)
    (until? : Option Micros) (wake : Option MailboxID) : Except MailError MailStore :=
  match store.member? message mailbox, store.mailboxByID mailbox with
  | some _, some box =>
    let modSeq := box.highestModSeq + 1
    let updated := store.updateMember (snoozeUpdate until? wake modSeq) message mailbox
    .ok ((updated.setHighestModSeq mailbox modSeq).appendStateChange box.principalID message
      mailbox .updated)
  | _, _ => .error .notFound

/-- The memberships of one message, `ORDER BY mailbox_id`. -/
def messageRows (store : MailStore) (message : MessageID) : List MessageMailbox :=
  (store.members.filter fun row => row.messageID = message).insertionSort
    fun left right => left.mailboxID ≤ right.mailboxID

/-- `GetMessage` reads a message through the first of its memberships. The row
of a message goes away with its last membership. -/
def getMessage (store : MailStore) (message : MessageID) : Option MessageMailbox :=
  (store.messageRows message).head?

def inTrash (store : MailStore) (row : MessageMailbox) : Bool :=
  ((store.mailboxByID row.mailboxID).map Mailbox.trash).getD false

def endSnoozes (message : MessageID) : List MessageMailbox → MailStore → Except MailError MailStore
  | [], store => .ok store
  | row :: rows, store => do
      let store ← if row.snoozedUntil.isSome then store.setSnooze message row.mailboxID none none
        else pure store
      endSnoozes message rows store

/-- `transferSnoozeTx` as `deleteMembershipTx` calls it: the reminder is only
placed where no remaining membership holds one. -/
def transferSnooze (store : MailStore) (message : MessageID) (until? : Option Micros)
    (wake : Option MailboxID) : Except MailError MailStore :=
  let rows := (store.messageRows message).filter fun row => (store.mailboxByID row.mailboxID).isSome
  match rows.find? fun row => !store.inTrash row with
  | none => endSnoozes message rows store
  | some target =>
    if rows.any fun row => row.snoozedUntil.isSome then .ok store
    else if until?.isNone then .ok store
    else store.setSnooze message target.mailboxID until? wake

/-- `deleteMembershipTx` with `handOver` set. -/
def deleteMembership (store : MailStore) (message : MessageID) (mailbox : MailboxID) :
    Except MailError MailStore :=
  let removed := store.removeMembers fun row => row.messageID = message ∧ row.mailboxID = mailbox
  match (store.member? message mailbox).bind MessageMailbox.snoozedUntil with
  | none => .ok removed
  | some held =>
    let wake := (store.member? message mailbox).bind MessageMailbox.wakeMailboxID
    removed.transferSnooze message (some held) (wake.filter (· ≠ mailbox))

/-- The loop of `ExpungeMessages`: identifiers that are not filed in the
mailbox are skipped. The counter is the mailbox's `highest_modseq`. -/
def expungeLoop (owner : PrincipalID) (mailbox : MailboxID) :
    List MessageID → Nat → Nat → MailStore → Except MailError (Nat × MailStore)
  | [], _, removed, store => .ok (removed, store)
  | message :: messages, highest, removed, store =>
    if (store.member? message mailbox).isNone then
      expungeLoop owner mailbox messages highest removed store
    else do
      let store ← store.deleteMembership message mailbox
      expungeLoop owner mailbox messages (highest + 1) (removed + 1)
        ((store.setHighestModSeq mailbox (highest + 1)).appendStateChange owner message mailbox
          .destroyed)

/-- `ExpungeMessages`. A call that finds none of its messages reports an error. -/
def expungeMessages (store : MailStore) (mailbox : MailboxID) (messages : List MessageID) :
    Except MailError MailStore :=
  if messages = [] then .ok store
  else
    match store.mailboxByID mailbox with
    | none => .error .notFound
    | some box => do
        let (removed, after) ←
          expungeLoop box.principalID mailbox messages box.highestModSeq 0 store
        if removed = 0 then .error .notFound else .ok after

def dropMailbox (store : MailStore) (id : MailboxID) : MailStore where
  mailboxes := store.mailboxes.filter fun mailbox => mailbox.id ≠ id
  members := store.members
  changes := store.changes
  grants := store.grants
  superadmins := store.superadmins
  nextMessageID := store.nextMessageID
  mailboxesDistinct := store.mailboxesDistinct.filter _
  membersDistinct := store.membersDistinct
  uidsAscend := store.uidsAscend
  uidsIssued := by
    intro row member mailbox mailboxMember
    exact store.uidsIssued row member mailbox (List.mem_filter.mp mailboxMember).1
  uidsPositive := store.uidsPositive
  countersPositive := by
    intro mailbox mailboxMember
    exact store.countersPositive mailbox (List.mem_filter.mp mailboxMember).1
  messagesIssued := store.messagesIssued

def deleteMemberships (mailbox : MailboxID) : List MessageID → MailStore → Except MailError MailStore
  | [], store => .ok store
  | message :: messages, store => do
      let store ← store.deleteMembership message mailbox
      deleteMemberships mailbox messages store

def soleHashes (store : MailStore) (mailbox : MailboxID) : List Bytes :=
  ((store.rows mailbox).filter fun row =>
    store.members.all fun other => other.messageID = row.messageID → other.mailboxID = mailbox).map
    MessageMailbox.blobHash

/-- `DeleteMailbox`. Messages go by their blob hash, so a message that is filed
elsewhere too is deleted when another of the mailbox has its hash. -/
def deleteMailbox (store : MailStore) (id : MailboxID) : Except MailError MailStore :=
  match store.mailboxByID id with
  | none => .error .notFound
  | some box => do
      let hashes := store.soleHashes id
      let doomed := ((store.rows id).filter fun row => hashes.contains row.blobHash).map
        MessageMailbox.messageID
      let kept := store.removeMembers fun row => row.messageID ∈ doomed
      let emptied ← deleteMemberships id ((kept.rows id).map MessageMailbox.messageID) kept
      .ok ((emptied.dropMailbox id).appendChange box.principalID .mailbox id 0 .destroyed)

def listAllPageSize : Nat := 1000

/-- The paging loop of `listAllMessages`. -/
def listPages (store : MailStore) (mailbox : MailboxID) : Nat → Nat → List MessageMailbox
  | 0, _ => []
  | fuel + 1, last =>
    let page := store.listMessages mailbox last listAllPageSize
    match page.getLast? with
    | none => []
    | some final =>
      if page.length < listAllPageSize then page
      else page ++ listPages store mailbox fuel final.uid

/-- `listAllMessages`. A page is never empty unless it is the last, so the loop
ends after as many rounds as there are rows. -/
def listAllMessages (store : MailStore) (mailbox : MailboxID) : List MessageMailbox :=
  store.listPages mailbox ((store.rows mailbox).length + 1) 0

def readChangeFeedAll (store : MailStore) (principal : PrincipalID) (fromSeq limit : Nat) :
    List StateChange :=
  (store.changes.filter fun change => change.principalID = principal ∧ fromSeq < change.seq).take limit

end MailStore

theorem keywords_rejoined (keywords : List Bytes) (free : ∀ keyword ∈ keywords, 44 ∉ keyword)
    (keyword : Bytes) (nonempty : keyword ≠ []) :
    keyword ∈ splitKeywords (joinKeywords keywords) ↔ keyword ∈ keywords := by
  cases keywords with
  | nil => simp [joinKeywords, splitKeywords]
  | cons first rest =>
    by_cases empty : joinKeywords (first :: rest) = []
    · -- only one empty keyword joins to nothing
      have alone : rest = [] ∧ first = [] := by
        cases rest with
        | nil => exact ⟨rfl, by simpa [joinKeywords] using empty⟩
        | cons next rest =>
          rw [joinKeywords, List.intercalate_cons_cons] at empty
          simp at empty
      rw [empty, alone.1, alone.2]
      simp [splitKeywords, nonempty]
    · rw [splitKeywords, if_neg empty, splitByte]
      rw [joinKeywords, split_intercalate 44 _ (first :: rest) (by simp) free (Nat.lt_succ_self _)]

theorem split_keywords_free (csv : Bytes) : ∀ keyword ∈ splitKeywords csv, 44 ∉ keyword := by
  intro keyword member
  rw [splitKeywords] at member
  split at member
  · simp at member
  · exact split_byte_free 44 _ keyword member

theorem mem_new_keywords (current add clear : List Bytes) (keyword : Bytes) :
    keyword ∈ MailStore.newKeywords current add clear ↔
      (keyword ∈ current ∨ keyword ∈ add.map toLower) ∧ keyword ∉ clear.map toLower := by
  simp only [MailStore.newKeywords, List.mem_insertionSort, List.mem_dedup, List.mem_filter,
    List.mem_append, Bool.not_eq_true', List.contains_eq_mem, decide_eq_false_iff_not]

end Herold.Store

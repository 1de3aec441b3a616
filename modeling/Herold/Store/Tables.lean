import Herold.Machine.Run
import Herold.Store.Mailbox

/-!
# The message tables and their transactions

The tables of the metadata store as the SQL statements see them: principals with
their quota accounting, mailboxes with their counters, message rows, memberships,
pre-trash snapshots, blob references and the change feed. A transaction is a
function on the tables; when it fails, nothing of it is kept.

The counters of a mailbox are read and written back exactly where the statements
do so, which is not always next to the row they number. Thread resolution is not
part of this module: an insert is given the messages whose thread it merges.
-/

namespace Herold.Store

open Herold.Go

structure Principal where
  id : PrincipalID
  parent : Option PrincipalID := none
  quotaBytes : Nat := 0
  usedBytes : Int := 0
  deriving DecidableEq

/-- The blob of a message. The blob store names every blob by a digest. -/
structure BlobName where
  hash : Bytes
  named : hash ≠ []
  deriving DecidableEq

def byteBlob (digest : UInt8) : BlobName := ⟨[digest], List.cons_ne_nil digest []⟩

structure MessageRow where
  id : MessageID
  principalID : PrincipalID
  blob : BlobName
  size : Nat
  deriving DecidableEq

/-- A `message_mailboxes` row. -/
structure Membership where
  messageID : MessageID
  mailboxID : MailboxID
  uid : Nat
  modSeq : Nat
  flags : MessageFlags := 0
  keywordsCSV : Bytes := []
  snoozedUntil : Option Micros := none
  wakeMailboxID : Option MailboxID := none
  deriving DecidableEq

/-- `ON DELETE SET NULL` of `wake_mailbox_id`. -/
def Membership.forgetWake (mailbox : MailboxID) (row : Membership) : Membership :=
  { row with wakeMailboxID := row.wakeMailboxID.filter (· ≠ mailbox) }

inductive ChangeCause where
  | user
  | background
  deriving DecidableEq

/-- A `state_changes` row with its cause. -/
structure FeedRow where
  change : StateChange
  cause : ChangeCause
  deriving DecidableEq

structure Tables where
  principals : List Principal
  mailboxes : List Mailbox
  messages : List MessageRow := []
  members : List Membership := []
  /-- `email_pretrash_mailboxes`. -/
  pretrash : List (MessageID × MailboxID) := []
  /-- `blob_refs`; a hash without a row counts zero. -/
  blobRefs : Bytes → Nat := fun _ => 0
  changes : List FeedRow := []
  nextMessageID : MessageID := 1

namespace Tables

variable (tables : Tables)

def principal? (id : PrincipalID) : Option Principal :=
  tables.principals.find? fun principal => principal.id = id

def mailbox? (id : MailboxID) : Option Mailbox :=
  tables.mailboxes.find? fun mailbox => mailbox.id = id

def message? (id : MessageID) : Option MessageRow :=
  tables.messages.find? fun row => row.id = id

def membership? (message : MessageID) (mailbox : MailboxID) : Option Membership :=
  tables.members.find? fun row => row.messageID = message ∧ row.mailboxID = mailbox

def require {Row : Type} (row : Option Row) : Except MailError Row :=
  match row with
  | some row => .ok row
  | none => .error .notFound

/-- `quotaPrincipalID`: the parent of a sub-account, else the principal itself. -/
def quotaPrincipalID (principal : PrincipalID) : Except MailError PrincipalID := do
  let row ← require (tables.principal? principal)
  .ok (row.parent.getD principal)

def isTrash (mailbox : MailboxID) : Bool := ((tables.mailbox? mailbox).map Mailbox.trash).getD false

/-- `UPDATE mailboxes SET … WHERE id = ?`. -/
def updateMailbox (id : MailboxID) (change : Mailbox → Mailbox) : Tables :=
  { tables with
    mailboxes := tables.mailboxes.map fun mailbox => if mailbox.id = id then change mailbox
      else mailbox }

def setHighest (id : MailboxID) (modSeq : Nat) : Tables :=
  tables.updateMailbox id fun mailbox => { mailbox with highestModSeq := modSeq }

def bumpHighest (id : MailboxID) : Tables :=
  tables.updateMailbox id fun mailbox => { mailbox with highestModSeq := mailbox.highestModSeq + 1 }

def advance (id : MailboxID) (modSeq : Nat) : Tables :=
  tables.updateMailbox id fun mailbox =>
    { mailbox with uidNext := mailbox.uidNext + 1, highestModSeq := modSeq }

/-- `INSERT INTO message_mailboxes`, with its primary key and its unique index. -/
def insertMember (row : Membership) : Except MailError Tables :=
  if tables.members.any fun old => decide (old.mailboxID = row.mailboxID ∧
      (old.messageID = row.messageID ∨ old.uid = row.uid)) then .error .conflict
  else .ok { tables with members := tables.members ++ [row] }

/-- `UPDATE message_mailboxes SET … WHERE message_id = ? AND mailbox_id = ?`. -/
def updateMember (message : MessageID) (mailbox : MailboxID) (change : Membership → Membership) :
    Tables :=
  { tables with
    members := tables.members.map fun row =>
      if row.messageID = message ∧ row.mailboxID = mailbox then change row else row }

def deleteMember (message : MessageID) (mailbox : MailboxID) : Tables :=
  { tables with
    members := tables.members.filter fun row => ¬(row.messageID = message ∧ row.mailboxID = mailbox) }

/-- `DELETE FROM messages`, with the rows that refer to what is deleted. -/
def deleteMessages (gone : MessageRow → Bool) : Tables :=
  let ids := (tables.messages.filter gone).map MessageRow.id
  { tables with
    messages := tables.messages.filter fun row => !gone row
    members := tables.members.filter fun row => !ids.contains row.messageID
    pretrash := tables.pretrash.filter fun row => !ids.contains row.1 }

/-- `appendStateChange` and `appendStateChangeBackground`. -/
def appendChange (principal : PrincipalID) (kind : EntityKind) (entity parent : Nat) (op : ChangeOp)
    (cause : ChangeCause) : Tables :=
  let seqs := (tables.changes.filter fun row => row.change.principalID = principal).map
    fun row => row.change.seq
  let change : StateChange :=
    { seq := seqs.foldl max 0 + 1, principalID := principal, kind := kind, entityID := entity
      parentEntityID := parent, op := op }
  { tables with changes := tables.changes ++ [⟨change, cause⟩] }

def appendEmailChange (principal : PrincipalID) (message : MessageID) (mailbox : MailboxID)
    (op : ChangeOp) : Tables :=
  tables.appendChange principal .email message mailbox op .user

def incRef (hash : Bytes) : Tables :=
  { tables with
    blobRefs := fun other => if other = hash then tables.blobRefs other + 1 else tables.blobRefs other }

/-- `decRef` refuses to count below zero. -/
def decRef (hash : Bytes) : Tables :=
  { tables with
    blobRefs := fun other => if other = hash then tables.blobRefs other - 1 else tables.blobRefs other }

/-- `UPDATE principals SET used_bytes = used_bytes + ? WHERE id = ?`. -/
def credit (id : PrincipalID) (bytes : Int) : Tables :=
  { tables with
    principals := tables.principals.map fun principal =>
      if principal.id = id then { principal with usedBytes := principal.usedBytes + bytes }
      else principal }

def overQuota (principal : Principal) (bytes : Int) : Bool :=
  0 < principal.quotaBytes && (principal.quotaBytes : Int) < principal.usedBytes + bytes

def snoozeRow (until? : Option Micros) (wake : Option MailboxID) (modSeq : Nat) (row : Membership) :
    Membership :=
  { row with
    keywordsCSV := joinKeywords (MailStore.snoozeKeywords (splitKeywords row.keywordsCSV) until?.isSome)
    modSeq := modSeq
    snoozedUntil := until?
    wakeMailboxID := if until?.isSome then wake else none }

/-- `setSnoozeTx`. -/
def setSnooze (message : MessageID) (mailbox : MailboxID) (until? : Option Micros)
    (wake : Option MailboxID) : Except MailError Tables := do
  let _ ← require (tables.membership? message mailbox)
  let box ← require (tables.mailbox? mailbox)
  let modSeq := box.highestModSeq + 1
  let updated := tables.updateMember message mailbox (snoozeRow until? wake modSeq)
  .ok ((updated.setHighest mailbox modSeq).appendEmailChange box.principalID message mailbox .updated)

/-- The memberships of a message in mailboxes that are there, `ORDER BY mailbox_id`. -/
def memberships (message : MessageID) : List Membership :=
  (tables.members.filter fun row =>
    row.messageID = message ∧ (tables.mailbox? row.mailboxID).isSome).insertionSort
      fun left right => left.mailboxID ≤ right.mailboxID

def endReminders (message : MessageID) : List Membership → Tables → Except MailError Tables
  | [], tables => .ok tables
  | row :: rows, tables => do
      let tables ← (if row.snoozedUntil.isSome then tables.setSnooze message row.mailboxID none none
        else .ok tables)
      endReminders message rows tables

/-- `transferSnoozeTx`. -/
def transferSnooze (message : MessageID) (until? : Option Micros) (wake : Option MailboxID)
    (placeOnly : Bool) : Except MailError Tables :=
  let rows := tables.memberships message
  match rows.find? fun row => !tables.isTrash row.mailboxID with
  | none => endReminders message rows tables
  | some target =>
    if target.snoozedUntil.isSome then .ok tables
    else
      match rows.find? fun row => row.mailboxID ≠ target.mailboxID ∧ row.snoozedUntil.isSome with
      | some holder =>
        if placeOnly then .ok tables
        else do
          let placed ← tables.setSnooze message target.mailboxID holder.snoozedUntil
            holder.wakeMailboxID
          placed.setSnooze message holder.mailboxID none none
      | none =>
        if until?.isNone then .ok tables
        else tables.setSnooze message target.mailboxID until? wake

/-- `deleteMembershipTx`. -/
def deleteMembership (message : MessageID) (mailbox : MailboxID) (handOver : Bool) :
    Except MailError Tables :=
  let held := tables.membership? message mailbox
  let removed := tables.deleteMember message mailbox
  match handOver, held.bind Membership.snoozedUntil with
  | true, some until_ =>
    let wake := (held.bind Membership.wakeMailboxID).filter (· ≠ mailbox)
    removed.transferSnooze message (some until_) wake true
  | _, _ => .ok removed

/-- `snapshotPretrashMailboxes`. -/
def snapshotPretrash (message : MessageID) (trash : MailboxID) : Tables :=
  let kept := (tables.members.filter fun row => row.messageID = message ∧
    (tables.mailbox? row.mailboxID).isSome ∧ !tables.isTrash row.mailboxID ∧ row.mailboxID ≠ trash).map
      fun row => (message, row.mailboxID)
  { tables with pretrash := (tables.pretrash.filter fun row => row.1 ≠ message) ++ kept }

def replayInto (message : MessageID) (mailbox : MailboxID) : Except MailError Tables :=
  match tables.mailbox? mailbox with
  | none => .ok tables
  | some box =>
    if (tables.membership? message mailbox).isSome then .ok tables
    else do
      let filed ← tables.insertMember ⟨message, mailbox, box.uidNext, box.highestModSeq + 1,
        0, [], none, none⟩
      .ok (filed.advance mailbox (box.highestModSeq + 1))

def replayAll (message : MessageID) : List MailboxID → Tables → Except MailError Tables
  | [], tables => .ok tables
  | mailbox :: mailboxes, tables => do
      let tables ← tables.replayInto message mailbox
      replayAll message mailboxes tables

def snapshotOf (message : MessageID) : List MailboxID :=
  (tables.pretrash.filter fun row => row.1 = message).map Prod.snd

/-- `replayPretrashMailboxes`. -/
def replayPretrash (message : MessageID) : Except MailError Tables := do
  let replayed ← replayAll message (tables.snapshotOf message) tables
  .ok { replayed with pretrash := replayed.pretrash.filter fun row => row.1 ≠ message }

def fileTarget (principal : PrincipalID) (message : MessageID) (target : MailStore.Target) :
    Except MailError Tables := do
  let box ← require (tables.mailbox? target.mailboxID)
  let filed ← tables.insertMember
    { messageID := message, mailboxID := target.mailboxID, uid := box.uidNext
      modSeq := box.highestModSeq + 1, flags := target.flags
      keywordsCSV := joinKeywords target.keywords, snoozedUntil := target.snoozedUntil
      wakeMailboxID := if target.snoozedUntil.isSome then target.wakeMailboxID else none }
  .ok ((filed.advance target.mailboxID (box.highestModSeq + 1)).appendEmailChange principal message
    target.mailboxID .created)

def fileTargets (principal : PrincipalID) (message : MessageID) :
    List MailStore.Target → Tables → Except MailError Tables
  | [], tables => .ok tables
  | target :: targets, tables => do
      let tables ← tables.fileTarget principal message target
      fileTargets principal message targets tables

/-- The feed rows of a late-ancestor merge: one for each membership of each
message whose thread it changes. -/
def logMerged (principal : PrincipalID) (merged : List MessageID) : Tables :=
  (merged.flatMap fun message =>
    (tables.members.filter fun row => row.messageID = message).map
      fun row => (message, row.mailboxID)).foldl
        (fun tables key => tables.appendEmailChange principal key.1 key.2 .updated) tables

structure NewMessage where
  principalID : PrincipalID
  blob : BlobName
  size : Nat
  flags : MessageFlags := 0
  keywords : List Bytes := []
  targets : List MailStore.Target
  merged : List MessageID := []

def insertPrincipal (message : NewMessage) : Except MailError PrincipalID :=
  if message.principalID ≠ 0 then .ok message.principalID
  else
    match message.targets with
    | [] => .error .failed
    | first :: _ => do
        let box ← require (tables.mailbox? first.mailboxID)
        .ok box.principalID

/-- `insertMessageTx`. -/
def insertMessage (message : NewMessage) : Except MailError Tables := do
  let principal ← tables.insertPrincipal message
  let charged ← tables.quotaPrincipalID principal
  let account ← require (tables.principal? charged)
  let _ ← (if overQuota account message.size then .error .quotaExceeded else .ok ())
  let id := tables.nextMessageID
  let opened : Tables :=
    { tables with
      messages := tables.messages ++ [⟨id, principal, message.blob, message.size⟩]
      nextMessageID := id + 1 }
  let filed ← fileTargets principal id
    (message.targets.map (MailStore.Target.inherit message.flags message.keywords)) opened
  .ok (((filed.credit charged message.size).incRef message.blob.hash).logMerged principal
    message.merged)

def insertAll : List NewMessage → Tables → Except MailError Tables
  | [], tables => .ok tables
  | message :: messages, tables => do
      let tables ← tables.insertMessage message
      insertAll messages tables

/-- `InsertMessages`, and `InsertMessage` for a single one. -/
def insertMessages (messages : List NewMessage) : Except MailError Tables :=
  if messages.any fun message => message.targets.isEmpty then .error .failed
  else insertAll messages tables

def touchMember (principal : PrincipalID) (message : MessageID) (mailbox : MailboxID) :
    Except MailError Tables := do
  let box ← require (tables.mailbox? mailbox)
  let modSeq := box.highestModSeq + 1
  .ok (((tables.updateMember message mailbox fun row => { row with modSeq }).setHighest mailbox
    modSeq).appendChange principal .email message mailbox .updated .background)

def touchMembers (principal : PrincipalID) (message : MessageID) :
    List MailboxID → Tables → Except MailError Tables
  | [], tables => .ok tables
  | mailbox :: mailboxes, tables => do
      let tables ← tables.touchMember principal message mailbox
      touchMembers principal message mailboxes tables

/-- `ReplaceMessageBody`, of what the tables here hold. -/
def replaceMessageBody (id : MessageID) (blob : BlobName) (size : Nat) : Except MailError Tables := do
  let row ← require (tables.message? id)
  let charged ← tables.quotaPrincipalID row.principalID
  let _ ← (if row.size < size then do
      let account ← require (tables.principal? charged)
      if overQuota account ((size : Int) - row.size) then .error .quotaExceeded else .ok ()
    else .ok ())
  let rewritten : Tables :=
    { tables with
      messages := tables.messages.map fun other => if other.id = id then { other with blob, size }
        else other }
  let accounted := rewritten.credit charged ((size : Int) - row.size)
  let counted :=
    if row.blob.hash ≠ blob.hash then (accounted.decRef row.blob.hash).incRef blob.hash else accounted
  touchMembers row.principalID id
    ((tables.members.filter fun member => member.messageID = id).map Membership.mailboxID) counted

/-- `UpdateMessageFlags`; zero stands for no `UNCHANGEDSINCE`. -/
def updateMessageFlags (message : MessageID) (mailbox : MailboxID) (add clear : MessageFlags)
    (keywordAdd keywordClear : List Bytes) (unchangedSince : Nat) : Except MailError Tables := do
  let row ← require (tables.membership? message mailbox)
  let _ ← (if unchangedSince ≠ 0 ∧ unchangedSince < row.modSeq then .error .conflict else .ok ())
  let box ← require (tables.mailbox? mailbox)
  let modSeq := box.highestModSeq + 1
  let updated := tables.updateMember message mailbox fun row =>
    { row with
      flags := (row.flags ||| add) &&& ~~~clear
      keywordsCSV := joinKeywords
        (MailStore.newKeywords (splitKeywords row.keywordsCSV) keywordAdd keywordClear)
      modSeq }
  .ok ((updated.setHighest mailbox modSeq).appendEmailChange box.principalID message mailbox .updated)

/-- The message row goes with the last membership, its bytes and its reference
with it. -/
def releaseIfUnfiled (message : MessageID) (charged : PrincipalID) : Tables :=
  if tables.members.any fun row => row.messageID = message then tables
  else
    let dropped := tables.deleteMessages fun row => row.id = message
    match tables.message? message with
    | none => dropped
    | some row => (dropped.decRef row.blob.hash).credit charged (-(row.size : Int))

/-- The loop of `ExpungeMessages`. `highest` is the counter the call read first. -/
def expungeLoop (owner charged : PrincipalID) (mailbox : MailboxID) :
    List MessageID → Nat → Nat → Tables → Except MailError (Nat × Tables)
  | [], _, removed, tables => .ok (removed, tables)
  | message :: messages, highest, removed, tables =>
    if (tables.membership? message mailbox).isNone then
      expungeLoop owner charged mailbox messages highest removed tables
    else do
      let deleted ← tables.deleteMembership message mailbox true
      let released := deleted.releaseIfUnfiled message charged
      let counted := released.setHighest mailbox (highest + 1)
      expungeLoop owner charged mailbox messages (highest + 1) (removed + 1)
        (counted.appendEmailChange owner message mailbox .destroyed)

def expungeMessages (mailbox : MailboxID) (messages : List MessageID) : Except MailError Tables :=
  if messages = [] then .ok tables
  else do
    let box ← require (tables.mailbox? mailbox)
    let charged ← tables.quotaPrincipalID box.principalID
    let (removed, after) ←
      expungeLoop box.principalID charged mailbox messages box.highestModSeq 0 tables
    if removed = 0 then .error .notFound else .ok after

def moveMessage (message : MessageID) (source target : MailboxID) : Except MailError Tables := do
  let row ← require (tables.membership? message source)
  let box ← require (tables.mailbox? target)
  let modSeq := box.highestModSeq + 1
  let snapped := if box.trash then tables.snapshotPretrash message target else tables
  let moved : Membership :=
    if box.trash then
      { row with
        snoozedUntil := none, wakeMailboxID := none
        keywordsCSV := joinKeywords ((splitKeywords row.keywordsCSV).filter fun keyword =>
          keyword ≠ [] ∧ keyword ≠ snoozedKeyword) }
    else row
  let filed ← snapped.insertMember { moved with mailboxID := target, uid := box.uidNext, modSeq }
  let left ← filed.deleteMembership message source false
  let restored ← (if tables.isTrash source then left.replayPretrash message else .ok left)
  -- the target's counter is written back as it was read before the replay
  let counted := (restored.advance target modSeq).bumpHighest source
  .ok (counted.appendEmailChange box.principalID message target .updated)

def leaveTrash (principal : PrincipalID) (message : MessageID) :
    List MailboxID → Tables → Except MailError Tables
  | [], tables => .ok tables
  | trash :: others, tables => do
      let tables ← tables.deleteMembership message trash true
      leaveTrash principal message others
        ((tables.bumpHighest trash).appendEmailChange principal message trash .destroyed)

/-- `removeTrashMembershipsAndReplay`. -/
def removeTrashAndReplay (principal : PrincipalID) (message : MessageID) (kept : MailboxID) :
    Except MailError Tables :=
  let trash := (tables.members.filter fun row => row.messageID = message ∧ row.mailboxID ≠ kept ∧
    tables.isTrash row.mailboxID).map Membership.mailboxID
  if trash = [] then .ok tables
  else do
    let left ← leaveTrash principal message trash tables
    left.replayPretrash message

def addMessageToMailbox (message : MessageID) (mailbox : MailboxID) : Except MailError Tables := do
  let row ← require (tables.message? message)
  let _ ← (if (tables.membership? message mailbox).isSome then .error .conflict else .ok ())
  let box ← require (tables.mailbox? mailbox)
  let snapped := if box.trash then tables.snapshotPretrash message mailbox else tables
  let filed ← snapped.insertMember
    ⟨message, mailbox, box.uidNext, box.highestModSeq + 1, 0, [], none, none⟩
  let counted := (filed.advance mailbox (box.highestModSeq + 1)).appendEmailChange
    row.principalID message
    mailbox .created
  if box.trash then .ok counted else counted.removeTrashAndReplay row.principalID message mailbox

def removeMessageFromMailbox (message : MessageID) (mailbox : MailboxID) : Except MailError Tables := do
  let _ ← require (tables.membership? message mailbox)
  let row ← require (tables.message? message)
  let left ← tables.deleteMembership message mailbox true
  let restored ← (if tables.isTrash mailbox then left.replayPretrash message else .ok left)
  let counted := restored.bumpHighest mailbox
  let charged ← tables.quotaPrincipalID row.principalID
  let released := counted.releaseIfUnfiled message charged
  .ok (released.appendEmailChange row.principalID message mailbox .destroyed)

def releaseSnooze (message : MessageID) (mailbox : MailboxID) : Except MailError Tables :=
  tables.setSnooze message mailbox none none

def consolidateSnooze (message : MessageID) : Except MailError Tables :=
  tables.transferSnooze message none none false

def recordMailboxArrival (message : MessageID) (mailbox : MailboxID) : Except MailError Tables := do
  let row ← require (tables.message? message)
  let _ ← require (tables.membership? message mailbox)
  let box ← require (tables.mailbox? mailbox)
  let modSeq := box.highestModSeq + 1
  .ok (((tables.updateMember message mailbox fun member => { member with modSeq }).setHighest mailbox
    modSeq).appendEmailChange row.principalID message mailbox .created)

def soleMessages (mailbox : MailboxID) : List MessageRow :=
  tables.messages.filter fun row =>
    (tables.members.filter fun member => member.messageID = row.id).map Membership.mailboxID = [mailbox]

/-- One round of `DeleteMailbox` over a sole message: every message of the mailbox
with its hash goes, one reference and one size are given back. -/
def dropSole (mailbox : MailboxID) (charged : PrincipalID) (sole : MessageRow) : Tables :=
  ((tables.deleteMessages fun row => row.blob.hash = sole.blob.hash ∧
    tables.members.any fun member => member.messageID = row.id ∧ member.mailboxID = mailbox).decRef
      sole.blob.hash).credit charged (-(sole.size : Int))

def deleteMemberships (mailbox : MailboxID) : List MessageID → Tables → Except MailError Tables
  | [], tables => .ok tables
  | message :: messages, tables => do
      let tables ← tables.deleteMembership message mailbox true
      deleteMemberships mailbox messages tables

/-- `DeleteMailbox`, less the renumbering of ranked labels. -/
def deleteMailbox (id : MailboxID) : Except MailError Tables := do
  let box ← require (tables.mailbox? id)
  let charged ← tables.quotaPrincipalID box.principalID
  let dropped := (tables.soleMessages id).foldl
    (fun tables sole => tables.dropSole id charged sole) tables
  let emptied ← deleteMemberships id
    ((dropped.members.filter fun row => row.mailboxID = id).map Membership.messageID) dropped
  let removed : Tables :=
    { emptied with
      mailboxes := emptied.mailboxes.filter fun mailbox => mailbox.id ≠ id
      members := (emptied.members.filter fun row => row.mailboxID ≠ id).map (Membership.forgetWake id) }
  .ok (removed.appendChange box.principalID .mailbox id 0 .destroyed .user)

end Tables

inductive Write where
  | insert (messages : List Tables.NewMessage)
  | replaceBody (message : MessageID) (blob : BlobName) (size : Nat)
  | add (message : MessageID) (mailbox : MailboxID)
  | remove (message : MessageID) (mailbox : MailboxID)
  | move (message : MessageID) (source target : MailboxID)
  | expunge (mailbox : MailboxID) (messages : List MessageID)
  | updateFlags (message : MessageID) (mailbox : MailboxID) (set clear : MessageFlags)
      (keywordAdd keywordClear : List Bytes) (unchangedSince : Nat)
  | setSnooze (message : MessageID) (mailbox : MailboxID) (until? : Option Micros)
      (wake : Option MailboxID)
  | releaseSnooze (message : MessageID) (mailbox : MailboxID)
  | consolidateSnooze (message : MessageID)
  | recordArrival (message : MessageID) (mailbox : MailboxID)

def Write.apply (tables : Tables) : Write → Except MailError Tables
  | .insert messages => tables.insertMessages messages
  | .replaceBody message blob size => tables.replaceMessageBody message blob size
  | .add message mailbox => tables.addMessageToMailbox message mailbox
  | .remove message mailbox => tables.removeMessageFromMailbox message mailbox
  | .move message source target => tables.moveMessage message source target
  | .expunge mailbox messages => tables.expungeMessages mailbox messages
  | .updateFlags message mailbox set clear keywordAdd keywordClear unchangedSince =>
    tables.updateMessageFlags message mailbox set clear keywordAdd keywordClear unchangedSince
  | .setSnooze message mailbox until? wake => tables.setSnooze message mailbox until? wake
  | .releaseSnooze message mailbox => tables.releaseSnooze message mailbox
  | .consolidateSnooze message => tables.consolidateSnooze message
  | .recordArrival message mailbox => tables.recordMailboxArrival message mailbox

/-- A transaction on the tables, the deletion of a mailbox included. -/
inductive Operation where
  | write (write : Write)
  | deleteMailbox (mailbox : MailboxID)

def Operation.apply (tables : Tables) : Operation → Except MailError Tables
  | .write change => change.apply tables
  | .deleteMailbox mailbox => tables.deleteMailbox mailbox

def committed (tables : Tables) : Except MailError Tables → Tables
  | .ok after => after
  | .error _ => tables

def Write.machine : Herold.Machine Tables Write where
  step tables write := some (committed tables (write.apply tables))

def Operation.machine : Herold.Machine Tables Operation where
  step tables operation := some (committed tables (operation.apply tables))

end Herold.Store

import Herold.Store.Tables

/-!
# Import accounts

What the importer keeps about an upstream account: a row for each upstream message
it has mirrored, with the key of the folder and the UID, and the upstream commands
that write-back issues for such a row.
-/

namespace Herold.Import

open Herold.Go Herold.Store

structure SyncedFlags where
  seen : Bool := false
  flagged : Bool := false
  deriving DecidableEq

structure Account where
  principalID : PrincipalID
  deletePropagates : Bool := true
  deriving DecidableEq

/-- An `imapimport_message_state` row of one account. -/
structure MessageState where
  folder : Bytes
  uid : Nat
  messageID : MessageID
  mailboxID : MailboxID
  mappedMailboxID : MailboxID
  lastSynced : SyncedFlags := {}
  deriving DecidableEq

def MessageState.hasKey (row : MessageState) (folder : Bytes) (uid : Nat) : Bool :=
  row.folder = folder && row.uid = uid

/-- `GetIMAPImportMessageState`. -/
def getState (rows : List MessageState) (folder : Bytes) (uid : Nat) : Option MessageState :=
  rows.find? fun row => row.hasKey folder uid

/-- `GetIMAPImportMessageStateByMessage`: one of the rows of the message. -/
def stateByMessage (rows : List MessageState) (message : MessageID) : Option MessageState :=
  rows.find? fun row => row.messageID = message

/-- `UpsertIMAPImportMessageState`. -/
def upsertState (rows : List MessageState) (row : MessageState) : List MessageState :=
  rows.filter (fun other => !other.hasKey row.folder row.uid) ++ [row]

/-- `DeleteIMAPImportMessageState`. -/
def deleteState (rows : List MessageState) (folder : Bytes) (uid : Nat) : List MessageState :=
  rows.filter fun row => !row.hasKey folder uid

inductive Action where
  | storeFlags (add remove : SyncedFlags)
  | storeDeleted
  | expunge
  | move (destination : Bytes)
  deriving DecidableEq

/-- What write-back sends upstream, and the message it sends it for. -/
structure Command where
  message : MessageID
  folder : Bytes
  uid : Nat
  action : Action
  deriving DecidableEq

def Command.deletes (command : Command) : Bool :=
  command.action = .storeDeleted || command.action = .expunge

structure DestroyAnswers where
  selects : Bool
  stores : Bool
  deriving DecidableEq

/-- `writeBackDestroy`. A failed STORE ends it before the EXPUNGE. -/
def writeBackDestroy (account : Account) (answers : DestroyAnswers) (row : MessageState)
    (message : MessageID) : List Command :=
  if !account.deletePropagates || !answers.selects then []
  else
    let marks := ⟨message, row.folder, row.uid, .storeDeleted⟩
    if answers.stores then [marks, ⟨message, row.folder, row.uid, .expunge⟩] else [marks]

/-- The deletions of `processWriteBack`; the other operations of a feed row set
flags and move messages. -/
def deletions (account : Account) (answers : DestroyAnswers) (rows : List MessageState)
    (change : StateChange) : List Command :=
  match stateByMessage rows change.entityID with
  | none => []
  | some row =>
    if change.op = .destroyed then writeBackDestroy account answers row change.entityID else []

end Herold.Import

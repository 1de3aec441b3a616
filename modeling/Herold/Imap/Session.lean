import Herold.Store.Filing
import Herold.Imap.NumSet

/-!
# The IMAP session

Each handler is a function of the store, the session and the calls of the store
that fail unexpectedly; it returns the new store, the new session, and what is
written to the client. A session in the authenticated state has no selected
mailbox. Keyword advertisement (`* FLAGS`), logging and the evaluation of
`SEARCH` criteria are left out: none of them changes a mailbox or the
session's list of messages.
-/

namespace Herold.Imap

open Herold.Go Herold.Store

/-- The selected mailbox. The list is ordered by UID when it is loaded; a
message's sequence number is its position, counted from one. -/
structure Selected where
  id : MailboxID
  uidValidity : Nat
  uidNext : Nat
  msgs : List MessageMailbox
  readOnly : Bool
  distinct : msgs.Pairwise fun left right => left.messageID ≠ right.messageID

structure Session where
  pid : PrincipalID
  sel : Option Selected := none
  condstore : Bool := false
  qresync : Bool := false
  /-- The change-feed cursor while the session is in `IDLE`. -/
  idle : Option Nat := none

inductive StoreCall where
  | getMailboxByName
  | accessibleMailboxes
  | getMailboxByID
  | resolveRights
  | listMessages
  | updateMessageFlags (message : MessageID)
  | setSnooze (message : MessageID)
  | getMessage (message : MessageID)
  | getBlob (message : MessageID)
  | insertMessage (position : Nat)
  | expungeMessages
  | deleteMailbox
  | reload
  | readChangeFeed
  deriving DecidableEq

abbrev Faults := StoreCall → Bool

inductive Code where
  | none
  | noPerm
  | nonexistent
  | tryCreate
  | snoozeDateMissing
  | readWrite
  | readOnly
  | overQuota
  | modifiedUIDs (uids : List Nat)
  | modifiedSeqs (seqs : List Nat)
  | copyUID (uidValidity : Nat) (source destination : List Nat)
  | appendUID (uidValidity : Nat) (uids : List Nat)
  deriving DecidableEq

inductive Response where
  | existsCount (count : Nat)
  | expunge (seq : Nat)
  | vanished (uids : List Nat)
  | fetch (seq : Nat) (uid : Option Nat) (flags : Option (MessageFlags × List Bytes))
  | untaggedOK (code : Code) (text : String)
  | taggedOK (code : Code) (text : String)
  | taggedNO (code : Code) (text : String)
  | taggedBAD (code : Code) (text : String)
  deriving DecidableEq

structure Outcome where
  store : MailStore
  session : Session
  responses : List Response
  /-- The identifiers handed to `ExpungeMessages`, if it was called. -/
  handed : List MessageID := []

def refuse (store : MailStore) (session : Session) (response : Response) : Outcome :=
  { store := store, session := session, responses := [response] }

section

variable (store : MailStore) (session : Session) (response : Response)

@[simp] theorem refuse_store : (refuse store session response).store = store := rfl

@[simp] theorem refuse_session : (refuse store session response).session = session := rfl

@[simp] theorem refuse_responses : (refuse store session response).responses = [response] := rfl

end

def notSelected : Response := .taggedBAD .none "not in SELECTED state"

/-- The letters of `aclcodec.LetterTable`. -/
def letterRight : UInt8 → Option ACLRights
  | 108 => some .lookup
  | 114 => some .read
  | 115 => some .seen
  | 119 => some .write
  | 105 => some .insert
  | 112 => some .post
  | 107 => some .createMailbox
  | 120 => some .deleteMailbox
  | 116 => some .deleteMessage
  | 101 => some .expunge
  | 97 => some .admin
  | _ => none

def decodeLetters (letters : Bytes) : Option ACLRights :=
  (letters.mapM letterRight).map fun rights => rights.foldl (· ||| ·) 0

def readTier : ACLRights := ACLRights.lookup ||| ACLRights.read ||| ACLRights.seen

def writeTier : ACLRights :=
  readTier ||| ACLRights.write ||| ACLRights.insert ||| ACLRights.post ||| ACLRights.createMailbox |||
    ACLRights.deleteMailbox ||| ACLRights.deleteMessage ||| ACLRights.expunge

def decodeGrantLevel (level : Bytes) : Option ACLRights :=
  if level = ascii "read" then some readTier
  else if level = ascii "write" then some writeTier
  else if level = ascii "admin" then some (writeTier ||| ACLRights.admin)
  else decodeLetters level

def grantApplies (grant : Grant) (pid : PrincipalID) : Bool :=
  grant.subject = none ∨ grant.subject = some pid

/-- `authz.ResolveMailboxRights`. -/
def effectiveRights (store : MailStore) (pid : PrincipalID) (mailbox : Mailbox) : ACLRights :=
  if mailbox.principalID = pid then .all
  else if pid ∈ store.superadmins then .all
  else
    ((store.grants.filter fun grant => grant.mailboxID = mailbox.id ∧ grantApplies grant pid).filterMap
      fun grant => decodeGrantLevel grant.level).foldl (· ||| ·) 0

/-- `requireRights`, true where the source returns no error. -/
def requireRights (faults : Faults) (store : MailStore) (pid : PrincipalID) (mailbox : Mailbox)
    (need : ACLRights) : Bool :=
  mailbox.principalID = pid ∨
    (!faults .resolveRights ∧ effectiveRights store pid mailbox &&& need = need)

/-- `ListMailboxesAccessibleBy`. Its callers search the list by name, so the order is left out. -/
def accessibleMailboxes (store : MailStore) (pid : PrincipalID) : List Mailbox :=
  store.mailboxes.filter fun mailbox => store.grants.any fun grant =>
    grant.mailboxID = mailbox.id ∧ grantApplies grant pid ∧
      ((decodeGrantLevel grant.level).getD 0) &&& ACLRights.lookup ≠ 0

def canonicalMailboxName (name : Bytes) : Bytes :=
  if equalFold name (ascii "INBOX") then ascii "INBOX" else name

inductive Lookup where
  | found (mailbox : Mailbox)
  | missing
  | failed
  | sharedFailed
  deriving DecidableEq

/-- The lookup `SELECT` and `APPEND` share: an own mailbox by name, or one that
was shared with the principal. -/
def lookupMailbox (faults : Faults) (store : MailStore) (pid : PrincipalID) (name : Bytes) : Lookup :=
  if faults .getMailboxByName then .failed
  else
    match store.mailboxByName pid (canonicalMailboxName name) with
    | some mailbox => .found mailbox
    | none =>
      if faults .accessibleMailboxes then .sharedFailed
      else
        match (accessibleMailboxes store pid).find?
            fun mailbox => mailbox.name = canonicalMailboxName name with
        | some mailbox => .found mailbox
        | none => .missing

theorem listed_distinct (store : MailStore) (mailbox : MailboxID) :
    (store.listAllMessages mailbox).Pairwise fun left right => left.messageID ≠ right.messageID := by
  rw [store.list_all_messages_eq]
  exact store.rows_distinct mailbox

/-- The state `SELECT` installs. -/
def selectMailbox (store : MailStore) (mailbox : Mailbox) (readOnly : Bool) : Selected where
  id := mailbox.id
  uidValidity := mailbox.uidValidity
  uidNext := mailbox.uidNext
  msgs := store.listAllMessages mailbox.id
  readOnly := readOnly
  distinct := listed_distinct store mailbox.id

/-- `SELECT` and `EXAMINE`; the flags tell which of the options `CONDSTORE` and
`QRESYNC` were named. -/
def handleSELECT (faults : Faults) (store : MailStore) (session : Session) (name : Bytes)
    (readOnly condstore qresync : Bool) : Outcome :=
  match lookupMailbox faults store session.pid name with
  | .failed | .sharedFailed => refuse store session (.taggedNO .none "select failed")
  | .missing => refuse store session (.taggedNO .nonexistent "mailbox not found")
  | .found mailbox =>
    if requireRights faults store session.pid mailbox (ACLRights.lookup ||| ACLRights.read) = false then
      refuse store session (.taggedNO .noPerm "insufficient rights to SELECT mailbox")
    else if faults .listMessages then refuse store session (.taggedNO .none "select failed")
    else
      let sel := selectMailbox store mailbox readOnly
      { store := store
        session :=
          { session with
            sel := some sel
            condstore := session.condstore || condstore || qresync
            qresync := session.qresync || qresync }
        responses :=
          [.existsCount sel.msgs.length,
            .taggedOK (if readOnly then .readOnly else .readWrite) "completed"] }

/-- `UNSELECT` and `CLOSE`. -/
def handleUNSELECT (store : MailStore) (session : Session) : Outcome :=
  match session.sel with
  | none => refuse store session notSelected
  | some _ =>
    { store := store, session := { session with sel := none }
      responses := [.taggedOK .none "completed"] }

/-- `ENABLE` with the tokens `CONDSTORE` and `QRESYNC`. -/
def handleENABLE (store : MailStore) (session : Session) (condstore qresync : Bool) : Outcome :=
  { store := store
    session :=
      { session with
        condstore := session.condstore || condstore || qresync
        qresync := session.qresync || qresync }
    responses := [.taggedOK .none "ENABLE completed"] }

def reloadSelected (faults : Faults) (store : MailStore) (sel : Selected) : Option Selected :=
  if faults .reload then none
  else
    (store.mailboxByID sel.id).map fun mailbox =>
      { sel with
        uidNext := mailbox.uidNext
        msgs := store.listAllMessages sel.id
        distinct := listed_distinct store sel.id }

def reloaded (faults : Faults) (store : MailStore) (sel : Selected) : Selected :=
  (reloadSelected faults store sel).getD sel

/-- `uidNext - 1` in 32 bits. -/
def highestIssued (uidNext : Nat) : Nat := (uidNext + 0xFFFFFFFF) % 0x100000000

/-- A message whose UID lies in the range, with `*` at the end read as the
highest UID given out. -/
def uidInRange (uidNext : Nat) (range : NumRange) (row : MessageMailbox) : Bool :=
  let stop := if range.stop = maxNumber then highestIssued uidNext else range.stop
  range.start ≤ row.uid ∧ row.uid ≤ stop

def positionsWhere (chosen : MessageMailbox → Bool) (msgs : List MessageMailbox) : List Nat :=
  (msgs.zipIdx 1).filterMap fun (row, seq) => if chosen row then some seq else none

def seqsInRange (count : Nat) (range : NumRange) : List Nat :=
  let stop := if range.stop = maxNumber then count else range.stop
  let start := if range.start = 0 then 1 else range.start
  List.range' start (min stop count + 1 - start)

def expandRanges (positions : NumRange → List Nat) : NumSet → List Nat → List Nat
  | [], out => out
  | range :: ranges, out =>
    expandRanges positions ranges (out ++ (positions range).filter fun seq => seq ∉ out)

/-- `expandSet`: the sequence numbers a set names, in the order it names them. -/
def expandSet (sel : Selected) (set : NumSet) (byUID : Bool) : List Nat :=
  if byUID then
    expandRanges (fun range => positionsWhere (uidInRange sel.uidNext range) sel.msgs) set []
  else expandRanges (seqsInRange sel.msgs.length) set []

theorem set_distinct (msgs : List MessageMailbox) (position : Nat) (row : MessageMailbox)
    (same : ∀ old, msgs[position]? = some old → row.messageID = old.messageID)
    (distinct : msgs.Pairwise fun left right => left.messageID ≠ right.messageID) :
    (msgs.set position row).Pairwise fun left right => left.messageID ≠ right.messageID := by
  have mapped : (msgs.set position row).map MessageMailbox.messageID =
      msgs.map MessageMailbox.messageID := by
    rw [List.map_set]
    cases old : msgs[position]? with
    | none =>
      rw [List.set_eq_of_length_le]
      rw [List.length_map]
      exact List.getElem?_eq_none_iff.mp old
    | some found =>
      rw [same found old]
      refine List.ext_getElem? ?_
      intro index
      by_cases here : position = index
      · subst here
        obtain ⟨inside, here⟩ := List.getElem?_eq_some_iff.mp old
        simp [inside, here]
      · simp [here]
  rw [← List.pairwise_map (f := MessageMailbox.messageID) (R := (· ≠ ·))] at distinct ⊢
  rw [mapped]
  exact distinct

/-- `ses.sel.msgs[seq-1] = updated`, for a message read back by its identifier. -/
def replaceAt (sel : Selected) (seq : Nat) (row : MessageMailbox)
    (same : ∀ old, sel.msgs[seq - 1]? = some old → row.messageID = old.messageID) : Selected :=
  { sel with
    msgs := sel.msgs.set (seq - 1) row
    distinct := set_distinct sel.msgs (seq - 1) row same sel.distinct }

inductive StoreOp where
  | set
  | add
  | del
  deriving DecidableEq

structure StoreCommand where
  set : NumSet
  isUID : Bool := false
  op : StoreOp
  flags : List Bytes
  silent : Bool := false
  unchangedSince : Nat := 0
  deriving DecidableEq

/-- `flagMaskFromNames`, for one name. -/
def flagOfName (name : Bytes) : MessageFlags :=
  if toLower name = ascii "\\seen" then .seen
  else if toLower name = ascii "\\answered" then .answered
  else if toLower name = ascii "\\flagged" then .flagged
  else if toLower name = ascii "\\deleted" then .deleted
  else if toLower name = ascii "\\draft" then .draft
  else if toLower name = ascii "\\recent" then .recent
  else 0

def flagMaskFromNames (names : List Bytes) : MessageFlags :=
  (names.map flagOfName).foldl (· ||| ·) 0

def keywordsFromNames (names : List Bytes) : List Bytes :=
  (names.filter fun name => !hasPrefix name (ascii "\\")).map toLower

def allKnownFlags : MessageFlags :=
  MessageFlags.seen ||| MessageFlags.answered ||| MessageFlags.flagged ||| MessageFlags.deleted |||
    MessageFlags.draft

/-- The right `requireStoreRights` asks for one named flag. -/
def rightOfName (name : Bytes) : ACLRights :=
  if toLower name = ascii "\\seen" then .seen
  else if toLower name = ascii "\\deleted" then .deleteMessage
  else .write

def storeNeed (names : List Bytes) : ACLRights := (names.map rightOfName).foldl (· ||| ·) 0

/-- `requireStoreRights`, true where the source returns no error. -/
def requireStoreRights (faults : Faults) (store : MailStore) (session : Session) (sel : Selected)
    (names : List Bytes) : Bool :=
  if faults .getMailboxByID then false
  else
    match store.mailboxByID sel.id with
    | none => false
    | some mailbox =>
      storeNeed names = 0 ∨ requireRights faults store session.pid mailbox (storeNeed names)

def containsCI (texts : List Bytes) (text : Bytes) : Bool :=
  texts.any fun other => toLower other = toLower text

def removeStringCI (texts : List Bytes) (text : Bytes) : List Bytes :=
  texts.filter fun other => toLower other ≠ toLower text

/-- What a `STORE` adds to and takes from one message. -/
structure Patch where
  addFlags : MessageFlags
  clearFlags : MessageFlags
  addKeywords : List Bytes
  clearKeywords : List Bytes
  deriving DecidableEq

/-- The keywords a replacing `STORE` clears: those the session's list shows on
the message, except the reminder's own and those named again. -/
def replacedKeywords (row : MessageMailbox) (names : List Bytes) : List Bytes :=
  (row.keywords.filter fun keyword =>
    !equalFold keyword snoozedKeyword &&
      !((keywordsFromNames names).map toLower).contains keyword).dedup

/-- The slice `clearKW` is shared by all messages of the command. -/
def initialClear (command : StoreCommand) : List Bytes :=
  match command.op with
  | .del => keywordsFromNames command.flags
  | _ => []

def patchFor (command : StoreCommand) (shared : List Bytes) (row : MessageMailbox) : Patch :=
  let mask := flagMaskFromNames command.flags
  let keywords := keywordsFromNames command.flags
  match command.op with
  | .set => ⟨mask, allKnownFlags &&& ~~~mask, keywords, replacedKeywords row command.flags⟩
  | .add => ⟨mask, 0, keywords, shared⟩
  | .del => ⟨0, mask, [], shared⟩

/-- `removeStringCI` works in place, so the shared slice is left with the
kept names at its front. -/
def overwriteFront (shared kept : List Bytes) : List Bytes := kept ++ shared.drop kept.length

/-- What happens to one message of a `STORE`, with the shared slice afterwards. -/
inductive StoreStep where
  | skipped
  | applied (store : MailStore) (sel : Selected) (shared : List Bytes) (responses : List Response)
  | rejected (store : MailStore) (shared : List Bytes) (uid : Nat)
  | stopped (store : MailStore) (response : Response)

structure Cleared where
  store : MailStore
  clearKeywords : List Bytes
  shared : List Bytes

/-- The clearing of the reminder that goes before the update of the flags. -/
def clearReminder (faults : Faults) (command : StoreCommand) (store : MailStore) (sel : Selected)
    (shared : List Bytes) (row : MessageMailbox) (patch : Patch) : Option Cleared :=
  if containsCI patch.clearKeywords snoozedKeyword ∧ row.snoozedUntil.isSome then
    if faults (.setSnooze row.messageID) then none
    else
      match store.setSnooze row.messageID sel.id none none with
      | .error _ => none
      | .ok store =>
        let kept := removeStringCI patch.clearKeywords snoozedKeyword
        some ⟨store, kept, if command.op = .set then shared else overwriteFront shared kept⟩
  else some ⟨store, patch.clearKeywords, shared⟩

section

variable (faults : Faults) (command : StoreCommand) (store : MailStore) (sel : Selected)
  (shared : List Bytes)

theorem get_message_id (message : MessageID) (row : MessageMailbox)
    (read : store.getMessage message = some row) : row.messageID = message := by
  have member := List.mem_of_mem_head? read
  rw [MailStore.messageRows, List.mem_insertionSort, List.mem_filter] at member
  exact of_decide_eq_true member.2

/-- The read-back after the update. A read that fails leaves the list as it was. -/
def readBack (faults : Faults) (command : StoreCommand) (store : MailStore) (sel : Selected)
    (shared : List Bytes) (seq : Nat) (row : MessageMailbox)
    (here : sel.msgs[seq - 1]? = some row) : StoreStep :=
  if faults (.getMessage row.messageID) then .applied store sel shared []
  else
    match read : store.getMessage row.messageID with
    | none => .applied store sel shared []
    | some updated =>
      .applied store
        (replaceAt sel seq updated fun old found => by
          rw [here, Option.some.injEq] at found
          rw [← found]
          exact get_message_id store row.messageID updated read)
        shared
        (if command.silent then []
        else [.fetch seq (if command.isUID then some updated.uid else none)
          (some (updated.flags, updated.keywords))])

/-- One round of the loop in `handleSTORE`. -/
def storeMessage (faults : Faults) (command : StoreCommand) (store : MailStore) (sel : Selected)
    (shared : List Bytes) (seq : Nat) : StoreStep :=
  if seq = 0 then .skipped
  else
    match here : sel.msgs[seq - 1]? with
    | none => .skipped
    | some row =>
      let patch := patchFor command shared row
      if containsCI patch.addKeywords snoozedKeyword ∧ row.snoozedUntil.isNone then
        .stopped store (.taggedBAD .snoozeDateMissing
          "$snoozed keyword requires a JMAP snoozedUntil; raw IMAP STORE cannot create a snooze")
      else
        match clearReminder faults command store sel shared row patch with
        | none => .stopped store (.taggedNO .none "store failed")
        | some cleared =>
          if faults (.updateMessageFlags row.messageID) then
            .stopped cleared.store (.taggedNO .none "store failed")
          else
            match cleared.store.updateMessageFlags row.messageID sel.id patch.addFlags
                patch.clearFlags patch.addKeywords cleared.clearKeywords
                command.unchangedSince with
            | .error .conflict => .rejected cleared.store cleared.shared row.uid
            | .error _ => .stopped cleared.store (.taggedNO .none "store failed")
            | .ok updated => readBack faults command updated sel cleared.shared seq row here

/-- The store between the clearing of the reminder and the update, and what is left to clear. -/
structure ReminderCleared (faults : Faults) (command : StoreCommand) (store : MailStore)
    (sel : Selected) (shared : List Bytes) (row : MessageMailbox) (cleared : Cleared) : Prop where
  outcome : cleared = ⟨store, (patchFor command shared row).clearKeywords, shared⟩ ∨
    (containsCI (patchFor command shared row).clearKeywords snoozedKeyword = true ∧
      store.setSnooze row.messageID sel.id none none = .ok cleared.store ∧
      cleared.clearKeywords = removeStringCI (patchFor command shared row).clearKeywords
        snoozedKeyword ∧
      cleared.shared = if command.op = .set then shared
        else overwriteFront shared cleared.clearKeywords)

theorem clear_reminder_cleared (row : MessageMailbox) (cleared : Cleared)
    (ok : clearReminder faults command store sel shared row (patchFor command shared row) =
      some cleared) : ReminderCleared faults command store sel shared row cleared := by
  unfold clearReminder at ok
  split at ok
  case isTrue due =>
    split at ok
    · simp at ok
    · split at ok
      · simp at ok
      · rename_i after set
        rw [Option.some.injEq] at ok
        subst ok
        exact ⟨Or.inr ⟨due.1, set, rfl, rfl⟩⟩
  case isFalse =>
    rw [Option.some.injEq] at ok
    exact ⟨Or.inl ok.symm⟩

theorem ReminderCleared.reminded {faults : Faults} {command : StoreCommand} {store : MailStore}
    {sel : Selected} {shared : List Bytes} {row : MessageMailbox} {cleared : Cleared}
    (done : ReminderCleared faults command store sel shared row cleared) :
    MailStore.Reminded row.messageID store cleared.store := by
  rcases done.outcome with same | ⟨_, set, _⟩
  · rw [same]
    exact MailStore.reminded_refl row.messageID store
  · exact MailStore.set_snooze_reminded store cleared.store row.messageID sel.id none none set

def ReadBackDone (faults : Faults) (command : StoreCommand) (store : MailStore) (sel after : Selected)
    (seq : Nat) (row : MessageMailbox) (responses : List Response) : Prop :=
  (after = sel ∧ responses = [] ∧
    (faults (.getMessage row.messageID) = true ∨ store.getMessage row.messageID = none)) ∨
  ∃ updated, store.getMessage row.messageID = some updated ∧
    after.id = sel.id ∧ after.uidNext = sel.uidNext ∧ after.readOnly = sel.readOnly ∧
    after.msgs = sel.msgs.set (seq - 1) updated ∧
    responses = if command.silent then []
      else [.fetch seq (if command.isUID then some updated.uid else none)
        (some (updated.flags, updated.keywords))]

def StoreRound (faults : Faults) (command : StoreCommand) (store : MailStore) (sel : Selected)
    (shared : List Bytes) (seq : Nat) : StoreStep → Prop
  | .skipped => True
  | .stopped after _ => ∃ row, sel.msgs[seq - 1]? = some row ∧
      (after = store ∨
        ∃ cleared, ReminderCleared faults command store sel shared row cleared ∧ after = cleared.store)
  | .rejected after shared' _ => ∃ row, sel.msgs[seq - 1]? = some row ∧
      ∃ cleared, ReminderCleared faults command store sel shared row cleared ∧
        after = cleared.store ∧ shared' = cleared.shared
  | .applied after sel' shared' responses => ∃ row, sel.msgs[seq - 1]? = some row ∧
      ∃ cleared modSeq, ReminderCleared faults command store sel shared row cleared ∧
        shared' = cleared.shared ∧
        MailStore.Flagged row.messageID sel.id
          (MailStore.flagUpdate (patchFor command shared row).addFlags
            (patchFor command shared row).clearFlags (patchFor command shared row).addKeywords
            cleared.clearKeywords modSeq) cleared.store after ∧
        ReadBackDone faults command after sel sel' seq row responses

theorem read_back_done (seq : Nat) (row : MessageMailbox) (here : sel.msgs[seq - 1]? = some row) :
    ∃ after responses, readBack faults command store sel shared seq row here =
        .applied store after shared responses ∧
      ReadBackDone faults command store sel after seq row responses := by
  unfold readBack
  split
  case isTrue faulted => exact ⟨sel, [], rfl, Or.inl ⟨rfl, rfl, Or.inl faulted⟩⟩
  case isFalse =>
    split
    case h_1 absent => exact ⟨sel, [], rfl, Or.inl ⟨rfl, rfl, Or.inr absent⟩⟩
    case h_2 updated read =>
      exact ⟨_, _, rfl, Or.inr ⟨updated, read, rfl, rfl, rfl, rfl, rfl⟩⟩

theorem store_message_round (seq : Nat) :
    StoreRound faults command store sel shared seq
      (storeMessage faults command store sel shared seq) := by
  unfold storeMessage
  split
  · trivial
  · split
    · trivial
    · rename_i row here
      simp only
      split
      · exact ⟨row, here, Or.inl rfl⟩
      · split
        · exact ⟨row, here, Or.inl rfl⟩
        · rename_i cleared ok
          have done := clear_reminder_cleared faults command store sel shared row cleared ok
          split
          · exact ⟨row, here, Or.inr ⟨cleared, done, rfl⟩⟩
          · split
            · exact ⟨row, here, cleared, done, rfl, rfl⟩
            · exact ⟨row, here, Or.inr ⟨cleared, done, rfl⟩⟩
            · rename_i updated flagged
              obtain ⟨after, responses, same, readBackDone⟩ :=
                read_back_done faults command updated sel cleared.shared seq row here
              obtain ⟨modSeq, flags⟩ := MailStore.update_message_flags_flagged _ _ _ _ _ _ _ _ _ flagged
              rw [same]
              exact ⟨row, here, cleared, modSeq, done, rfl, flags, readBackDone⟩

end

/-- The loop of `handleSTORE` over the sequence numbers, with those rejected so far. -/
def storeLoop (faults : Faults) (command : StoreCommand) :
    List Nat → List (Nat × Nat) → List Bytes → MailStore → Selected →
      MailStore × Selected × List Response
  | [], rejected, _, store, sel =>
    let answer := if rejected = [] then .taggedOK .none "completed"
      else .taggedOK (if command.isUID then .modifiedUIDs (rejected.map Prod.snd)
        else .modifiedSeqs (rejected.map Prod.fst)) "STORE conditional update partial"
    (store, sel, [answer])
  | seq :: seqs, rejected, shared, store, sel =>
    match storeMessage faults command store sel shared seq with
    | .skipped => storeLoop faults command seqs rejected shared store sel
    | .applied store sel shared responses =>
      let (store, sel, later) := storeLoop faults command seqs rejected shared store sel
      (store, sel, responses ++ later)
    | .rejected store shared uid =>
      storeLoop faults command seqs (rejected ++ [(seq, uid)]) shared store sel
    | .stopped store response => (store, sel, [response])

def handleSTORE (faults : Faults) (store : MailStore) (session : Session) (command : StoreCommand) :
    Outcome :=
  match session.sel with
  | none => refuse store session notSelected
  | some sel =>
    if requireStoreRights faults store session sel command.flags = false then
      refuse store session (.taggedNO .noPerm "insufficient rights to STORE flags")
    else
      let (after, sel, responses) :=
        storeLoop faults command (expandSet sel command.set command.isUID) []
          (initialClear command) store sel
      { store := after
        session :=
          { session with
            sel := some sel, condstore := session.condstore || command.unchangedSince ≠ 0 }
        responses := responses }

end Herold.Imap

import Herold.Imap.Session

/-!
# The commands of a session

`EXPUNGE`, `MOVE`, `COPY`, `APPEND`, `FETCH`, `DELETE` and the rounds of
`IDLE`, and the dispatch over all of them. A command runs to its end before the
next one is read; other sessions change the store between commands, and between
the rounds of an `IDLE`.
-/

namespace Herold.Imap

open Herold.Go Herold.Store

def isDeleted (row : MessageMailbox) : Bool := row.flags &&& MessageFlags.deleted ≠ 0

/-- `uidFilter`: the UIDs of the session's list that lie in a range of the set. -/
def uidFilter (sel : Selected) (isUID : Bool) (set : Option NumSet) : List Nat :=
  match isUID, set with
  | true, some set =>
    set.flatMap fun range =>
      (sel.msgs.filter (uidInRange sel.uidNext range)).map MessageMailbox.uid
  | _, _ => []

/-- The messages `EXPUNGE` collects: an empty filter keeps nothing out. -/
def expungeChosen (filter : List Nat) (row : MessageMailbox) : Bool :=
  isDeleted row ∧ (filter = [] ∨ row.uid ∈ filter)

def messagesWhere (chosen : MessageMailbox → Bool) (msgs : List MessageMailbox) :
    List (Nat × MessageMailbox) :=
  (msgs.zipIdx 1).filterMap fun (row, seq) => if chosen row then some (seq, row) else none

def emitGone (session : Session) (seqs : List Nat) (uids : List Nat) : List Response :=
  if session.qresync then
    if uids = [] then [] else [.vanished (uids.insertionSort (· ≤ ·))]
  else seqs.reverse.map .expunge

def handleEXPUNGE (faults : Faults) (store : MailStore) (session : Session) (isUID : Bool)
    (set : Option NumSet) : Outcome :=
  match session.sel with
  | none => refuse store session notSelected
  | some sel =>
    if faults .getMailboxByID then refuse store session (.taggedNO .none "expunge failed")
    else
      match store.mailboxByID sel.id with
      | none => refuse store session (.taggedNO .none "expunge failed")
      | some mailbox =>
        if requireRights faults store session.pid mailbox ACLRights.expunge = false then
          refuse store session (.taggedNO .noPerm "insufficient rights to EXPUNGE")
        else
          let victims := messagesWhere (expungeChosen (uidFilter sel isUID set)) sel.msgs
          let ids := victims.map fun victim => victim.2.messageID
          let expunged := if ids ≠ [] ∧ faults .expungeMessages then .error .failed
            else store.expungeMessages sel.id ids
          match expunged with
          | .error _ =>
            { store := store, session := session, handed := ids
              responses := [.taggedNO .none "expunge failed"] }
          | .ok after =>
            { store := after
              session := { session with sel := some (reloaded faults after sel) }
              handed := ids
              responses :=
                emitGone session (victims.map Prod.fst)
                  (victims.map fun victim => victim.2.uid) ++
                [.taggedOK .none "completed"] }

def withoutSnoozedKeyword (keywords : List Bytes) : List Bytes :=
  keywords.filter fun keyword => !equalFold keyword snoozedKeyword

/-- `copyTarget`: a moved message takes its reminder along, unless the move is
into a trash mailbox. -/
def copyTarget (faults : Faults) (store : MailStore) (row : MessageMailbox) (source : MailboxID)
    (dest : Mailbox) (isMove : Bool) : MailStore.Target :=
  let bare : MailStore.Target :=
    { mailboxID := dest.id, flags := row.flags, keywords := withoutSnoozedKeyword row.keywords }
  if containsCI row.keywords snoozedKeyword = false then { bare with keywords := row.keywords }
  else if isMove = false ∨ dest.trash ∨ faults (.getMessage row.messageID) then bare
  else
    match store.member? row.messageID source with
    | none => bare
    | some held =>
      if held.snoozedUntil.isSome then
        { bare with keywords := row.keywords, snoozedUntil := held.snoozedUntil
                    wakeMailboxID := held.wakeMailboxID }
      else bare

def messageAt (sel : Selected) (seq : Nat) : Option MessageMailbox :=
  if seq = 0 then none else sel.msgs[seq - 1]?

/-- The inserts of `COPY` and `MOVE`, with the UIDs the copies were given; no
list where an insert failed. -/
def copyLoop (faults : Faults) (pid : PrincipalID) (source : MailboxID) (dest : Mailbox)
    (isMove : Bool) : List MessageMailbox → Nat → MailStore → MailStore × Option (List Nat)
  | [], _, store => (store, some [])
  | row :: rows, position, store =>
    if faults (.insertMessage position) then (store, none)
    else
      match store.insertMessage pid row.flags (withoutSnoozedKeyword row.keywords) row.blobHash
          [copyTarget faults store row source dest isMove] with
      | .error _ => (store, none)
      | .ok (uid, store) =>
        let (store, uids) := copyLoop faults pid source dest isMove rows (position + 1) store
        (store, uids.map (uid :: ·))

inductive Destination where
  | found (mailbox : Mailbox)
  | missing
  | failed
  deriving DecidableEq

def lookupDestination (faults : Faults) (store : MailStore) (pid : PrincipalID) (name : Bytes) :
    Destination :=
  if faults .getMailboxByName then .failed
  else
    match store.mailboxByName pid (canonicalMailboxName name) with
    | some mailbox => .found mailbox
    | none => .missing

def finishMOVE (faults : Faults) (store : MailStore) (session : Session) (sel : Selected)
    (dest : Mailbox) (seqs : List Nat) (moved : List MessageMailbox) (uids : List Nat) : Outcome :=
  let ids := moved.map MessageMailbox.messageID
  let staged := .untaggedOK (.copyUID dest.uidValidity (moved.map MessageMailbox.uid) uids)
    "MOVE staged"
  let expunged := if faults .expungeMessages then .error .failed
    else store.expungeMessages sel.id ids
  match expunged with
  | .error _ =>
    { store := store, session := session, handed := ids
      responses := [staged, .taggedNO .none "move expunge failed"] }
  | .ok after =>
    { store := after
      session := { session with sel := some (reloaded faults after sel) }
      handed := ids
      responses := staged ::
        (emitGone session seqs (moved.map MessageMailbox.uid) ++ [.taggedOK .none "MOVE completed"]) }

def handleMOVE (faults : Faults) (store : MailStore) (session : Session) (set : NumSet)
    (isUID : Bool) (name : Bytes) : Outcome :=
  match session.sel with
  | none => refuse store session notSelected
  | some sel =>
    match lookupDestination faults store session.pid name with
    | .failed => refuse store session (.taggedNO .none "move failed")
    | .missing => refuse store session (.taggedNO .tryCreate "destination not found")
    | .found dest =>
      let seqs := expandSet sel set isUID
      if seqs = [] then refuse store session (.taggedOK .none "MOVE completed")
      else
        let moved := seqs.filterMap (messageAt sel)
        match copyLoop faults session.pid sel.id dest true moved 0 store with
        | (store, none) => refuse store session (.taggedNO .none "move failed")
        | (store, some uids) => finishMOVE faults store session sel dest seqs moved uids

def handleCOPY (faults : Faults) (store : MailStore) (session : Session) (set : NumSet)
    (isUID : Bool) (name : Bytes) : Outcome :=
  match session.sel with
  | none => refuse store session notSelected
  | some sel =>
    match lookupDestination faults store session.pid name with
    | .failed => refuse store session (.taggedNO .none "copy failed")
    | .missing => refuse store session (.taggedNO .tryCreate "destination not found")
    | .found dest =>
      let copied := (expandSet sel set isUID).filterMap (messageAt sel)
      match copyLoop faults session.pid sel.id dest false copied 0 store with
      | (store, none) => refuse store session (.taggedNO .none "copy failed")
      | (store, some uids) =>
        refuse store session <| .taggedOK
          (if copied = [] then .none
          else .copyUID dest.uidValidity (copied.map MessageMailbox.uid) uids) "COPY completed"

/-- The items of an `APPEND`, each with its blob and its flag names. An item
that fails leaves those before it in place: the rollback of `MULTIAPPEND` is
handed an empty list. -/
def appendLoop (faults : Faults) (pid : PrincipalID) (mailbox : MailboxID) :
    List (Bytes × List Bytes) → Nat → MailStore → MailStore × Except MailError (List Nat)
  | [], _, store => (store, .ok [])
  | (blobHash, names) :: items, position, store =>
    let flags := flagMaskFromNames names
    let keywords := withoutSnoozedKeyword (keywordsFromNames names)
    let inserted := if faults (.insertMessage position) then .error .failed
      else store.insertMessage pid flags keywords blobHash
        [{ mailboxID := mailbox, flags := flags, keywords := keywords }]
    match inserted with
    | .error cause => (store, .error cause)
    | .ok (uid, store) =>
      let (store, uids) := appendLoop faults pid mailbox items (position + 1) store
      (store, uids.map (uid :: ·))

def handleAPPEND (faults : Faults) (store : MailStore) (session : Session) (name : Bytes)
    (items : List (Bytes × List Bytes)) : Outcome :=
  match lookupMailbox faults store session.pid name with
  | .failed => refuse store session (.taggedNO .none "append failed")
  | .sharedFailed | .missing => refuse store session (.taggedNO .tryCreate "mailbox not found")
  | .found mailbox =>
    if requireRights faults store session.pid mailbox ACLRights.insert = false then
      refuse store session (.taggedNO .noPerm "insufficient rights to APPEND")
    else
      match appendLoop faults session.pid mailbox.id items 0 store with
      | (store, .error .quotaExceeded) => refuse store session (.taggedNO .overQuota "quota exceeded")
      | (store, .error _) => refuse store session (.taggedNO .none "append failed")
      | (store, .ok uids) =>
        refuse store session (.taggedOK (.appendUID mailbox.uidValidity uids) "APPEND completed")

def handleDELETE (faults : Faults) (store : MailStore) (session : Session) (name : Bytes) : Outcome :=
  match lookupDestination faults store session.pid name with
  | .failed | .missing => refuse store session (.taggedNO .nonexistent "mailbox not found")
  | .found mailbox =>
    if requireRights faults store session.pid mailbox ACLRights.deleteMailbox = false then
      refuse store session (.taggedNO .noPerm "insufficient rights to DELETE")
    else
      let deleted := if faults .deleteMailbox then .error .failed else store.deleteMailbox mailbox.id
      match deleted with
      | .error _ => refuse store session (.taggedNO .none "delete failed")
      | .ok after => refuse after session (.taggedOK .none "DELETE completed")

structure FetchCommand where
  set : NumSet
  isUID : Bool := false
  uid : Bool := false
  flags : Bool := false
  modSeq : Bool := false
  body : Bool := false
  changedSince : Nat := 0
  deriving DecidableEq

/-- The loop of `handleFETCH`: a body that cannot be read ends the command. -/
def fetchLoop (faults : Faults) (command : FetchCommand) (sel : Selected) :
    List Nat → List Response
  | [] => [.taggedOK .none "completed"]
  | seq :: seqs =>
    match messageAt sel seq with
    | none => fetchLoop faults command sel seqs
    | some row =>
      if 0 < command.changedSince ∧ row.modSeq ≤ command.changedSince then
        fetchLoop faults command sel seqs
      else if command.body ∧ faults (.getBlob row.messageID) then [.taggedNO .none "fetch"]
      else
        .fetch seq (if command.isUID ∨ command.uid then some row.uid else none)
          (if command.flags then some (row.flags, row.keywords) else none) ::
          fetchLoop faults command sel seqs

def handleFETCH (faults : Faults) (store : MailStore) (session : Session) (command : FetchCommand) :
    Outcome :=
  match session.sel with
  | none => refuse store session notSelected
  | some sel =>
    { store := store
      session :=
        { session with
          condstore := session.condstore || command.modSeq || command.changedSince ≠ 0 }
      responses := fetchLoop faults command sel (expandSet sel command.set command.isUID) }

/-- Entering `IDLE`: the cursor starts at the last change of the first page. -/
def startIDLE (faults : Faults) (store : MailStore) (session : Session) : Outcome :=
  match session.sel with
  | none => refuse store session notSelected
  | some _ =>
    let changes := if faults .readChangeFeed then []
      else store.readChangeFeedAll session.pid 0 10000
    { store := store
      session := { session with idle := some ((changes.getLast?.map StateChange.seq).getD 0) }
      responses := [] }

def relevant (mailbox : MailboxID) (op : ChangeOp) (change : StateChange) : Bool :=
  change.kind = .email ∧ (change.parentEntityID = 0 ∨ change.parentEntityID = mailbox) ∧ change.op = op

def reloadAndCount (faults : Faults) (store : MailStore) (due : Bool) (sel : Selected) :
    Selected × List Response :=
  if due = false then (sel, [])
  else
    match reloadSelected faults store sel with
    | none => (sel, [])
    | some sel => (sel, [.existsCount sel.msgs.length])

theorem find_idx_message (msgs : List MessageMailbox) (message : MessageID) (position : Nat)
    (found : msgs.findIdx? (fun row => row.messageID = message) = some position)
    (old : MessageMailbox) (here : msgs[position]? = some old) : message = old.messageID := by
  rw [List.findIdx?_eq_some_iff_getElem] at found
  obtain ⟨inside, matched, _⟩ := found
  rw [List.getElem?_eq_getElem inside, Option.some.injEq] at here
  rw [← here]
  exact (of_decide_eq_true matched).symm

/-- The report of one changed message. A message read through another mailbox is passed over. -/
def reportChanged (faults : Faults) (store : MailStore) (sel : Selected) (message : MessageID) :
    Selected × List Response :=
  if faults (.getMessage message) then (sel, [])
  else
    match read : store.getMessage message with
    | none => (sel, [])
    | some row =>
      if row.mailboxID ≠ sel.id then (sel, [])
      else
        match found : sel.msgs.findIdx? fun other => other.messageID = message with
        | none => (sel, [])
        | some position =>
          (replaceAt sel (position + 1) row fun old here => by
            rw [Nat.add_sub_cancel] at here
            rw [get_message_id store message row read]
            exact find_idx_message sel.msgs message position found old here,
          [.fetch (position + 1) (some row.uid) (some (row.flags, row.keywords))])

def reportAll (faults : Faults) (store : MailStore) :
    List MessageID → Selected → Selected × List Response
  | [], sel => (sel, [])
  | message :: messages, sel =>
    let first := reportChanged faults store sel message
    let later := reportAll faults store messages first.1
    (later.1, first.2 ++ later.2)

def pollIDLE (faults : Faults) (store : MailStore) (session : Session) (sel : Selected)
    (cursor : Nat) : Outcome :=
  if faults .readChangeFeed then { store := store, session := session, responses := [] }
  else
    let changes := store.readChangeFeedAll session.pid cursor 1024
    let grown := reloadAndCount faults store (changes.any (relevant sel.id .created)) sel
    let shrunk := reloadAndCount faults store (changes.any (relevant sel.id .destroyed)) grown.1
    let changed := (changes.filter (relevant sel.id .updated)).map StateChange.entityID
    let reported := reportAll faults store changed shrunk.1
    { store := store
      session :=
        { session with
          sel := some reported.1
          idle := some ((changes.getLast?.map StateChange.seq).getD cursor) }
      responses := grown.2 ++ shrunk.2 ++ reported.2 }

inductive Command where
  | noop
  | select (name : Bytes) (readOnly condstore qresync : Bool)
  | unselect
  | enable (condstore qresync : Bool)
  | fetch (command : FetchCommand)
  | search
  | store (command : StoreCommand)
  | expunge
  | uidExpunge (set : NumSet)
  | move (set : NumSet) (isUID : Bool) (name : Bytes)
  | copy (set : NumSet) (isUID : Bool) (name : Bytes)
  | append (name : Bytes) (items : List (Bytes × List Bytes))
  | delete (name : Bytes)
  | idle
  | poll
  | done
  deriving DecidableEq

/-- `dispatch`. A session in `IDLE` takes only the rounds of its poll loop and
the line `DONE`, which no other session takes. -/
def dispatch (faults : Faults) (store : MailStore) (session : Session) (command : Command) :
    Option Outcome :=
  match session.idle, command with
  | some cursor, .poll =>
    session.sel.map fun sel => pollIDLE faults store session sel cursor
  | some _, .done =>
    some { store := store, session := { session with idle := none }
           responses := [.taggedOK .none "IDLE terminated"] }
  | some _, _ => none
  | none, .poll => none
  | none, .done => none
  | none, .noop => some (refuse store session (.taggedOK .none "NOOP completed"))
  | none, .select name readOnly condstore qresync =>
    some (handleSELECT faults store session name readOnly condstore qresync)
  | none, .unselect => some (handleUNSELECT store session)
  | none, .enable condstore qresync => some (handleENABLE store session condstore qresync)
  | none, .fetch command => some (handleFETCH faults store session command)
  | none, .search =>
    some (if session.sel.isNone then refuse store session notSelected
    else refuse store session (.taggedOK .none "SEARCH completed"))
  | none, .store command => some (handleSTORE faults store session command)
  | none, .expunge => some (handleEXPUNGE faults store session false none)
  | none, .uidExpunge set => some (handleEXPUNGE faults store session true (some set))
  | none, .move set isUID name => some (handleMOVE faults store session set isUID name)
  | none, .copy set isUID name => some (handleCOPY faults store session set isUID name)
  | none, .append name items => some (handleAPPEND faults store session name items)
  | none, .delete name => some (handleDELETE faults store session name)
  | none, .idle => some (startIDLE faults store session)

end Herold.Imap

import Herold.Import.Account
import Herold.Import.Folder

/-!
# An account and its upstream folders

The upstream server has folders, each with a UIDVALIDITY and the messages by UID.
The importer fetches messages and records where it put them, removes what is gone
upstream at the end of a pass, and writes flag changes, moves and deletions back.
What was mirrored from where is kept beside the rows, for the statements only.
-/

namespace Herold.Import

open Herold.Go Herold.Store Herold.Machine

structure UpstreamFolder where
  validity : Nat
  snapshot : Snapshot

def Snapshot.has (snapshot : Snapshot) (uid : Nat) : Bool :=
  snapshot.messages.any fun message => message.uid = uid

/-- An upstream message was mirrored into a mailbox as a message of the store. -/
structure Mirroring where
  folder : Bytes
  validity : Nat
  uid : Nat
  messageID : MessageID
  mailboxID : MailboxID
  deriving DecidableEq

structure Site where
  upstream : Bytes → UpstreamFolder
  cursor : Bytes → Option Nat := fun _ => none
  /-- `massExpungeStreak`. -/
  streak : Bytes → Nat := fun _ => 0
  rows : List MessageState := []
  mirrored : List Mirroring := []

def assign {Value : Type} (values : Bytes → Value) (folder : Bytes) (value : Value) : Bytes → Value :=
  fun other => if other = folder then value else values other

/-- Where `ingestMessage` put a message; a message placed into Junk leaves the
mailboxes it is stripped of. -/
structure Placement where
  messageID : MessageID
  mailboxID : MailboxID
  mappedMailboxID : MailboxID
  synced : SyncedFlags := {}
  stripped : List MailboxID := []
  recorded : Bool := true
  deriving DecidableEq

def MessageState.divergent (row : MessageState) : Bool :=
  row.mappedMailboxID ≠ 0 && row.mappedMailboxID ≠ row.mailboxID

/-- `removeMessageStateMembership` on the rows. -/
def removeMessageStateMembership (rows : List MessageState) (row : MessageState) : List MessageState :=
  if row.divergent then rows else deleteState rows row.folder row.uid

/-- `stripInboxMembershipsForJunk` on the rows. -/
def stripInboxMemberships (rows : List MessageState) (placement : Placement) : List MessageState :=
  rows.filter fun row => row.messageID ≠ placement.messageID ||
    !placement.stripped.contains row.mailboxID

/-- One message of `fetchAndIngest`, or of the down-sync where it is deleted; no
placement stands for a failure. -/
def Site.fetch (site : Site) (folder : Bytes) (message : UpstreamMessage)
    (placement : Option Placement) : Site :=
  if message.deleted then
    match getState site.rows folder message.uid with
    | some row => { site with rows := removeMessageStateMembership site.rows row }
    | none => site
  else match placement with
    | none => site
    | some placement =>
      let rows := stripInboxMemberships site.rows placement
      { site with
        rows := if placement.recorded then
            upsertState rows ⟨folder, message.uid, placement.messageID, placement.mailboxID,
              placement.mappedMailboxID, placement.synced⟩
          else rows
        mirrored := ⟨folder, (site.upstream folder).validity, message.uid, placement.messageID,
          placement.mailboxID⟩ :: site.mirrored }

def massExpungeGuardMinTracked : Nat := 20

def massExpungeConfirmPasses : Nat := 2

def Site.tracked (site : Site) (folder : Bytes) : List MessageState :=
  site.rows.filter fun row => row.folder = folder

def Site.missing (site : Site) (folder : Bytes) : List MessageState :=
  (site.tracked folder).filter fun row => !(site.upstream folder).snapshot.has row.uid

/-- More than half of the rows are missing, in a folder of some size. -/
def Site.suspect (site : Site) (folder : Bytes) : Bool :=
  massExpungeGuardMinTracked ≤ (site.tracked folder).length &&
    (site.tracked folder).length < 2 * (site.missing folder).length

def Site.defers (site : Site) (folder : Bytes) : Bool :=
  site.suspect folder && site.streak folder + 1 < massExpungeConfirmPasses

def Site.removals (site : Site) (folder : Bytes) : List MessageState :=
  if site.defers folder then [] else (site.missing folder).filter fun row => !row.divergent

def Site.reconcileExpungedMessages (site : Site) (folder : Bytes) : Site :=
  if (site.tracked folder).isEmpty then site
  else if site.defers folder then
    { site with streak := assign site.streak folder (site.streak folder + 1) }
  else
    { site with
      streak := assign site.streak folder 0
      rows := (site.missing folder).foldl removeMessageStateMembership site.rows }

/-- The end of a pass. The rows are reconciled where the folder had a cursor of its
UIDVALIDITY. -/
def Site.settle (site : Site) (folder : Bytes) (reconciles : Bool) : Site :=
  let validity := (site.upstream folder).validity
  let settled := if reconciles && site.cursor folder = some validity then
    site.reconcileExpungedMessages folder else site
  { settled with cursor := assign settled.cursor folder (some validity) }

/-- What `reconcileMessageFlags` meets: the flags in the store, which folders can be
selected, the upstream flags, which STORE commands succeed, and the flags the store
takes over. -/
structure FlagAnswers where
  herold : SyncedFlags
  selects : MessageState → Bool
  fetched : MessageState → Option SyncedFlags
  storesSeen : MessageState → Bool
  storesFlagged : MessageState → Bool
  applied : SyncedFlags

def statesOf (rows : List MessageState) (message : MessageID) : List MessageState :=
  rows.filter fun row => row.messageID = message

def flagViews (answers : FlagAnswers) (rows : List MessageState) : List (MessageState × SyncedFlags) :=
  rows.filterMap fun row =>
    if answers.selects row then (answers.fetched row).map fun flags => (row, flags) else none

/-- The folder that is selected after the flags of all rows are fetched: each row's
folder is selected in turn, and none of them again for the STORE commands. -/
def selectedAfter (answers : FlagAnswers) (rows : List MessageState) : Option Bytes :=
  rows.foldl (fun _ row => if answers.selects row then some row.folder else none) none

def pushedViews (answers : FlagAnswers) (rows : List MessageState) :
    List (MessageState × SyncedFlags) :=
  (flagViews answers rows).filter fun view =>
    answers.herold ≠ view.1.lastSynced && view.2 = view.1.lastSynced

/-- `pushFlagsToUpstream` in the selected folder. -/
def pushFlagsToUpstream (answers : FlagAnswers) (selected : Bytes) (row : MessageState) :
    List Command :=
  let store (set : SyncedFlags → Bool) (only : SyncedFlags) : Command :=
    ⟨row.messageID, selected, row.uid,
      if set answers.herold then .storeFlags only {} else .storeFlags {} only⟩
  if answers.storesSeen row then
    [store SyncedFlags.seen { seen := true }, store SyncedFlags.flagged { flagged := true }]
  else [store SyncedFlags.seen { seen := true }]

def flagCommands (answers : FlagAnswers) (rows : List MessageState) : List Command :=
  match selectedAfter answers rows with
  | none => []
  | some selected => (pushedViews answers rows).flatMap fun view =>
    pushFlagsToUpstream answers selected view.1

/-- The rows that `reconcileMessageFlags` writes: those pushed, then those whose
upstream flags changed. -/
def flagUpdates (answers : FlagAnswers) (rows : List MessageState) : List MessageState :=
  ((pushedViews answers rows).filter fun view =>
      answers.storesSeen view.1 && answers.storesFlagged view.1).map
    (fun view => { view.1 with lastSynced := answers.herold }) ++
  ((flagViews answers rows).filter fun view => view.2 ≠ view.1.lastSynced).map
    (fun view => { view.1 with lastSynced := answers.applied })

def Site.reconcileMessageFlags (site : Site) (message : MessageID) (answers : FlagAnswers) : Site :=
  { site with rows := (flagUpdates answers (statesOf site.rows message)).foldl upsertState site.rows }

/-- What `writeBackMove` meets: the mailbox and the folder the message is now in
where the mailbox of the row is no longer one of its own, whether the folder can be
selected, whether it is created and the command sent once more, and whether the
move succeeds. -/
structure MoveAnswers where
  destination : Option (MailboxID × Bytes)
  selects : Bool
  retries : Bool
  succeeds : Bool
  deriving DecidableEq

theorem filter_numbered (snapshot : Snapshot) (keeps : UpstreamMessage → Bool) :
    ∀ message ∈ snapshot.messages.filter keeps, 0 < message.uid ∧ message.uid < snapshot.uidNext := by
  intro message member
  exact snapshot.numbered message (List.mem_filter.mp member).1

def Snapshot.without (snapshot : Snapshot) (uid : Nat) : Snapshot where
  messages := snapshot.messages.filter fun message => message.uid ≠ uid
  uidNext := snapshot.uidNext
  numbered := filter_numbered snapshot _
  distinct := snapshot.distinct.filter _

def Snapshot.freshUid (snapshot : Snapshot) : Nat := max 1 snapshot.uidNext

theorem delivered_numbered (snapshot : Snapshot) (message : UpstreamMessage) :
    ∀ other ∈ snapshot.messages ++ [{ message with uid := snapshot.freshUid }],
      0 < other.uid ∧ other.uid < snapshot.freshUid + 1 := by
  intro other member
  rcases List.mem_append.mp member with old | new
  · have bounds := snapshot.numbered other old
    unfold Snapshot.freshUid
    omega
  · rw [List.mem_singleton.mp new]
    simp only [Snapshot.freshUid]
    omega

theorem delivered_distinct (snapshot : Snapshot) (message : UpstreamMessage) :
    (snapshot.messages ++ [{ message with uid := snapshot.freshUid }]).Pairwise
      fun left right : UpstreamMessage => left.uid ≠ right.uid := by
  rw [List.pairwise_append]
  refine ⟨snapshot.distinct, List.pairwise_singleton _ _, ?_⟩
  intro left old right new
  rw [List.mem_singleton.mp new]
  have bounds := snapshot.numbered left old
  simp only [Snapshot.freshUid]
  omega

def Snapshot.deliver (snapshot : Snapshot) (message : UpstreamMessage) : Snapshot where
  messages := snapshot.messages ++ [{ message with uid := snapshot.freshUid }]
  uidNext := snapshot.freshUid + 1
  numbered := delivered_numbered snapshot message
  distinct := delivered_distinct snapshot message

def Snapshot.empty : Snapshot where
  messages := []
  uidNext := 1
  numbered _ member := absurd member List.not_mem_nil
  distinct := List.Pairwise.nil

/-- What UID MOVE does to the server: the message gets a new UID in the other
folder, and stays the message that it was. -/
def Site.moveUpstream (site : Site) (source destination : Bytes) (uid : Nat) : Site :=
  match (site.upstream source).snapshot.messages.find? fun message => message.uid = uid with
  | none => site
  | some message =>
    let old := site.upstream source
    let new := site.upstream destination
    { site with
      upstream := assign (assign site.upstream source { old with snapshot := old.snapshot.without uid })
        destination { new with snapshot := new.snapshot.deliver message }
      mirrored := (site.mirrored.filter fun record =>
          record.folder = source && record.validity = old.validity && record.uid = uid).map
            (fun record => { record with
              folder := destination, validity := new.validity, uid := new.snapshot.freshUid })
        ++ site.mirrored }

def moveTarget (answers : MoveAnswers) (row : MessageState) : Option (MailboxID × Bytes) :=
  answers.destination.filter fun target => answers.selects && target.2 ≠ row.folder

def moveCommands (answers : MoveAnswers) (row : MessageState) : List Command :=
  match moveTarget answers row with
  | none => []
  | some target =>
    let command : Command := ⟨row.messageID, row.folder, row.uid, .move target.2⟩
    if answers.retries then [command, command] else [command]

/-- `writeBackMove`. The row is written under the new folder with the UID that the
message had in the old one. -/
def Site.writeBackMove (site : Site) (answers : MoveAnswers) (row : MessageState) : Site :=
  match moveTarget answers row with
  | none => site
  | some target =>
    if answers.succeeds then
      let moved := site.moveUpstream row.folder target.2 row.uid
      let renamed := { row with folder := target.2, mailboxID := target.1 }
      { moved with rows := upsertState moved.rows renamed }
    else site

inductive SiteEvent where
  | change (folder : Bytes) (next : UpstreamFolder)
  | fetch (folder : Bytes) (message : UpstreamMessage) (placement : Option Placement)
  | settle (folder : Bytes) (reconciles : Bool)
  | flags (message : MessageID) (answers : FlagAnswers)
  /-- Write-back handles a feed row that says the message was updated. -/
  | updated (message : MessageID) (flags : FlagAnswers) (move : MoveAnswers)
  /-- Write-back handles a feed row that says the message was destroyed. -/
  | destroyed (message : MessageID) (answers : DestroyAnswers)

/-- `processWriteBack` on an update: the row is read before the flags are written. -/
def Site.processUpdate (site : Site) (message : MessageID) (flags : FlagAnswers)
    (move : MoveAnswers) : Site :=
  match stateByMessage site.rows message with
  | none => site
  | some row => (site.reconcileMessageFlags message flags).writeBackMove move row

/-- The server keeps the UIDs it gave out, or takes a new UIDVALIDITY. -/
def Succeeds (old new : UpstreamFolder) : Prop :=
  (new.validity = old.validity ∧ Evolves old.snapshot new.snapshot) ∨ old.validity < new.validity

instance (old new : UpstreamFolder) : Decidable (Succeeds old new) :=
  inferInstanceAs (Decidable (_ ∨ _))

def Site.machine : Machine Site SiteEvent where
  step site
    | .change folder next =>
      if Succeeds (site.upstream folder) next then
        some { site with upstream := assign site.upstream folder next }
      else none
    | .fetch folder message placement =>
      if message ∈ (site.upstream folder).snapshot.messages then
        some (site.fetch folder message placement)
      else none
    | .settle folder reconciles => some (site.settle folder reconciles)
    | .flags message answers => some (site.reconcileMessageFlags message answers)
    | .updated message flags move => some (site.processUpdate message flags move)
    | .destroyed _ _ => some site

def Site.commands (account : Account) (site : Site) : SiteEvent → List Command
  | .flags message answers => flagCommands answers (statesOf site.rows message)
  | .updated message flags move =>
    match stateByMessage site.rows message with
    | none => []
    | some row => flagCommands flags (statesOf site.rows message) ++ moveCommands move row
  | .destroyed message answers =>
    match stateByMessage site.rows message with
    | none => []
    | some row => writeBackDestroy account answers row message
  | _ => []

section Rows

variable {rows : List MessageState} {row : MessageState}

theorem has_key_iff {folder : Bytes} {uid : Nat} :
    row.hasKey folder uid = true ↔ row.folder = folder ∧ row.uid = uid := by
  simp [MessageState.hasKey]

theorem mem_upsert {new : MessageState} (member : row ∈ upsertState rows new) :
    row = new ∨ (row ∈ rows ∧ ¬(row.folder = new.folder ∧ row.uid = new.uid)) := by
  rcases List.mem_append.mp member with old | added
  · obtain ⟨known, apart⟩ := List.mem_filter.mp old
    right
    refine ⟨known, fun same => ?_⟩
    rw [has_key_iff.mpr same] at apart
    cases apart
  · exact Or.inl (List.mem_singleton.mp added)

theorem mem_upserts {updates : List MessageState} (member : row ∈ updates.foldl upsertState rows) :
    row ∈ updates ∨ row ∈ rows := by
  induction updates generalizing rows with
  | nil => exact Or.inr member
  | cons update updates ih =>
    rcases ih member with later | now
    · exact Or.inl (List.mem_cons_of_mem _ later)
    · rcases mem_upsert now with rfl | ⟨old, _⟩
      · exact Or.inl List.mem_cons_self
      · exact Or.inr old

theorem mem_removed {other : MessageState} (member : row ∈ removeMessageStateMembership rows other) :
    row ∈ rows := by
  unfold removeMessageStateMembership at member
  split at member
  · exact member
  · exact (List.mem_filter.mp member).1

theorem mem_deleted_all {gone : List MessageState}
    (member : row ∈ gone.foldl (fun rows other => deleteState rows other.folder other.uid) rows) :
    row ∈ rows := by
  induction gone generalizing rows with
  | nil => exact member
  | cons other gone ih => exact (List.mem_filter.mp (ih member)).1

theorem mem_flag_views {answers : FlagAnswers} {view : MessageState × SyncedFlags}
    (member : view ∈ flagViews answers rows) : view.1 ∈ rows := by
  obtain ⟨known, present, viewed⟩ := List.mem_filterMap.mp member
  split at viewed
  · obtain ⟨flags, _, rfl⟩ := Option.map_eq_some_iff.mp viewed
    exact present
  · cases viewed

theorem mem_pushed_views {answers : FlagAnswers} {view : MessageState × SyncedFlags}
    (member : view ∈ pushedViews answers rows) : view.1 ∈ rows :=
  mem_flag_views (List.mem_filter.mp member).1

theorem mem_flag_updates {answers : FlagAnswers} {update : MessageState}
    (member : update ∈ flagUpdates answers rows) :
    ∃ row ∈ rows, ∃ synced, update = { row with lastSynced := synced } := by
  rcases List.mem_append.mp member with pushed | proposed
  · obtain ⟨view, present, rfl⟩ := List.mem_map.mp pushed
    exact ⟨view.1, mem_pushed_views (List.mem_filter.mp present).1, _, rfl⟩
  · obtain ⟨view, present, rfl⟩ := List.mem_map.mp proposed
    exact ⟨view.1, mem_flag_views (List.mem_filter.mp present).1, _, rfl⟩

end Rows

theorem reconciled_row {site : Site} {message : MessageID} {answers : FlagAnswers} {row : MessageState}
    (member : row ∈ (site.reconcileMessageFlags message answers).rows) :
    ∃ old ∈ site.rows, ∃ synced, row = { old with lastSynced := synced } := by
  rcases mem_upserts member with update | old
  · obtain ⟨known, present, synced, same⟩ := mem_flag_updates update
    exact ⟨known, (List.mem_filter.mp present).1, synced, same⟩
  · exact ⟨row, old, row.lastSynced, rfl⟩

/-- What a reconciliation deletes are the removals. -/
theorem reconcile_rows (site : Site) (folder : Bytes) :
    (site.reconcileExpungedMessages folder).rows =
      (site.removals folder).foldl (fun rows row => deleteState rows row.folder row.uid) site.rows := by
  unfold Site.reconcileExpungedMessages Site.removals
  split
  case isTrue bare =>
    have nothing : site.missing folder = [] := by
      rw [Site.missing, List.isEmpty_iff.mp bare, List.filter_nil]
    simp [nothing]
  case isFalse =>
    split
    · rfl
    · rw [List.foldl_filter]
      show (site.missing folder).foldl removeMessageStateMembership site.rows = _
      congr 1
      funext rows row
      unfold removeMessageStateMembership
      cases row.divergent with
      | true => rfl
      | false => rfl

theorem settled_rows {site : Site} {folder : Bytes} {reconciles : Bool} {row : MessageState}
    (member : row ∈ (site.settle folder reconciles).rows) : row ∈ site.rows := by
  simp only [Site.settle] at member
  split at member
  · rw [reconcile_rows] at member
    exact mem_deleted_all member
  · exact member

theorem settle_upstream (site : Site) (folder : Bytes) (reconciles : Bool) :
    (site.settle folder reconciles).upstream = site.upstream ∧
      (site.settle folder reconciles).mirrored = site.mirrored := by
  simp only [Site.settle]
  split
  · unfold Site.reconcileExpungedMessages
    split
    · exact ⟨rfl, rfl⟩
    · split
      · exact ⟨rfl, rfl⟩
      · exact ⟨rfl, rfl⟩
  · exact ⟨rfl, rfl⟩

theorem fetch_step {site : Site} {folder : Bytes} {message : UpstreamMessage}
    (placement : Option Placement) (present : message ∈ (site.upstream folder).snapshot.messages) :
    Site.machine.step site (.fetch folder message placement) =
      some (site.fetch folder message placement) := if_pos present

theorem fetch_cases (site : Site) (folder : Bytes) (message : UpstreamMessage)
    (placement : Option Placement) :
    ((site.fetch folder message placement).mirrored = site.mirrored ∧
      ∀ row ∈ (site.fetch folder message placement).rows, row ∈ site.rows) ∨
    ∃ placed, placement = some placed ∧ message.deleted = false ∧
      (site.fetch folder message placement).mirrored = ⟨folder, (site.upstream folder).validity,
        message.uid, placed.messageID, placed.mailboxID⟩ :: site.mirrored ∧
      ∀ row ∈ (site.fetch folder message placement).rows,
        row = ⟨folder, message.uid, placed.messageID, placed.mailboxID, placed.mappedMailboxID,
          placed.synced⟩ ∨ row ∈ site.rows := by
  unfold Site.fetch
  by_cases deleted : message.deleted = true
  · left
    rw [if_pos deleted]
    split
    · exact ⟨rfl, fun row member => mem_removed member⟩
    · exact ⟨rfl, fun row member => member⟩
  · rw [if_neg deleted]
    cases placement with
    | none => exact Or.inl ⟨rfl, fun row member => member⟩
    | some placed =>
      refine Or.inr ⟨placed, rfl, by simpa using deleted, rfl, ?_⟩
      intro row member
      simp only at member
      split at member
      · rcases mem_upsert member with new | ⟨old, _⟩
        · exact Or.inl new
        · exact Or.inr (List.mem_filter.mp old).1
      · exact Or.inr (List.mem_filter.mp member).1

theorem fetch_upstream (site : Site) (folder : Bytes) (message : UpstreamMessage)
    (placement : Option Placement) :
      (site.fetch folder message placement).upstream = site.upstream := by
  unfold Site.fetch
  split
  · split
    · rfl
    · rfl
  · split
    · rfl
    · rfl

end Herold.Import

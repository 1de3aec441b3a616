import Herold.Import.Account
import Herold.Jmap.Cache

/-!
# What write-back deletes upstream

Write-back deletes an upstream message when the feed has a row that says the
message was destroyed. The store writes such a row for every membership that goes,
so the row means that the message is gone only where the membership was its last.
-/

namespace Herold.Import

open Herold.Go Herold.Store Herold.Machine Herold.Store.Tables Herold.Jmap

structure Mirror where
  tables : Tables
  rows : List MessageState := []

inductive Event where
  | transact (operation : Operation)
  | record (row : MessageState)
  | forget (folder : Bytes) (uid : Nat)

def Mirror.machine : Machine Mirror Event where
  step mirror
    | .transact operation =>
      some { mirror with tables := committed mirror.tables (operation.apply mirror.tables) }
    | .record row => some { mirror with rows := upsertState mirror.rows row }
    | .forget folder uid => some { mirror with rows := deleteState mirror.rows folder uid }

def IsDeath (owner : PrincipalID) (row : FeedRow) : Prop :=
  row.change.principalID = owner ∧ row.change.kind = .email ∧ row.change.op = .destroyed

def Gone (tables : Tables) (id : MessageID) : Prop :=
  id < tables.nextMessageID ∧ ∀ row ∈ tables.messages, row.id ≠ id

structure Truthful (owner : PrincipalID) (tables : Tables) : Prop where
  messages : ∀ row ∈ tables.messages, row.id < tables.nextMessageID
  members : ∀ filing ∈ tables.members, filing.messageID < tables.nextMessageID
  deaths : ∀ row ∈ tables.changes, IsDeath owner row → Gone tables row.change.entityID

def FiledOnlyIn (tables : Tables) (message : MessageID) (mailbox : MailboxID) : Prop :=
  ∀ filing ∈ tables.members, filing.messageID = message → filing.mailboxID = mailbox

/-- A step that writes a death for the principal only with the last membership of
the message. Adding takes a message out of the trash, and removing from the trash
puts it back where it was. -/
def EndsLast (owner : PrincipalID) (mirror : Mirror) : Event → Prop
  | .transact (.write (.add message mailbox)) =>
    (∀ row, mirror.tables.message? message = some row → row.principalID ≠ owner) ∨
      mirror.tables.isTrash mailbox = true ∨ ∀ filing ∈ mirror.tables.members,
        filing.messageID = message → mirror.tables.isTrash filing.mailboxID = false
  | .transact (.write (.remove message mailbox)) =>
    (∀ row, mirror.tables.message? message = some row → row.principalID ≠ owner) ∨
      (FiledOnlyIn mirror.tables message mailbox ∧ (mirror.tables.isTrash mailbox = true →
        ∀ place ∈ mirror.tables.snapshotOf message, mirror.tables.mailbox? place = none))
  | .transact (.write (.expunge mailbox messages)) =>
    (∀ box, mirror.tables.mailbox? mailbox = some box → box.principalID ≠ owner) ∨
      ∀ message ∈ messages, (mirror.tables.membership? message mailbox).isSome →
        FiledOnlyIn mirror.tables message mailbox
  | _ => True

structure Grown (before after : Tables) (entries : List FeedRow) : Prop where
  changes : after.changes = logged before.changes entries
  next : before.nextMessageID ≤ after.nextMessageID
  messages : ∀ row ∈ after.messages, row.id < after.nextMessageID ∧
    (row.id < before.nextMessageID → ∃ old ∈ before.messages, old.id = row.id)
  members : ∀ filing ∈ after.members, filing.messageID < after.nextMessageID

theorem truthful_grown {owner : PrincipalID} {before after : Tables} {entries : List FeedRow}
    (truthful : Truthful owner before) (grown : Grown before after entries)
    (deaths : ∀ entry ∈ entries, IsDeath owner entry → Gone after entry.change.entityID) :
    Truthful owner after := by
  refine ⟨fun row member => (grown.messages row member).1, grown.members, ?_⟩
  intro row member death
  obtain ⟨written, same, alike⟩ := logged_rows before.changes entries
  rw [grown.changes, same] at member
  rcases List.mem_append.mp member with old | new
  · obtain ⟨small, gone⟩ := truthful.deaths row old death
    refine ⟨Nat.lt_of_lt_of_le small grown.next, ?_⟩
    intro other otherMember equal
    obtain ⟨earlier, earlierMember, sameID⟩ :=
      (grown.messages other otherMember).2 (equal ▸ small)
    exact gone earlier earlierMember (sameID.trans equal)
  · obtain ⟨entry, entryMember, _, change⟩ := forall_across alike new
    unfold IsDeath at death
    rw [change] at death ⊢
    exact deaths entry entryMember death

theorem grown_footprint {message : MessageID} {before after : Tables} {entries : List FeedRow}
    {owner : PrincipalID} (truthful : Truthful owner before) (known : message < before.nextMessageID)
    (footprint : Footprint message before after entries) : Grown before after entries := by
  refine ⟨footprint.changes, Nat.le_of_eq footprint.nextMessageID.symm, ?_, ?_⟩
  · intro row member
    have was := footprint.fewer.subset member
    rw [footprint.nextMessageID]
    exact ⟨truthful.messages row was, fun _ => ⟨row, was, rfl⟩⟩
  · intro filing member
    rw [footprint.nextMessageID]
    by_cases here : filing.messageID = message
    · rw [here]
      exact known
    · have listed : filing ∈ rowsOf after filing.messageID := mem_rows_of.mpr ⟨member, rfl⟩
      rw [footprint.members _ here] at listed
      exact truthful.members filing (mem_rows_of.mp listed).1

theorem truthful_silent {message : MessageID} {before after : Tables} {entries : List FeedRow}
    {owner : PrincipalID} (truthful : Truthful owner before) (known : message < before.nextMessageID)
    (footprint : Footprint message before after entries)
    (silent : ∀ entry ∈ entries, entry.change.op ≠ .destroyed) : Truthful owner after := by
  apply truthful_grown truthful (grown_footprint truthful known footprint)
  intro entry member death
  exact absurd death.2.2 (silent entry member)

theorem member_known {owner : PrincipalID} {tables : Tables} (truthful : Truthful owner tables)
    {message : MessageID} {mailbox : MailboxID} {row : Membership}
    (found : tables.membership? message mailbox = some row) : message < tables.nextMessageID := by
  obtain ⟨member, here, _⟩ := membership_found found
  exact here ▸ truthful.members row member

theorem message_known {owner : PrincipalID} {tables : Tables} (truthful : Truthful owner tables)
    {message : MessageID} {row : MessageRow} (found : tables.message? message = some row) :
    message < tables.nextMessageID := by
  have member := List.mem_of_find?_eq_some found
  have same : row.id = message := by simpa using List.find?_some found
  exact same ▸ truthful.messages row member

section Transactions

variable {owner : PrincipalID} {tables after : Tables}

theorem truthful_insert_message {message : NewMessage} (truthful : Truthful owner tables)
    (ran : tables.insertMessage message = .ok after) : Truthful owner after := by
  obtain ⟨principal, _, later⟩ := bind_ok ran
  obtain ⟨charged, _, later⟩ := bind_ok later
  obtain ⟨account, _, later⟩ := bind_ok later
  obtain ⟨_, _, later⟩ := bind_ok later
  obtain ⟨filed, filing, ended⟩ := bind_ok later
  cases ended
  obtain ⟨footprint, _, _⟩ := file_targets_footprint filing
  set counted := (filed.credit charged message.size).incRef message.blob.hash with countedIs
  obtain ⟨merges, changes, updates⟩ := log_merged_logged counted principal message.merged
  have accounts := log_merged_accounts counted principal message.merged
  obtain ⟨sameMembers, _⟩ := log_merged_tables counted principal message.merged
  have messages : (counted.logMerged principal message.merged).messages =
      tables.messages ++ [⟨tables.nextMessageID, principal, message.blob, message.size⟩] := by
    rw [accounts.messages]
    exact (file_targets_accounts filing).messages
  have next : (counted.logMerged principal message.merged).nextMessageID =
    tables.nextMessageID + 1 := by
    rw [accounts.nextMessageID]
    exact footprint.nextMessageID
  have grown : Grown tables (counted.logMerged principal message.merged)
      (createdEntries principal tables.nextMessageID
        (message.targets.map (MailStore.Target.inherit message.flags message.keywords)) ++ merges) := by
    refine ⟨?_, ?_, ?_, ?_⟩
    · rw [changes, logged_append]
      exact congrArg (logged · merges) footprint.changes
    · rw [next]
      exact Nat.le_succ _
    · intro row member
      rw [messages] at member
      rw [next]
      rcases List.mem_append.mp member with old | new
      · exact ⟨Nat.lt_succ_of_lt (truthful.messages row old), fun _ => ⟨row, old, rfl⟩⟩
      · rw [List.mem_singleton.mp new]
        exact ⟨Nat.lt_succ_self _, fun small => absurd small (Nat.lt_irrefl _)⟩
    · intro row member
      rw [sameMembers] at member
      rw [next]
      by_cases here : row.messageID = tables.nextMessageID
      · rw [here]
        exact Nat.lt_succ_self _
      · have listed : row ∈ rowsOf filed row.messageID := mem_rows_of.mpr ⟨member, rfl⟩
        rw [footprint.members _ here] at listed
        exact Nat.lt_succ_of_lt (truthful.members row (mem_rows_of.mp listed).1)
  apply truthful_grown truthful grown
  intro entry member death
  rcases List.mem_append.mp member with created | merged
  · obtain ⟨target, _, rfl⟩ := List.mem_map.mp created
    cases death.2.2
  · rw [IsDeath, updates entry merged] at death
    cases death.2.2

theorem truthful_insert {messages : List NewMessage} (truthful : Truthful owner tables)
    (ran : tables.insertMessages messages = .ok after) : Truthful owner after := by
  unfold insertMessages at ran
  split at ran
  · cases ran
  · clear * - truthful ran
    induction messages generalizing tables with
    | nil =>
      cases ran
      exact truthful
    | cons message messages ih =>
      obtain ⟨middle, first, later⟩ := bind_ok ran
      exact ih (truthful_insert_message truthful first) later

section

variable {principal : PrincipalID} {message : MessageID} {mailbox : MailboxID}

theorem touch_members_footprint {mailboxes : List MailboxID}
    (ran : touchMembers principal message mailboxes tables = .ok after) :
    ∃ entries, Footprint message tables after entries ∧
    ∀ entry ∈ entries, entry.change.op = .updated := by
  induction mailboxes generalizing tables with
  | nil =>
    cases ran
    exact ⟨[], footprint_refl _, fun _ member => by cases member⟩
  | cons mailbox mailboxes ih =>
    obtain ⟨middle, first, later⟩ := bind_ok ran
    obtain ⟨box, _, ended⟩ := bind_ok first
    cases ended
    obtain ⟨entries, rest, updates⟩ := ih later
    have silent : Footprint message tables ((tables.updateMember message mailbox fun row =>
        { row with modSeq := box.highestModSeq + 1 }).setHighest mailbox (box.highestModSeq + 1)) [] :=
      footprint_silent (footprint_update tables mailbox
        (fun row => { row with modSeq := box.highestModSeq + 1 }) fun _ => rfl)
          (footprint_highest _ mailbox _)
    have one := footprint_tells silent principal .email message mailbox .updated .background
    refine ⟨_, footprint_trans one rest, ?_⟩
    intro entry member
    rcases List.mem_cons.mp member with rfl | below
    · rfl
    · exact updates entry below

theorem truthful_same {changed : Tables} (truthful : Truthful owner tables)
    (changes : changed.changes = tables.changes) (next : changed.nextMessageID = tables.nextMessageID)
    (members : changed.members = tables.members)
    (messages : changed.messages.map MessageRow.id = tables.messages.map MessageRow.id) :
    Truthful owner changed := by
  have again : ∀ row ∈ changed.messages, ∃ old ∈ tables.messages, old.id = row.id := by
    intro row member
    have listed : row.id ∈ tables.messages.map MessageRow.id := messages ▸ List.mem_map_of_mem member
    obtain ⟨old, oldMember, same⟩ := List.mem_map.mp listed
    exact ⟨old, oldMember, same⟩
  refine ⟨?_, ?_, ?_⟩
  · intro row member
    obtain ⟨old, oldMember, same⟩ := again row member
    rw [next, ← same]
    exact truthful.messages old oldMember
  · rw [members, next]
    exact truthful.members
  · intro row member death
    rw [changes] at member
    obtain ⟨small, gone⟩ := truthful.deaths row member death
    refine ⟨next ▸ small, ?_⟩
    intro other otherMember equal
    obtain ⟨old, oldMember, same⟩ := again other otherMember
    exact gone old oldMember (same.trans equal)

theorem truthful_body {blob : BlobName} {size : Nat}
    (truthful : Truthful owner tables) (ran : tables.replaceMessageBody message blob size = .ok after) :
    Truthful owner after := by
  obtain ⟨row, found, later⟩ := bind_ok ran
  obtain ⟨charged, _, later⟩ := bind_ok later
  obtain ⟨_, _, later⟩ := bind_ok later
  have known := message_known truthful (require_ok found)
  obtain ⟨entries, footprint, updates⟩ := touch_members_footprint later
  have ids : (tables.messages.map fun other =>
      if other.id = message then { other with blob, size } else other).map MessageRow.id =
        tables.messages.map MessageRow.id := by
    rw [List.map_map]
    apply List.map_congr_left
    intro other _
    simp only [Function.comp_apply]
    split <;> rfl
  refine truthful_silent (truthful_same truthful ?_ ?_ ?_ ?_) ?_ footprint ?_
  · split <;> rfl
  · split <;> rfl
  · split <;> rfl
  · split <;> exact ids
  · split <;> exact known
  · intro entry member
    rw [updates entry member]
    decide

theorem truthful_logged {op : ChangeOp}
    (truthful : Truthful owner tables) (known : message < tables.nextMessageID)
    (foreign : op = .destroyed → principal ≠ owner) :
    Truthful owner (tables.appendEmailChange principal message mailbox op) := by
  have footprint : Footprint message tables (tables.appendEmailChange principal message mailbox op)
      [entryOf principal .email message mailbox op .user] :=
    footprint_logged tables principal .email message mailbox op .user
  apply truthful_grown truthful (grown_footprint truthful known footprint)
  intro entry member death
  rw [List.mem_singleton.mp member] at death
  exact absurd death.1 (foreign death.2.2)

theorem truthful_unheard {entries : List FeedRow} (truthful : Truthful owner tables)
    (known : message < tables.nextMessageID) (footprint : Footprint message tables after entries)
    (updates : ∀ entry ∈ entries, entry.change.op = .updated) :
    Truthful owner after ∧ message < after.nextMessageID := by
  constructor
  · apply truthful_silent truthful known footprint
    intro entry member
    rw [updates entry member]
    decide
  · rw [footprint.nextMessageID]
    exact known

theorem truthful_leave_trash {trash : List MailboxID}
    (foreign : principal ≠ owner) (truthful : Truthful owner tables)
    (known : message < tables.nextMessageID)
    (ran : leaveTrash principal message trash tables = .ok after) :
    Truthful owner after ∧ message < after.nextMessageID := by
  induction trash generalizing tables with
  | nil =>
    cases ran
    exact ⟨truthful, known⟩
  | cons place trash ih =>
    obtain ⟨middle, first, later⟩ := bind_ok ran
    obtain ⟨entries, deleted, told⟩ := footprint_delete_membership first
    obtain ⟨kept, here⟩ := truthful_unheard truthful known deleted
      fun entry member => (told entry member).2.2.2.1
    obtain ⟨bumped, here⟩ := truthful_unheard kept here (footprint_bump middle place) (by simp)
    exact ih (truthful_logged bumped here fun _ => foreign) here later

theorem truthful_add (truthful : Truthful owner tables)
    (ran : tables.addMessageToMailbox message mailbox = .ok after)
    (ends : (∀ row, tables.message? message = some row → row.principalID ≠ owner) ∨
      tables.isTrash mailbox = true ∨ ∀ filing ∈ tables.members,
        filing.messageID = message → tables.isTrash filing.mailboxID = false) : Truthful
          owner after := by
  rcases ends with foreign | quiet
  · obtain ⟨row, present, later⟩ := bind_ok ran
    obtain ⟨_, _, later⟩ := bind_ok later
    obtain ⟨box, housed, later⟩ := bind_ok later
    obtain ⟨filed, inserted, ended⟩ := bind_ok later
    have known := message_known truthful (require_ok present)
    obtain ⟨snapped, here⟩ := truthful_unheard truthful known
      (footprint_snapped tables mailbox box.trash) (by simp)
    obtain ⟨placed, here⟩ := truthful_unheard snapped here (footprint_insert rfl inserted) (by simp)
    obtain ⟨counted, here⟩ := truthful_unheard placed here
      (footprint_advance filed mailbox (box.highestModSeq + 1)) (by simp)
    have told : Truthful owner ((filed.advance mailbox (box.highestModSeq + 1)).appendEmailChange
        row.principalID message mailbox .created) :=
      truthful_logged counted here fun same => by cases same
    split at ended
    · cases ended
      exact told
    · unfold removeTrashAndReplay at ended
      dsimp only at ended
      split at ended
      · cases ended
        exact told
      · obtain ⟨left, leaves, replayed⟩ := bind_ok ended
        obtain ⟨still, there⟩ := truthful_leave_trash (foreign row (require_ok present))
          told here leaves
        exact (truthful_unheard still there (footprint_replay replayed) (by simp)).1
  · obtain ⟨row, entries, found, _, footprint, _, stays⟩ := add_footprint ran
    have known := message_known truthful found
    obtain ⟨none, _⟩ := stays quiet
    rw [none] at footprint
    apply truthful_silent truthful known footprint
    intro entry member
    rw [List.mem_singleton.mp member]
    exact fun same => by cases same

theorem truthful_remove (truthful : Truthful owner tables)
    (ran : tables.removeMessageFromMailbox message mailbox = .ok after)
    (ends : (∀ row, tables.message? message = some row → row.principalID ≠ owner) ∨
      (FiledOnlyIn tables message mailbox ∧ (tables.isTrash mailbox = true →
        ∀ place ∈ tables.snapshotOf message, tables.mailbox? place = none))) : Truthful
          owner after := by
  obtain ⟨row, entries, found, footprint, updates, _, gone⟩ := remove_footprint ran
  have known := message_known truthful found
  apply truthful_grown truthful (grown_footprint truthful known footprint)
  intro entry member death
  rcases List.mem_append.mp member with early | last
  · rw [IsDeath, updates entry early] at death
    cases death.2.2
  · rw [List.mem_singleton.mp last] at death ⊢
    rcases ends with foreign | ⟨only, unsnapped⟩
    · exact absurd death.1 (foreign row found)
    · refine ⟨?_, gone only unsnapped⟩
      rw [footprint.nextMessageID]
      exact known

theorem expunge_round (boxOwner charged : PrincipalID) {message : MessageID}
    {mailbox : MailboxID} {deleted : Tables} (highest : Nat)
    (ran : tables.deleteMembership message mailbox true = .ok deleted) :
    let next := ((deleted.releaseIfUnfiled message charged).setHighest mailbox
      highest).appendEmailChange
      boxOwner message mailbox .destroyed
    ∃ entries, Footprint message tables next
        (entries ++ [entryOf boxOwner .email message mailbox .destroyed .user]) ∧
      (∀ entry ∈ entries, entry.change.op = .updated) ∧
      (FiledOnlyIn tables message mailbox → ∀ row ∈ next.messages, row.id ≠ message) ∧
      next.membership? message mailbox = none := by
  intro next
  obtain ⟨entries, deletes, told⟩ := footprint_delete_membership ran
  obtain ⟨_, membersKept, _⟩ := release_rows deleted message charged
  refine ⟨entries, ?_, fun entry member => (told entry member).2.2.2.1, ?_, ?_⟩
  · refine footprint_trans deletes (footprint_tells ?_ _ _ _ _ _ _)
    exact footprint_silent (footprint_release deleted charged) (footprint_highest _ mailbox highest)
  · exact fun only => released_unfiled (unfiled_after ran only)
  · apply List.find?_eq_none.mpr
    intro filing member there
    have both : filing.messageID = message ∧ filing.mailboxID = mailbox := by simpa using there
    obtain ⟨old, oldMember, reminded⟩ :=
      forall_across (delete_membership_handed ran).members (membersKept filing member)
    obtain ⟨message', place', _⟩ := reminded_key reminded
    have away := (List.mem_filter.mp oldMember).2
    simp [message'.symm.trans both.1, place'.symm.trans both.2] at away

theorem filed_only_later {message other : MessageID} (mailbox : MailboxID) {entries : List FeedRow}
    (footprint : Footprint message tables after entries) (differ : other ≠ message) :
    ((after.membership? other mailbox).isSome → (tables.membership? other mailbox).isSome) ∧
      (FiledOnlyIn tables other mailbox → FiledOnlyIn after other mailbox) := by
  have back : ∀ filing, filing ∈ after.members → filing.messageID = other →
    filing ∈ tables.members := by
    intro filing filed here
    have listed : filing ∈ rowsOf after other := mem_rows_of.mpr ⟨filed, here⟩
    rw [footprint.members other differ] at listed
    exact (mem_rows_of.mp listed).1
  constructor
  · intro found
    obtain ⟨row, found⟩ := Option.isSome_iff_exists.mp found
    obtain ⟨member, here, place⟩ := membership_found found
    exact List.find?_isSome.mpr ⟨row, back row member here, by simp [here, place]⟩
  · intro only filing member here
    exact only filing (back filing member here) here

theorem truthful_expunge_loop {boxOwner charged : PrincipalID} {mailbox : MailboxID}
    {messages : List MessageID} {highest removed : Nat} {result : Nat × Tables}
    (truthful : Truthful owner tables)
    (ran : expungeLoop boxOwner charged mailbox messages highest removed tables = .ok result)
    (ends : boxOwner ≠ owner ∨ ∀ message ∈ messages, (tables.membership? message mailbox).isSome →
      FiledOnlyIn tables message mailbox) : Truthful owner result.2 := by
  induction messages generalizing highest removed tables with
  | nil =>
    cases ran
    exact truthful
  | cons message messages ih =>
    unfold expungeLoop at ran
    split at ran
    · apply ih truthful ran
      exact ends.imp id fun each other member => each other (List.mem_cons_of_mem _ member)
    · rename_i filed
      obtain ⟨deleted, first, later⟩ := bind_ok ran
      have present : (tables.membership? message mailbox).isSome :=
        Option.isSome_iff_ne_none.mpr (by simpa using filed)
      obtain ⟨row, found⟩ := Option.isSome_iff_exists.mp present
      have known := member_known truthful found
      obtain ⟨entries, footprint, updates, gone, away⟩ :=
        expunge_round boxOwner charged (highest + 1) first
      refine ih ?_ later ?_
      · apply truthful_grown truthful (grown_footprint truthful known footprint)
        intro entry member death
        rcases List.mem_append.mp member with early | last
        · rw [IsDeath, updates entry early] at death
          cases death.2.2
        · rw [List.mem_singleton.mp last] at death ⊢
          rcases ends with foreign | only
          · exact absurd death.1 foreign
          · refine ⟨?_, gone (only message List.mem_cons_self present)⟩
            rw [footprint.nextMessageID]
            exact known
      · refine ends.imp id fun each other member there => ?_
        have differ : other ≠ message := by
          rintro rfl
          rw [away] at there
          cases there
        obtain ⟨back, kept⟩ := filed_only_later mailbox footprint differ
        exact kept (each other (List.mem_cons_of_mem _ member) (back there))

theorem truthful_expunge {messages : List MessageID} (truthful : Truthful owner tables)
    (ran : tables.expungeMessages mailbox messages = .ok after)
    (ends : (∀ box, tables.mailbox? mailbox = some box → box.principalID ≠ owner) ∨
      ∀ message ∈ messages, (tables.membership? message mailbox).isSome →
        FiledOnlyIn tables message mailbox) : Truthful owner after := by
  unfold expungeMessages at ran
  split at ran
  · cases ran
    exact truthful
  · obtain ⟨box, housed, later⟩ := bind_ok ran
    obtain ⟨charged, _, later⟩ := bind_ok later
    obtain ⟨⟨removed, left⟩, looped, ended⟩ := bind_ok later
    dsimp only at ended
    split at ended
    · cases ended
    · cases ended
      exact truthful_expunge_loop truthful looped
        (ends.imp (fun foreign => foreign box (require_ok housed)) id)

theorem truthful_delete_mailbox (truthful : Truthful owner tables)
    (ran : tables.deleteMailbox mailbox = .ok after) : Truthful owner after := by
  obtain ⟨box, _, later⟩ := bind_ok ran
  obtain ⟨charged, _, later⟩ := bind_ok later
  obtain ⟨emptied, deleted, ended⟩ := bind_ok later
  cases ended
  obtain ⟨entries, empties, updates⟩ := spares_delete_all deleted
  have spares := spares_trans
    (spares_drop_all mailbox charged (tables.soleMessages mailbox) tables) empties
  rw [List.nil_append] at spares
  refine truthful_grown truthful (show Grown tables _
    (entries ++ [entryOf box.principalID .mailbox mailbox 0 .destroyed .user]) from ⟨?_, ?_, ?_, ?_⟩) ?_
  · rw [logged_append, ← spares.changes]
    rfl
  · exact Nat.le_of_eq spares.nextMessageID.symm
  · intro row member
    have was := spares.fewer.subset member
    show row.id < emptied.nextMessageID ∧ _
    rw [spares.nextMessageID]
    exact ⟨truthful.messages row was, fun _ => ⟨row, was, rfl⟩⟩
  · intro filing member
    obtain ⟨kept, listed, rfl⟩ := List.mem_map.mp member
    obtain ⟨old, oldMember, here, _⟩ := spares.keys kept (List.mem_filter.mp listed).1
    show kept.messageID < emptied.nextMessageID
    rw [spares.nextMessageID, ← here]
    exact truthful.members old oldMember
  · intro entry member death
    rcases List.mem_append.mp member with early | last
    · rw [IsDeath, updates entry early] at death
      cases death.2.2
    · rw [List.mem_singleton.mp last] at death
      cases death.2.1

theorem truthful_handed (truthful : Truthful owner tables)
    (handed : Handed message tables after) : Truthful owner after := by
  obtain ⟨entries, changes, told⟩ := handed.changes
  have grown : Grown tables after entries := by
    refine ⟨changes, Nat.le_of_eq handed.nextMessageID.symm, ?_, ?_⟩
    · rw [handed.messages, handed.nextMessageID]
      exact fun row member => ⟨truthful.messages row member, fun _ => ⟨row, member, rfl⟩⟩
    · intro filing member
      obtain ⟨old, oldMember, reminded⟩ := forall_across handed.members member
      rw [handed.nextMessageID, (reminded_key reminded).1]
      exact truthful.members old oldMember
  apply truthful_grown truthful grown
  intro entry member death
  rw [IsDeath, (told entry member).2.2.2.1] at death
  cases death.2.2

end

/-- Every transaction that ends a message with its last membership keeps the feed
truthful. -/
theorem truthful_operation {operation : Operation} {rows : List MessageState}
    (truthful : Truthful owner tables) (ran : operation.apply tables = .ok after)
    (ends : EndsLast owner ⟨tables, rows⟩ (.transact operation)) : Truthful owner after := by
  cases operation with
  | deleteMailbox mailbox => exact truthful_delete_mailbox truthful ran
  | write change =>
    cases change with
    | insert messages => exact truthful_insert truthful ran
    | replaceBody message blob size => exact truthful_body truthful ran
    | add message mailbox => exact truthful_add truthful ran ends
    | remove message mailbox => exact truthful_remove truthful ran ends
    | expunge mailbox messages => exact truthful_expunge truthful ran ends
    | move message source target =>
      obtain ⟨row, box, present, _, footprint, _, _⟩ := move_footprint ran
      exact (truthful_unheard truthful (member_known truthful present) footprint (by simp [entryOf])).1
    | updateFlags message mailbox set clear keywordAdd keywordClear unchangedSince =>
      obtain ⟨row, box, present, _, footprint, _, _⟩ := update_flags_footprint ran
      exact (truthful_unheard truthful (member_known truthful present) footprint (by simp [entryOf])).1
    | setSnooze message mailbox until? wake => exact truthful_handed truthful (set_snooze_handed ran)
    | releaseSnooze message mailbox => exact truthful_handed truthful (set_snooze_handed ran)
    | consolidateSnooze message => exact truthful_handed truthful (transfer_snooze_handed ran)
    | recordArrival message mailbox =>
      obtain ⟨row, found, later⟩ := bind_ok ran
      obtain ⟨_, _, later⟩ := bind_ok later
      obtain ⟨box, _, ended⟩ := bind_ok later
      cases ended
      have known := message_known truthful (require_ok found)
      obtain ⟨stamped, here⟩ := truthful_unheard truthful known
        (footprint_update tables mailbox (fun member => { member with modSeq := box.highestModSeq + 1 })
          fun _ => rfl) (by simp)
      obtain ⟨counted, here⟩ := truthful_unheard stamped here
        (footprint_highest _ mailbox (box.highestModSeq + 1)) (by simp)
      exact truthful_logged counted here fun same => by cases same

end Transactions

theorem step_truthful {owner : PrincipalID} {mirror next : Mirror} {event : Event}
    (truthful : Truthful owner mirror.tables) (ends : EndsLast owner mirror event)
    (stepped : Mirror.machine.step mirror event = some next) : Truthful owner next.tables := by
  cases event with
  | transact operation =>
    cases stepped
    dsimp only
    cases outcome : operation.apply mirror.tables with
    | ok after => exact truthful_operation truthful outcome ends
    | error _ => exact truthful
  | record row =>
    cases stepped
    exact truthful
  | forget folder uid =>
    cases stepped
    exact truthful

theorem deletions_name (account : Account) (answers : DestroyAnswers) (rows : List MessageState)
    (change : StateChange) : ∀ command ∈ deletions account answers rows change,
      command.message = change.entityID ∧ change.op = .destroyed := by
  intro command member
  unfold deletions at member
  split at member
  · cases member
  · split at member
    case isTrue destroyed =>
      unfold writeBackDestroy at member
      dsimp only at member
      refine ⟨?_, destroyed⟩
      split at member
      · cases member
      · split at member
        · simp only [List.mem_cons, List.not_mem_nil, or_false] at member
          rcases member with rfl | rfl <;> rfl
        · rw [List.mem_singleton.mp member]
    case isFalse => cases member

/-- In a run whose steps destroy messages only with their last membership, every
deletion that write-back issues for a row of the account's feed is for a message
that no longer exists. -/
theorem write_back_deletes_gone (account : Account) (start final : Mirror) (events : List Event)
    (truthful : Truthful account.principalID start.tables)
    (meets : Mirror.machine.Meets (EndsLast account.principalID) start events)
    (ran : Mirror.machine.execute start events = some final) :
    ∀ row ∈ final.tables.changes, row.change.principalID = account.principalID →
    row.change.kind = .email →
      ∀ answers, ∀ command ∈ deletions account answers final.rows row.change,
        final.tables.message? command.message = none := by
  have reached : Truthful account.principalID final.tables := by
    refine Machine.meets_keeps Mirror.machine (EndsLast account.principalID)
      (fun mirror => Truthful account.principalID mirror.tables) ?_ events start final
        truthful meets ran
    exact fun _ _ _ holds allowed stepped => step_truthful holds allowed stepped
  intro row member own kind answers command issued
  obtain ⟨named, destroyed⟩ := deletions_name account answers final.rows row.change command issued
  obtain ⟨_, gone⟩ := reached.deaths row member ⟨own, kind, destroyed⟩
  rw [named]
  apply List.find?_eq_none.mpr
  intro other otherMember same
  exact gone other otherMember (by simpa using same)

def mirrored : Mirror where
  tables := twoLabels.tables
  rows := [⟨[97], 1, 1, 1, 1, {}⟩]

/-- The message leaves one of its two mailboxes, and write-back deletes it upstream. -/
theorem kept_message_deleted_upstream :
    ∃ final row command, Mirror.machine.execute mirrored [.transact (.write (.remove 1 1))] =
      some final ∧
      row ∈ final.tables.changes ∧ row.change.principalID = 1 ∧ row.change.kind = .email ∧
      command ∈ deletions ⟨1, true⟩ ⟨true, true⟩ final.rows row.change ∧ command.deletes = true ∧
      (final.tables.message? command.message).isSome := by
  refine ⟨_, _, ⟨1, [97], 1, .expunge⟩, rfl, List.mem_singleton.mpr rfl, rfl, rfl, ?_, rfl, rfl⟩
  decide

def mirroredOnce : Mirror where
  tables := { twoLabels.tables with members := [⟨1, 1, 1, 1, 0, [], none, none⟩] }
  rows := [⟨[97], 1, 1, 1, 1, {}⟩]

theorem mirrored_once_truthful : Truthful 1 mirroredOnce.tables where
  messages := by simp [mirroredOnce, twoLabels]
  members := by simp [mirroredOnce, twoLabels]
  deaths := by
    intro row member
    cases member

theorem write_back_deletes_gone_of_last_removal :
    ∃ final, Mirror.machine.execute mirroredOnce [.transact (.write (.remove 1 1))] = some final ∧
      (∃ row ∈ final.tables.changes,
        (deletions ⟨1, true⟩ ⟨true, true⟩ final.rows row.change).length = 2) ∧
      ∀ row ∈ final.tables.changes, row.change.principalID = 1 → row.change.kind = .email →
        ∀ answers, ∀ command ∈ deletions ⟨1, true⟩ answers final.rows row.change,
          final.tables.message? command.message = none := by
  have ends : EndsLast 1 mirroredOnce (.transact (.write (.remove 1 1))) := by
    right
    constructor
    · simp [FiledOnlyIn, mirroredOnce]
    · intro trash
      cases trash
  have meets : Mirror.machine.Meets (EndsLast 1) mirroredOnce [.transact (.write (.remove 1 1))] :=
    ⟨ends, trivial⟩
  refine ⟨_, rfl, ⟨_, List.mem_singleton.mpr rfl, rfl⟩, ?_⟩
  exact write_back_deletes_gone ⟨1, true⟩ mirroredOnce _ _ mirrored_once_truthful meets rfl

end Herold.Import

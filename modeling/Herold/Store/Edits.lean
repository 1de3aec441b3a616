import Herold.Store.Quota
import Herold.Store.Keeping
import Herold.Store.Ranks

/-!
# The edits a transaction is made of

Seen by the identifiers of its messages, by which message is filed where and by its
feed, a store is changed in a few ways only. Every transaction is a sequence of such
edits, so what each of them keeps holds in every state a store gets to.
-/

namespace Herold.Store

open Herold.Go Herold.Machine

namespace Tables

def messageIDs (tables : Tables) : List MessageID := tables.messages.map MessageRow.id

/-- The keys of `message_mailboxes`. -/
def filings (tables : Tables) : List (MessageID × MailboxID) :=
  tables.members.map fun row => (row.messageID, row.mailboxID)

/-- One edit. Only a message that `loose` names may be new or have its filings changed. -/
inductive Edit (loose : MessageID → Prop) (before after : Tables) : Prop where
  | written (entries : List FeedRow) (ids : after.messageIDs = before.messageIDs)
      (rows : after.filings = before.filings) (next : after.nextMessageID = before.nextMessageID)
      (changes : after.changes = logged before.changes entries)
  | filed (key : MessageID × MailboxID) (may : loose key.1) (free : key ∉ before.filings)
      (ids : after.messageIDs = before.messageIDs) (rows : after.filings = before.filings ++ [key])
      (next : after.nextMessageID = before.nextMessageID) (changes : after.changes = before.changes)
  | unfiled (ids : after.messageIDs = before.messageIDs) (rows : after.filings.Sublist before.filings)
      (stays : ∀ key ∈ before.filings, loose key.1 ∨ key ∈ after.filings)
      (next : after.nextMessageID = before.nextMessageID) (changes : after.changes = before.changes)
  | dropped (gone : List MessageID) (ids : after.messageIDs.Sublist before.messageIDs)
      (apart : before.messageIDs.Nodup → ∀ id ∈ after.messageIDs, id ∉ gone)
      (others : ∀ id ∈ before.messageIDs, id ∉ gone → id ∈ after.messageIDs)
      (rows : after.filings = before.filings.filter fun key => !gone.contains key.1)
      (next : after.nextMessageID = before.nextMessageID) (changes : after.changes = before.changes)
  | opened (fresh : loose before.nextMessageID)
      (ids : after.messageIDs = before.messageIDs ++ [before.nextMessageID])
      (rows : after.filings = before.filings) (next : after.nextMessageID = before.nextMessageID + 1)
      (changes : after.changes = before.changes)

/-- Identifiers and keys are unique, and a message is there just when it is filed,
unless it is loose. -/
structure WellFiled (loose : MessageID → Prop) (tables : Tables) : Prop where
  ids : tables.messageIDs.Nodup
  issued : ∀ id ∈ tables.messageIDs, id < tables.nextMessageID
  keys : tables.filings.Nodup
  paired : ∀ id, loose id ∨ (id ∈ tables.messageIDs ↔ ∃ key ∈ tables.filings, key.1 = id)

/-- What time does to a store: the feed has more at its end, and a message that was not
there has a new identifier. -/
structure Later (before after : Tables) : Prop where
  changes : ∃ entries, after.changes = logged before.changes entries
  next : before.nextMessageID ≤ after.nextMessageID
  ids : ∀ id ∈ after.messageIDs, id ∈ before.messageIDs ∨ before.nextMessageID ≤ id

section Keeps

variable {loose : MessageID → Prop} {before middle after : Tables}

theorem later_refl (tables : Tables) : Later tables tables :=
    ⟨⟨[], rfl⟩, Nat.le_refl _, fun _ => Or.inl⟩

theorem later_trans (first : Later before middle) (second : Later middle after) :
    Later before after := by
  obtain ⟨entries, changes⟩ := first.changes
  obtain ⟨more, later⟩ := second.changes
  refine ⟨⟨entries ++ more, by rw [later, changes, logged_append]⟩, first.next.trans second.next, ?_⟩
  intro id member
  rcases second.ids id member with earlier | fresh
  · exact first.ids id earlier
  · exact Or.inr (first.next.trans fresh)

theorem edit_later (edit : Edit loose before after) : Later before after := by
  cases edit with
  | written entries ids _ next changes =>
    exact ⟨⟨entries, changes⟩, next.ge, fun _ member => Or.inl (ids ▸ member)⟩
  | filed _ _ _ ids _ next changes =>
    exact ⟨⟨[], changes⟩, next.ge, fun _ member => Or.inl (ids ▸ member)⟩
  | unfiled ids _ _ next changes =>
    exact ⟨⟨[], changes⟩, next.ge, fun _ member => Or.inl (ids ▸ member)⟩
  | dropped _ ids _ _ _ next changes =>
    exact ⟨⟨[], changes⟩, next.ge, fun _ member => Or.inl (ids.subset member)⟩
  | opened _ ids _ next changes =>
    refine ⟨⟨[], changes⟩, next ▸ Nat.le_succ _, fun id member => ?_⟩
    rw [ids, List.mem_append, List.mem_singleton] at member
    exact member.imp_right fun fresh => Nat.le_of_eq fresh.symm

theorem edit_well_filed (edit : Edit loose before after) (holds : WellFiled loose before) :
    WellFiled loose after := by
  obtain ⟨unique, issued, keys, paired⟩ := holds
  cases edit with
  | written entries ids rows next =>
    exact ⟨ids ▸ unique, by rwa [ids, next], rows ▸ keys, by rwa [ids, rows]⟩
  | filed key may free ids rows next =>
    refine ⟨ids ▸ unique, by rwa [ids, next], ?_, fun id => ?_⟩
    · rw [rows, List.nodup_append]
      refine ⟨keys, List.nodup_singleton key, ?_⟩
      rintro old member new here rfl
      exact free (List.mem_singleton.mp here ▸ member)
    · by_cases same : key.1 = id
      · exact Or.inl (same ▸ may)
      · refine (paired id).imp_right fun whole => ?_
        rw [ids, rows, whole]
        simp [same]
  | unfiled ids rows stays next =>
    refine ⟨ids ▸ unique, by rwa [ids, next], keys.sublist rows, fun id => ?_⟩
    by_cases may : loose id
    · exact Or.inl may
    · refine Or.inr ?_
      rw [ids, (paired id).resolve_left may]
      constructor
      · rintro ⟨key, earlier, rfl⟩
        exact ⟨key, (stays key earlier).resolve_left may, rfl⟩
      · rintro ⟨key, there, same⟩
        exact ⟨key, rows.subset there, same⟩
  | dropped gone ids apart others rows next =>
    have kept : ∀ key, key ∈ after.filings ↔ key ∈ before.filings ∧ key.1 ∉ gone := by
      intro key
      rw [rows, List.mem_filter]
      simp
    refine ⟨unique.sublist ids, ?_, rows ▸ keys.filter _, fun id =>
      (paired id).imp_right fun whole => ?_⟩
    · rw [next]
      exact fun id member => issued id (ids.subset member)
    · constructor
      · intro member
        obtain ⟨key, earlier, rfl⟩ := whole.mp (ids.subset member)
        exact ⟨key, (kept key).mpr ⟨earlier, apart unique _ member⟩, rfl⟩
      · rintro ⟨key, there, rfl⟩
        obtain ⟨earlier, spared⟩ := (kept key).mp there
        exact others _ (whole.mpr ⟨key, earlier, rfl⟩) spared
  | opened fresh ids rows next =>
    refine ⟨?_, ?_, rows ▸ keys, fun id => ?_⟩
    · rw [ids, List.nodup_append]
      refine ⟨unique, List.nodup_singleton _, ?_⟩
      rintro old member new here rfl
      exact absurd (issued old member) (List.mem_singleton.mp here ▸ Nat.lt_irrefl _)
    · intro id member
      rw [ids, List.mem_append, List.mem_singleton] at member
      rw [next]
      rcases member with earlier | rfl
      · exact Nat.lt_succ_of_lt (issued id earlier)
      · exact Nat.lt_succ_self _
    · by_cases same : id = before.nextMessageID
      · exact Or.inl (same ▸ fresh)
      · refine (paired id).imp_right fun whole => ?_
        rw [ids, rows, ← whole]
        simp [same]

def Edits (loose : MessageID → Prop) : Tables → Tables → Prop := Relation.ReflTransGen (Edit loose)

theorem edits_well_filed (edits : Edits loose before after) (holds : WellFiled loose before) :
    WellFiled loose after := by
  induction edits with
  | refl => exact holds
  | tail _ edit ih => exact edit_well_filed edit ih

theorem edits_later (edits : Edits loose before after) : Later before after := by
  induction edits with
  | refl => exact later_refl _
  | tail _ edit ih => exact later_trans ih (edit_later edit)

end Keeps

section Sequences

variable {loose : MessageID → Prop} {tables before middle after : Tables} {message : MessageID}
  {mailbox : MailboxID}

theorem edits_trans (first : Edits loose before middle) (second : Edits loose middle after) :
    Edits loose before after := Relation.ReflTransGen.trans first second

theorem edits_written (entries : List FeedRow) (ids : after.messageIDs = before.messageIDs)
    (rows : after.filings = before.filings) (next : after.nextMessageID = before.nextMessageID)
    (changes : after.changes = logged before.changes entries) : Edits loose before after :=
  .single (.written entries ids rows next changes)

/-- A table that none of this reads was changed. -/
theorem edits_aside (messages : after.messages = before.messages)
    (members : after.members = before.members)
    (next : after.nextMessageID = before.nextMessageID) (changes : after.changes = before.changes) :
    Edits loose before after :=
  edits_written [] (congrArg (List.map _) messages) (congrArg (List.map _) members) next changes

theorem edits_told (edits : Edits loose before after) (principal : PrincipalID) (kind : EntityKind)
    (entity parent : Nat) (op : ChangeOp) (cause : ChangeCause) :
    Edits loose before (after.appendChange principal kind entity parent op cause) :=
  edits_trans edits (edits_written [entryOf principal kind entity parent op cause] rfl rfl rfl rfl)

theorem edits_counted (edits : Edits loose before after) (id : MailboxID) (change : Mailbox → Mailbox) :
    Edits loose before (after.updateMailbox id change) :=
  edits_trans edits (edits_aside rfl rfl rfl rfl)

theorem edits_update (message : MessageID) (mailbox : MailboxID) (change : Membership → Membership)
    (same : ∀ row, (change row).messageID = row.messageID ∧ (change row).mailboxID = row.mailboxID) :
    Edits loose tables (tables.updateMember message mailbox change) := by
  refine edits_written [] rfl ?_ rfl rfl
  unfold filings updateMember
  rw [List.map_map]
  refine List.map_congr_left fun row _ => ?_
  dsimp only [Function.comp]
  split
  · rw [(same row).1, (same row).2]
  · rfl

theorem edits_handed (handed : Handed message before after) : Edits loose before after := by
  obtain ⟨entries, changes, _⟩ := handed.changes
  refine edits_written entries (congrArg (List.map _) handed.messages) ?_ handed.nextMessageID changes
  unfold filings
  have reminded := handed.members
  generalize before.members = old, after.members = new at reminded
  induction reminded with
  | nil => rfl
  | cons reminded _ ih =>
    obtain ⟨sameMessage, samePlace, _⟩ := reminded_key reminded
    rw [List.map_cons, List.map_cons, ih, sameMessage, samePlace]

theorem edits_insert {row : Membership} (inserted : tables.insertMember row = .ok after)
    (may : loose row.messageID) : Edits loose tables after := by
  obtain ⟨rfl, free⟩ := insert_member_ok inserted
  refine .single (.filed (row.messageID, row.mailboxID) may ?_ rfl (List.map_append ..) rfl rfl)
  intro there
  obtain ⟨old, member, same⟩ := List.mem_map.mp there
  obtain ⟨sameMessage, samePlace⟩ := Prod.mk.inj same
  exact (free old member samePlace).1 sameMessage

theorem edits_delete (may : loose message) :
    Edits loose tables (tables.deleteMember message mailbox) := by
  refine .single (.unfiled rfl (List.filter_sublist.map _) ?_ rfl rfl)
  intro key member
  obtain ⟨row, filed, rfl⟩ := List.mem_map.mp member
  by_cases here : row.messageID = message ∧ row.mailboxID = mailbox
  · exact Or.inl (here.1 ▸ may)
  · exact Or.inr (List.mem_map.mpr ⟨row, List.mem_filter.mpr ⟨filed, decide_eq_true here⟩, rfl⟩)

theorem edits_delete_membership {handOver : Bool} (may : loose message)
    (ran : tables.deleteMembership message mailbox handOver = .ok after) : Edits loose tables after :=
  edits_trans (edits_delete may) (edits_handed (delete_membership_handed ran))

theorem edits_delete_messages (gone : MessageRow → Bool) :
    Edits loose tables (tables.deleteMessages gone) := by
  refine .single (.dropped ((tables.messages.filter gone).map MessageRow.id) (List.filter_sublist.map _)
    ?_ ?_ ?_ rfl rfl)
  · intro unique id member there
    obtain ⟨kept, keptMember, rfl⟩ := List.mem_map.mp member
    obtain ⟨lost, lostMember, same⟩ := List.mem_map.mp there
    obtain ⟨keptRow, spared⟩ := List.mem_filter.mp keptMember
    obtain ⟨lostRow, goes⟩ := List.mem_filter.mp lostMember
    have alike := List.inj_on_of_nodup_map unique lostRow keptRow same
    simp [← alike, goes] at spared
  · intro id member spared
    obtain ⟨row, listed, rfl⟩ := List.mem_map.mp member
    refine List.mem_map.mpr ⟨row, List.mem_filter.mpr ⟨listed, ?_⟩, rfl⟩
    rw [Bool.not_eq_true']
    refine Bool.eq_false_iff.mpr fun goes => spared ?_
    exact List.mem_map.mpr ⟨row, List.mem_filter.mpr ⟨listed, goes⟩, rfl⟩
  · unfold filings deleteMessages
    rw [List.filter_map]
    rfl

theorem edits_replay_all {mailboxes : List MailboxID} (may : loose message)
    (ran : replayAll message mailboxes tables = .ok after) : Edits loose tables after := by
  induction mailboxes generalizing tables with
  | nil =>
    cases ran
    exact .refl
  | cons place mailboxes ih =>
    obtain ⟨filed, first, later⟩ := bind_ok ran
    refine edits_trans ?_ (ih later)
    unfold replayInto at first
    split at first
    · cases first
      exact .refl
    · split at first
      · cases first
        exact .refl
      · obtain ⟨placed, inserted, ended⟩ := bind_ok first
        cases ended
        exact edits_counted (edits_insert inserted may) _ _

theorem edits_replay (may : loose message) (ran : tables.replayPretrash message = .ok after) :
    Edits loose tables after := by
  obtain ⟨replayed, all, ended⟩ := bind_ok ran
  cases ended
  exact edits_trans (edits_replay_all may all) (edits_aside rfl rfl rfl rfl)

theorem edits_restored {trash : Bool} (may : loose message)
    (ran : (if trash then tables.replayPretrash message else .ok tables) = .ok after) :
    Edits loose tables after := by
  split at ran
  · exact edits_replay may ran
  · cases ran
    exact .refl

theorem edits_snapped (trash : Bool) :
    Edits loose tables (if trash then tables.snapshotPretrash message mailbox else tables) := by
  split
  · exact edits_aside rfl rfl rfl rfl
  · exact .refl

theorem edits_leave_trash {principal : PrincipalID} {trash : List MailboxID} (may : loose message)
    (ran : leaveTrash principal message trash tables = .ok after) : Edits loose tables after := by
  induction trash generalizing tables with
  | nil =>
    cases ran
    exact .refl
  | cons place trash ih =>
    obtain ⟨left, deleted, later⟩ := bind_ok ran
    exact edits_trans (edits_told (edits_counted (edits_delete_membership may deleted) _ _) _ _ _ _
      _ _) (ih later)

theorem edits_release (charged : PrincipalID) :
    Edits loose tables (tables.releaseIfUnfiled message charged) := by
  unfold releaseIfUnfiled
  split
  · exact .refl
  · dsimp only
    split
    · exact edits_delete_messages _
    · exact edits_trans (edits_delete_messages _) (edits_aside rfl rfl rfl rfl)

end Sequences

section Transactions

variable {tables before middle after : Tables} {message : MessageID} {mailbox : MailboxID}

def never (_ : MessageID) : Prop := False

theorem WellFiled.whole (holds : WellFiled never tables) (id : MessageID) :
    id ∈ tables.messageIDs ↔ ∃ key ∈ tables.filings, key.1 = id :=
      (holds.paired id).resolve_left False.elim

/-- From a well filed store to a later one that is well filed. -/
def Tended (before after : Tables) : Prop := WellFiled never before → WellFiled never after ∧
    Later before after

theorem tended_trans (first : Tended before middle) (second : Tended middle after) :
    Tended before after := by
  intro holds
  obtain ⟨kept, later⟩ := first holds
  obtain ⟨still, latest⟩ := second kept
  exact ⟨still, later_trans later latest⟩

theorem tended_edits (edits : Edits never before after) : Tended before after :=
  fun holds => ⟨edits_well_filed edits holds, edits_later edits⟩

theorem tended_refl (tables : Tables) : Tended tables tables := tended_edits .refl

/-- A message that was loose on the way is there in the end just when it is filed. -/
theorem tended_settled (message : MessageID) (edits : Edits (Eq message) before after)
    (settled : WellFiled never before →
      (message ∈ after.messageIDs ↔ ∃ key ∈ after.filings, key.1 = message)) : Tended before after := by
  intro holds
  have loosened : WellFiled (Eq message) before :=
    { holds with paired := fun id => Or.inr (holds.whole id) }
  have kept := edits_well_filed edits loosened
  refine ⟨{ kept with paired := fun id => Or.inr ?_ }, edits_later edits⟩
  rcases kept.paired id with rfl | whole
  · exact settled holds
  · exact whole

theorem filed_key (filed : Filed tables message mailbox) : ∃ key ∈ tables.filings, key.1 = message := by
  obtain ⟨row, member, here, _⟩ := filed
  exact ⟨_, List.mem_map_of_mem member, here⟩

theorem message_listed {row : MessageRow} (found : tables.message? message = some row) :
    message ∈ tables.messageIDs := by
  obtain ⟨member, here⟩ := message_found found
  exact here ▸ List.mem_map_of_mem member

theorem released_paired (charged : PrincipalID) (listed : message ∈ tables.messageIDs) :
    message ∈ (tables.releaseIfUnfiled message charged).messageIDs ↔
      ∃ key ∈ (tables.releaseIfUnfiled message charged).filings, key.1 = message := by
  unfold releaseIfUnfiled
  split
  case isTrue filed =>
    obtain ⟨row, member, here⟩ := List.any_eq_true.mp filed
    exact iff_of_true listed ⟨_, List.mem_map_of_mem member, of_decide_eq_true here⟩
  case isFalse unfiled =>
    have gone : message ∉ (tables.deleteMessages fun row => decide (row.id = message)).messageIDs := by
      intro there
      obtain ⟨row, member, here⟩ := List.mem_map.mp there
      have spared := (List.mem_filter.mp member).2
      simp [here] at spared
    have bare : ¬∃ key ∈ (tables.deleteMessages fun row => decide (row.id = message)).filings,
      key.1 = message := by
      rintro ⟨key, there, here⟩
      obtain ⟨row, member, rfl⟩ := List.mem_map.mp there
      exact unfiled (List.any_eq_true.mpr ⟨row, (List.mem_filter.mp member).1, decide_eq_true here⟩)
    dsimp only
    split <;> exact iff_of_false gone bare

def leavable (tables : Tables) (mailbox place : MailboxID) : Prop :=
  tables.isTrash mailbox = false ∧ tables.isTrash place = true

theorem tended_add (ran : tables.addMessageToMailbox message mailbox = .ok after) :
    Tended tables after := by
  have filedThere : Keeping message (tables.leavable mailbox) tables after ∧
      (¬tables.leavable mailbox mailbox → Filed after message mailbox) :=
    keeping_add (fun clean place trash => ⟨clean, trash⟩) ran
  have stays : ¬tables.leavable mailbox mailbox := by
    rintro ⟨clean, trash⟩
    rw [clean] at trash
    cases trash
  have same : after.messageIDs = tables.messageIDs :=
    congrArg (List.map _) (add_message_accounts ran).messages
  obtain ⟨row, present, later⟩ := bind_ok ran
  obtain ⟨_, _, later⟩ := bind_ok later
  obtain ⟨box, _, later⟩ := bind_ok later
  obtain ⟨filed, inserted, ended⟩ := bind_ok later
  refine tended_settled message ?_ fun _ =>
    iff_of_true (same ▸ message_listed (require_ok present)) (filed_key (filedThere.2 stays))
  have placed : Edits (Eq message) tables ((filed.advance mailbox
      (box.highestModSeq + 1)).appendEmailChange row.principalID message mailbox .created) :=
    edits_told (edits_counted (edits_trans (edits_snapped box.trash) (edits_insert inserted rfl)) _
      _) _ _ _ _ _ _
  split at ended
  · cases ended
    exact placed
  · refine edits_trans placed ?_
    unfold removeTrashAndReplay at ended
    dsimp only at ended
    split at ended
    · cases ended
      exact .refl
    · obtain ⟨left, leaves, replayed⟩ := bind_ok ended
      exact edits_trans (edits_leave_trash rfl leaves) (edits_replay rfl replayed)

theorem tended_move {source target : MailboxID}
    (ran : tables.moveMessage message source target = .ok after) :
    Tended tables after := by
  have filedThere := (keeping_move (rfl : source = source) ran : Keeping message (source = ·)
    tables after ∧
    (¬source = target → Filed after message target)).2
  have same : after.messageIDs = tables.messageIDs := congrArg (List.map _) (move_accounts ran).messages
  obtain ⟨row, present, later⟩ := bind_ok ran
  obtain ⟨member, here, place⟩ := membership_found (require_ok present)
  obtain ⟨box, _, later⟩ := bind_ok later
  obtain ⟨filed, inserted, later⟩ := bind_ok later
  obtain ⟨left, deleted, later⟩ := bind_ok later
  obtain ⟨restored, replayed, ended⟩ := bind_ok later
  cases ended
  have snapped : (if box.trash then tables.snapshotPretrash message target else tables).members =
      tables.members := by split <;> rfl
  have movedMessage : (if box.trash then
      { row with
        snoozedUntil := none, wakeMailboxID := none
        keywordsCSV := joinKeywords ((splitKeywords row.keywordsCSV).filter fun keyword =>
          keyword ≠ [] ∧ keyword ≠ snoozedKeyword) }
    else row).messageID = message := by split <;> exact here
  refine tended_settled message ?_ fun holds => ?_
  · exact edits_told (edits_counted (edits_counted (edits_trans (edits_trans (edits_trans
      (edits_snapped box.trash) (edits_insert inserted movedMessage.symm))
        (edits_delete_membership rfl deleted))
        (edits_restored rfl replayed)) _ _) _ _) _ _ _ _ _ _
  · have listed := (holds.whole message).mpr ⟨_, List.mem_map_of_mem member, here⟩
    refine iff_of_true (same ▸ listed) (filed_key (filedThere ?_))
    rintro rfl
    exact ((insert_member_ok inserted).2 row (snapped.symm ▸ member) place).1
      (here.trans movedMessage.symm)

theorem tended_remove (ran : tables.removeMessageFromMailbox message mailbox = .ok after) :
    Tended tables after := by
  obtain ⟨_, _, later⟩ := bind_ok ran
  obtain ⟨row, present, later⟩ := bind_ok later
  obtain ⟨left, deleted, later⟩ := bind_ok later
  obtain ⟨restored, replayed, later⟩ := bind_ok later
  obtain ⟨charged, _, ended⟩ := bind_ok later
  cases ended
  have same : restored.messageIDs = tables.messageIDs := congrArg (List.map _)
    ((restored_accounts replayed).messages.trans (delete_membership_accounts deleted).messages)
  refine tended_settled message ?_ fun _ =>
    released_paired charged (same ▸ message_listed (require_ok present))
  exact edits_told (edits_trans (edits_counted (edits_trans (edits_delete_membership rfl deleted)
    (edits_restored rfl replayed)) _ _) (edits_release charged)) _ _ _ _ _ _

theorem tended_expunge_loop {owner charged : PrincipalID} {messages : List MessageID}
    {highest removed count : Nat}
    (ran : expungeLoop owner charged mailbox messages highest removed tables = .ok (count, after)) :
    Tended tables after := by
  induction messages generalizing highest removed tables with
  | nil =>
    cases ran
    exact tended_refl _
  | cons message messages ih =>
    unfold expungeLoop at ran
    split at ran
    · exact ih ran
    · rename_i present
      have there : (tables.membership? message mailbox).isSome = true := by
        simpa [Option.isSome_iff_ne_none] using present
      obtain ⟨row, found⟩ := Option.isSome_iff_exists.mp there
      obtain ⟨member, here, _⟩ := membership_found found
      obtain ⟨deleted, first, later⟩ := bind_ok ran
      dsimp only at later
      have same : deleted.messageIDs = tables.messageIDs :=
        congrArg (List.map _) (delete_membership_accounts first).messages
      refine tended_trans (tended_settled message (edits_told (edits_counted (edits_trans
        (edits_delete_membership rfl first) (edits_release charged)) _ _) _ _ _ _ _ _) fun holds =>
          ?_) (ih later)
      refine released_paired charged
        (same ▸ (holds.whole message).mpr ⟨_, List.mem_map_of_mem member, here⟩)

theorem tended_expunge {messages : List MessageID}
    (ran : tables.expungeMessages mailbox messages = .ok after) :
    Tended tables after := by
  unfold expungeMessages at ran
  split at ran
  · cases ran
    exact tended_refl _
  · obtain ⟨box, _, later⟩ := bind_ok ran
    obtain ⟨charged, _, later⟩ := bind_ok later
    obtain ⟨⟨count, final⟩, looped, ended⟩ := bind_ok later
    dsimp only at ended
    split at ended
    · cases ended
    · cases ended
      exact tended_expunge_loop looped

theorem edits_file_targets {loose : MessageID → Prop} {principal : PrincipalID}
    {targets : List MailStore.Target}
    (may : loose message) (ran : fileTargets principal message targets tables = .ok after) :
    Edits loose tables after := by
  induction targets generalizing tables with
  | nil =>
    cases ran
    exact .refl
  | cons target targets ih =>
    obtain ⟨placed, first, later⟩ := bind_ok ran
    obtain ⟨box, _, filing⟩ := bind_ok first
    obtain ⟨filed, inserted, ended⟩ := bind_ok filing
    cases ended
    exact edits_trans (edits_told (edits_counted (edits_insert inserted may) _ _) _ _ _ _ _ _)
      (ih later)

theorem file_targets_filed {principal : PrincipalID} {targets : List MailStore.Target}
    (ran : fileTargets principal message targets tables = .ok after)
    (some : targets ≠ [] ∨ ∃ key ∈ tables.filings, key.1 = message) :
      ∃ key ∈ after.filings, key.1 = message := by
  induction targets generalizing tables with
  | nil =>
    cases ran
    exact some.resolve_left fun none => none rfl
  | cons target targets ih =>
    obtain ⟨placed, first, later⟩ := bind_ok ran
    obtain ⟨box, _, filing⟩ := bind_ok first
    obtain ⟨filed, inserted, ended⟩ := bind_ok filing
    cases ended
    refine ih later (Or.inr ⟨(message, target.mailboxID), ?_, rfl⟩)
    rw [(insert_member_ok inserted).1]
    exact List.mem_map.mpr ⟨_, List.mem_append_right _ (List.mem_singleton_self _), rfl⟩

theorem edits_log_merged {loose : MessageID → Prop} (principal : PrincipalID)
    (merged : List MessageID) :
    Edits loose tables (tables.logMerged principal merged) := by
  unfold logMerged
  generalize (merged.flatMap fun message =>
    (tables.members.filter fun row => row.messageID = message).map
      fun row => (message, row.mailboxID)) = keys
  induction keys generalizing tables with
  | nil => exact .refl
  | cons key keys ih => exact edits_trans (edits_told .refl _ _ _ _ _ _) ih

theorem tended_insert {message : NewMessage} (targeted : message.targets ≠ [])
    (ran : tables.insertMessage message = .ok after) : Tended tables after := by
  obtain ⟨principal, _, later⟩ := bind_ok ran
  obtain ⟨charged, _, later⟩ := bind_ok later
  obtain ⟨account, _, later⟩ := bind_ok later
  obtain ⟨_, _, later⟩ := bind_ok later
  obtain ⟨filed, filing, ended⟩ := bind_ok later
  cases ended
  have there := file_targets_filed filing (Or.inl (by simpa using targeted))
  refine tended_settled tables.nextMessageID ?_ fun _ => iff_of_true ?_ ?_
  · refine edits_trans ?_ (edits_trans (edits_file_targets rfl filing) (edits_trans ?_
      (edits_log_merged principal message.merged)))
    · exact .single (.opened rfl (List.map_append ..) rfl rfl rfl)
    · exact edits_aside rfl rfl rfl rfl
  · unfold messageIDs
    rw [(log_merged_accounts _ _ _).messages]
    show _ ∈ filed.messages.map MessageRow.id
    rw [(file_targets_accounts filing).messages]
    exact List.mem_map.mpr ⟨_, List.mem_append_right _ (List.mem_singleton_self _), rfl⟩
  · unfold filings
    rw [(log_merged_tables _ _ _).1]
    exact there

theorem tended_insert_all {messages : List NewMessage}
    (targeted : ∀ message ∈ messages, message.targets ≠ [])
    (ran : insertAll messages tables = .ok after) : Tended tables after := by
  induction messages generalizing tables with
  | nil =>
    cases ran
    exact tended_refl _
  | cons message messages ih =>
    obtain ⟨inserted, first, later⟩ := bind_ok ran
    exact tended_trans (tended_insert (targeted message List.mem_cons_self) first)
      (ih (fun other member => targeted other (List.mem_cons_of_mem _ member)) later)

theorem edits_touch_members {loose : MessageID → Prop} {principal : PrincipalID}
    {mailboxes : List MailboxID}
    (ran : touchMembers principal message mailboxes tables = .ok after) : Edits loose tables after := by
  induction mailboxes generalizing tables with
  | nil =>
    cases ran
    exact .refl
  | cons place mailboxes ih =>
    obtain ⟨touched, first, later⟩ := bind_ok ran
    obtain ⟨box, _, ended⟩ := bind_ok first
    cases ended
    refine edits_trans ?_ (ih later)
    refine edits_told (edits_counted (edits_update _ _ _ ?_) _ _) _ _ _ _ _ _
    exact fun _ => ⟨rfl, rfl⟩

theorem tended_body {blob : BlobName} {size : Nat}
    (ran : tables.replaceMessageBody message blob size = .ok after) :
    Tended tables after := by
  obtain ⟨row, _, later⟩ := bind_ok ran
  obtain ⟨charged, _, later⟩ := bind_ok later
  obtain ⟨_, _, touched⟩ := bind_ok later
  refine tended_edits (edits_trans (edits_written [] ?_ ?_ ?_ ?_) (edits_touch_members touched))
  · have same : (tables.messages.map fun other =>
        if other.id = message then { other with blob, size } else other).map MessageRow.id =
          tables.messageIDs := by
      rw [List.map_map]
      refine List.map_congr_left fun other _ => ?_
      dsimp only [Function.comp]
      split <;> rfl
    split <;> exact same
  all_goals split <;> rfl

theorem tended_write {write : Write} (ran : write.apply tables = .ok after) : Tended tables after := by
  cases write with
  | insert messages =>
    have filling : tables.insertMessages messages = .ok after := ran
    unfold insertMessages at filling
    split at filling
    · cases filling
    · rename_i targeted
      refine tended_insert_all (fun message member none => targeted ?_) filling
      exact List.any_eq_true.mpr ⟨message, member, List.isEmpty_iff.mpr none⟩
  | replaceBody => exact tended_body ran
  | add => exact tended_add ran
  | remove => exact tended_remove ran
  | move => exact tended_move ran
  | expunge => exact tended_expunge ran
  | updateFlags =>
    obtain ⟨row, _, later⟩ := bind_ok ran
    obtain ⟨_, _, later⟩ := bind_ok later
    obtain ⟨box, _, ended⟩ := bind_ok later
    cases ended
    refine tended_edits (edits_told (edits_counted (edits_update _ _ _ ?_) _ _) _ _ _ _ _ _)
    exact fun _ => ⟨rfl, rfl⟩
  | setSnooze => exact tended_edits (edits_handed (set_snooze_handed ran))
  | releaseSnooze => exact tended_edits (edits_handed (set_snooze_handed ran))
  | consolidateSnooze => exact tended_edits (edits_handed (transfer_snooze_handed ran))
  | recordArrival =>
    obtain ⟨row, _, later⟩ := bind_ok ran
    obtain ⟨_, _, later⟩ := bind_ok later
    obtain ⟨box, _, ended⟩ := bind_ok later
    cases ended
    refine tended_edits (edits_told (edits_counted (edits_update _ _ _ ?_) _ _) _ _ _ _ _ _)
    exact fun _ => ⟨rfl, rfl⟩

theorem edits_drop_all {loose : MessageID → Prop} (charged : PrincipalID) (soles : List MessageRow) :
    Edits loose tables (soles.foldl (fun tables sole => tables.dropSole mailbox charged sole)
      tables) := by
  induction soles generalizing tables with
  | nil => exact .refl
  | cons sole soles ih =>
    refine edits_trans (edits_trans
      (edits_delete_messages fun row => decide (row.blob.hash = sole.blob.hash ∧
      tables.members.any fun member =>
        decide (member.messageID = row.id ∧ member.mailboxID = mailbox))) ?_) ih
    exact edits_aside rfl rfl rfl rfl

theorem edits_delete_memberships {loose : MessageID → Prop} {messages : List MessageID}
    (may : ∀ message, loose message) (ran : deleteMemberships mailbox messages tables = .ok after) :
    Edits loose tables after := by
  induction messages generalizing tables with
  | nil =>
    cases ran
    exact .refl
  | cons message messages ih =>
    obtain ⟨left, first, later⟩ := bind_ok ran
    exact edits_trans (edits_delete_membership (may message) first) (ih later)

theorem edits_delete_mailbox (ran : tables.deleteMailbox mailbox = .ok after) :
    Edits (fun _ => True) tables after := by
  obtain ⟨box, _, later⟩ := bind_ok ran
  obtain ⟨charged, _, later⟩ := bind_ok later
  obtain ⟨emptied, deleted, ended⟩ := bind_ok later
  cases ended
  refine edits_told (edits_trans (edits_trans (edits_drop_all charged _)
    (edits_delete_memberships (fun _ => trivial) deleted)) ?_) _ _ _ _ _ _
  have fewer := (List.filter_sublist (p := fun row : Membership => decide (row.mailboxID ≠ mailbox))
    (l := emptied.members)).map fun row => (row.messageID, row.mailboxID)
  refine .single (.unfiled rfl ?_ (fun _ _ => Or.inl trivial) rfl rfl)
  rwa [filings, List.map_map]

/-- A message that is filed in the mailbox only goes with it. -/
theorem doomed_of_only (holds : WellFiled never tables) {row : MessageRow}
    (member : row ∈ tables.messages)
    (only : ∀ filing ∈ tables.members, filing.messageID = row.id → filing.mailboxID = mailbox) :
    tables.doomed mailbox (tables.soleMessages mailbox) row = true := by
  have filedRow (row : MessageRow) (member : row ∈ tables.messages) :
      ∃ filing ∈ tables.members, filing.messageID = row.id := by
    obtain ⟨key, listed, same⟩ := (holds.whole row.id).mp (List.mem_map_of_mem member)
    obtain ⟨filing, filed, rfl⟩ := List.mem_map.mp listed
    exact ⟨filing, filed, same⟩
  -- what the deletion looks for does not depend on the references
  have sound : Sound { tables with
      blobRefs := fun hash => tables.messages.countP (fun row => decide (row.blob.hash = hash)) } := by
    refine ⟨List.pairwise_map.mp holds.ids, (List.pairwise_map.mp holds.keys).imp ?_, filedRow,
      fun _ => Nat.le_refl _⟩
    rintro left right apart ⟨sameMessage, samePlace⟩
    exact apart (Prod.ext sameMessage samePlace)
  have sole : row ∈ tables.soleMessages mailbox := (mem_sole sound).mpr ⟨member, only⟩
  obtain ⟨filing, filed, same⟩ := filedRow row member
  refine Bool.and_eq_true_iff.mpr ⟨List.any_eq_true.mpr ⟨row, sole, decide_eq_true rfl⟩, ?_⟩
  exact List.any_eq_true.mpr ⟨filing, filed, decide_eq_true ⟨same, only filing filed same⟩⟩

theorem tended_delete_mailbox (ran : tables.deleteMailbox mailbox = .ok after) :
    Tended tables after := by
  intro holds
  have edits := edits_delete_mailbox ran
  have kept := edits_well_filed edits { holds with paired := fun _ => Or.inl trivial }
  obtain ⟨messages, rows, _⟩ := delete_mailbox_amounts (List.pairwise_map.mp holds.ids) ran
  -- a membership elsewhere stays just when its message does
  have spared (filing : Membership) (row : MessageRow) (member : row ∈ tables.messages)
      (same : filing.messageID = row.id) :
      (!(tables.doomedIds mailbox (tables.soleMessages mailbox)).contains filing.messageID) =
        !tables.doomed mailbox (tables.soleMessages mailbox) row := by
    rw [List.contains_eq_mem, Bool.not_inj_iff, Bool.eq_iff_iff, decide_eq_true_iff, mem_doomed_ids]
    constructor
    · rintro ⟨gone, goneMember, doomed, goneId⟩
      exact List.inj_on_of_nodup_map holds.ids goneMember member (goneId.trans same) ▸ doomed
    · exact fun doomed => ⟨row, member, doomed, same.symm⟩
  have handedOver {old new : Membership} (spared : Spared tables.members mailbox old new) :
      new.messageID = old.messageID := by
    obtain ⟨kept, handed, rfl⟩ := spared
    rcases handed with rfl | ⟨_, alike⟩
    · rfl
    · exact alike.message
  refine ⟨{ kept with paired := fun id => Or.inr ⟨?_, ?_⟩ }, edits_later edits⟩
  · intro listed
    obtain ⟨row, rowMember, rfl⟩ := List.mem_map.mp listed
    rw [messages, List.mem_filter] at rowMember
    obtain ⟨member, stays⟩ := rowMember
    have elsewhere : ∃ filing ∈ tables.members, filing.messageID = row.id ∧
      filing.mailboxID ≠ mailbox := by
      by_contra nowhere
      rw [doomed_of_only holds member fun filing filed same => by_contra fun other =>
        nowhere ⟨filing, filed, same, other⟩] at stays
      cases stays
    obtain ⟨filing, filed, same, other⟩ := elsewhere
    have there : filing ∈ Tables.elsewhere (tables.members.filter fun row =>
        !(tables.doomedIds mailbox (tables.soleMessages mailbox)).contains row.messageID) mailbox :=
      List.mem_filter.mpr ⟨List.mem_filter.mpr ⟨filed, (spared filing row member same).trans stays⟩,
        decide_eq_true other⟩
    obtain ⟨new, newMember, handed⟩ := forall_across_left rows there
    exact ⟨_, List.mem_map_of_mem newMember, (handedOver handed).trans same⟩
  · rintro ⟨_, listed, rfl⟩
    obtain ⟨new, newMember, rfl⟩ := List.mem_map.mp listed
    obtain ⟨old, oldMember, handed⟩ := forall_across rows newMember
    obtain ⟨filed, stays⟩ := List.mem_filter.mp (List.mem_filter.mp oldMember).1
    obtain ⟨row, member, same⟩ :=
      List.mem_map.mp ((holds.whole _).mpr ⟨_, List.mem_map_of_mem filed, rfl⟩)
    refine List.mem_map.mpr ⟨row, ?_, same.trans (handedOver handed).symm⟩
    rw [messages, List.mem_filter]
    exact ⟨member, (spared old row member same.symm).symm.trans stays⟩

theorem tended_dense {principal : PrincipalID} {oldOf : MailboxID → Option Int} {index : Nat}
    {ids : List MailboxID} (state : RankedTables) : Tended state.tables
      (RankedTables.applyDenseMailboxPriorities principal oldOf index ids state).tables := by
  induction ids generalizing index state with
  | nil => exact tended_refl _
  | cons id ids ih =>
    refine tended_trans ?_ (ih _)
    split
    · exact tended_refl _
    · exact tended_edits (edits_told .refl _ _ _ _ _ _)

theorem tended_call {call : RankedTables.RankCall} {state after : RankedTables}
    (ran : call.apply state = .ok after) :
    Tended state.tables after.tables := by
  cases call with
  | reorder principal mailbox newRank =>
    obtain ⟨box, _, later⟩ := bind_ok ran
    split at later
    · cases later
    · dsimp only at later
      split at later
      · cases later
        exact tended_trans (tended_dense state) (tended_edits (edits_told .refl _ _ _ _ _ _))
      · cases later
        exact tended_dense state
  | delete mailbox =>
    obtain ⟨box, _, later⟩ := bind_ok ran
    obtain ⟨deleted, gone, later⟩ := bind_ok later
    have first := tended_delete_mailbox gone
    dsimp only at later
    split at later
    · cases later
      exact tended_trans first (tended_dense (state.removed mailbox deleted))
    · cases later
      exact first

theorem tended_step (operation : Operation) :
    Tended tables (committed tables (operation.apply tables)) := by
  cases ran : operation.apply tables with
  | error => exact tended_refl tables
  | ok after =>
    cases operation with
    | write => exact tended_write ran
    | deleteMailbox => exact tended_delete_mailbox ran

theorem tended_run {operations : List Operation}
    (ran : Operation.machine.execute tables operations = some after) :
    Tended tables after := by
  induction operations generalizing tables with
  | nil =>
    cases ran
    exact tended_refl _
  | cons operation operations ih => exact tended_trans (tended_step operation) (ih ran)

end Transactions

/-- Whatever is done to a store in whatever order, a message is there just when it is
filed, identifiers are unique, and no message is filed twice in one place. -/
theorem every_message_filed (start final : Tables) (operations : List Operation)
    (holds : WellFiled never start)
    (ran : Operation.machine.execute start operations = some final) :
    final.messageIDs.Nodup ∧ final.filings.Nodup ∧
      ∀ id, id ∈ final.messageIDs ↔ ∃ key ∈ final.filings, key.1 = id := by
  obtain ⟨kept, _⟩ := tended_run ran holds
  exact ⟨kept.ids, kept.keys, kept.whole⟩

/-- In no run does a deleted message come back, nor another under its identifier. -/
theorem deleted_stays_deleted (start final : Tables) (operations : List Operation)
    (holds : WellFiled never start) (ran : Operation.machine.execute start operations = some final)
    (id : MessageID) (issued : id < start.nextMessageID) (gone : id ∉ start.messageIDs) :
    id ∉ final.messageIDs := by
  intro back
  obtain ⟨_, later⟩ := tended_run ran holds
  rcases later.ids id back with there | fresh
  · exact gone there
  · exact Nat.not_lt.mpr fresh issued

section Feed

def feedOf (changes : List FeedRow) (principal : PrincipalID) : List Nat :=
  (changes.filter fun row => row.change.principalID = principal).map fun row => row.change.seq

/-- The entries of every principal are numbered from one on, without a gap. -/
def Gapless (changes : List FeedRow) : Prop :=
  ∀ principal, feedOf changes principal = List.range' 1 (feedOf changes principal).length

theorem range_max (count : Nat) : (List.range' 1 count).foldl max 0 = count := by
  induction count with
  | zero => rfl
  | succ count ih =>
    rw [List.range'_concat, List.foldl_append, ih]
    simp only [List.foldl_cons, List.foldl_nil]
    omega

theorem append_entry_gapless {changes : List FeedRow} (gapless : Gapless changes) (entry : FeedRow) :
    Gapless (appendEntry changes entry) := by
  intro principal
  have old := gapless principal
  unfold feedOf appendEntry at *
  rw [List.filter_append, List.map_append]
  by_cases own : entry.change.principalID = principal
  · subst own
    simp only [List.filter_cons, decide_true, if_true, List.filter_nil, List.map_cons, List.map_nil,
      List.length_append, List.length_singleton, List.range'_concat]
    rw [old, range_max]
    simp [Nat.add_comm]
  · simp only [List.filter_cons, own, decide_false, Bool.false_eq_true, if_false, List.filter_nil,
      List.map_nil,
      List.append_nil]
    exact old

theorem logged_gapless {changes : List FeedRow} (gapless : Gapless changes) (entries : List FeedRow) :
    Gapless (logged changes entries) ∧ changes <+: logged changes entries := by
  induction entries generalizing changes with
  | nil => exact ⟨gapless, List.prefix_refl _⟩
  | cons entry entries ih =>
    obtain ⟨later, longer⟩ := ih (append_entry_gapless gapless entry)
    exact ⟨later, (List.prefix_append _ _).trans longer⟩

theorem tended_ranked_run {operations : List RankedOperation} {start final : RankedTables}
    (ran : RankedOperation.machine.execute start operations = some final) :
    Tended start.tables final.tables := by
  induction operations generalizing start with
  | nil =>
    cases ran
    exact tended_refl _
  | cons operation operations ih =>
    refine tended_trans ?_ (ih ran)
    cases applied : operation.apply start with
    | error => exact tended_refl _
    | ok after =>
      cases operation with
      | write write =>
        obtain ⟨written, wrote, ended⟩ := bind_ok applied
        cases ended
        exact tended_write wrote
      | label call => exact tended_call applied

/-- In every run, the labels' ranks and their renumbering included, the feed only grows
at its end, and each principal finds its entries numbered without a gap. -/
theorem feed_gapless (start final : RankedTables) (operations : List RankedOperation)
    (holds : WellFiled never start.tables) (gapless : Gapless start.tables.changes)
    (ran : RankedOperation.machine.execute start operations = some final) :
    Gapless final.tables.changes ∧ start.tables.changes <+: final.tables.changes := by
  obtain ⟨entries, changes⟩ := (tended_ranked_run ran holds).2.changes
  rw [changes]
  exact logged_gapless gapless entries

end Feed

/-- One message in the first of two mailboxes, and one deleted before it. -/
def secondFiled : Tables where
  principals := [{ id := 1, usedBytes := 5 }]
  mailboxes := [{ id := 1, principalID := 1, name := [97], uidNext := 2 },
    { id := 2, principalID := 1, name := [98] }]
  messages := [{ id := 2, principalID := 1, blob := byteBlob 7, size := 5 }]
  members := [⟨2, 1, 1, 1, 0, [], none, none⟩]
  nextMessageID := 3

theorem second_well_filed : WellFiled never secondFiled := by
  refine ⟨by decide, by decide, by decide, fun id => Or.inr ?_⟩
  simp [secondFiled, messageIDs, filings, eq_comm]

def filedAndMoved : List Operation :=
  [appendedBy 1, .write (.move 2 1 2), .write (.expunge 1 [3]), .deleteMailbox 1]

theorem filed_and_moved :
    ∃ final, Operation.machine.execute secondFiled filedAndMoved = some final ∧ final.messageIDs = [2] ∧
      final.messageIDs.Nodup ∧ final.filings.Nodup ∧
        ∀ id, id ∈ final.messageIDs ↔ ∃ key ∈ final.filings, key.1 = id :=
  ⟨_, rfl, rfl, every_message_filed secondFiled _ filedAndMoved second_well_filed rfl⟩

def rankedAndMoved : List RankedOperation :=
  [.label (.reorder 1 1 (some 0)), .label (.reorder 1 2 (some 1)), .write (.move 2 1 2),
    .label (.delete 1)]

theorem ranked_and_moved_feed :
    ∃ final, RankedOperation.machine.execute ⟨secondFiled, fun _ => none⟩ rankedAndMoved = some final ∧
      feedOf final.tables.changes 1 = [1, 2, 3, 4, 5] ∧ Gapless final.tables.changes ∧
        secondFiled.changes <+: final.tables.changes :=
  ⟨_, rfl, rfl, feed_gapless ⟨secondFiled, fun _ => none⟩ _ rankedAndMoved second_well_filed
    (fun _ => rfl) rfl⟩

theorem first_stays_deleted :
    ∃ final, Operation.machine.execute secondFiled filedAndMoved = some final ∧ 1 ∉ final.messageIDs :=
  ⟨_, rfl, deleted_stays_deleted secondFiled _ filedAndMoved second_well_filed rfl 1 (by decide)
    (by decide)⟩

end Tables
end Herold.Store

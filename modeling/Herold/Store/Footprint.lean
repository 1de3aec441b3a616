import Herold.Store.Numbering

/-!
# What a transaction on one message leaves alone

Most transactions work on one message. Whatever they do to it, the rows of other
messages stay, the mailboxes keep their owners, and the feed grows by rows that are
known. The summary of a transaction composes from those of its statements.
-/

namespace Herold.Store

open Herold.Go Herold.Machine

namespace Tables

def rowsOf (tables : Tables) (message : MessageID) : List Membership :=
  tables.members.filter fun row => row.messageID = message

def SameOwner (old new : Mailbox) : Prop :=
  new.id = old.id ∧ new.principalID = old.principalID ∧ new.trash = old.trash

structure Footprint (message : MessageID) (before after : Tables) (entries : List FeedRow) : Prop where
  changes : after.changes = logged before.changes entries
  nextMessageID : after.nextMessageID = before.nextMessageID
  fewer : after.messages.Sublist before.messages
  messages : ∀ row, row.id ≠ message → (row ∈ after.messages ↔ row ∈ before.messages)
  members : ∀ other, other ≠ message → rowsOf after other = rowsOf before other
  mailboxes : List.Forall₂ SameOwner before.mailboxes after.mailboxes

theorem same_owners_refl (boxes : List Mailbox) : List.Forall₂ SameOwner boxes boxes :=
  forall_refl (fun box => (⟨rfl, rfl, rfl⟩ : SameOwner box box)) boxes

theorem same_owners_trans {first second third : List Mailbox}
    (earlier : List.Forall₂ SameOwner first second)
    (later : List.Forall₂ SameOwner second third) : List.Forall₂ SameOwner first third := by
  refine forall_trans ?_ earlier later
  intro left middle right first second
  exact ⟨second.1.trans first.1, second.2.1.trans first.2.1, second.2.2.trans first.2.2⟩

theorem found_alike {before after : Tables}
    (boxes : List.Forall₂ SameOwner before.mailboxes after.mailboxes)
    (id : MailboxID) :
    (after.mailbox? id).map (fun box => (box.principalID, box.trash)) =
      (before.mailbox? id).map fun box => (box.principalID, box.trash) := by
  unfold mailbox?
  generalize before.mailboxes = left at boxes ⊢
  generalize after.mailboxes = right at boxes ⊢
  induction boxes with
  | nil => rfl
  | @cons old new _ _ same _ ih =>
    rw [List.find?_cons, List.find?_cons, same.1]
    split
    · simp [same.2.1, same.2.2]
    · exact ih

theorem trash_alike {before after : Tables}
    (boxes : List.Forall₂ SameOwner before.mailboxes after.mailboxes)
    (id : MailboxID) : after.isTrash id = before.isTrash id := by
  have alike := congrArg (fun found => (found.map Prod.snd).getD false) (found_alike boxes id)
  simpa [isTrash, Function.comp_def] using alike

theorem same_owners_update (tables : Tables) (id : MailboxID) (change : Mailbox → Mailbox)
    (keeps : ∀ box, SameOwner box (change box)) :
    List.Forall₂ SameOwner tables.mailboxes (tables.updateMailbox id change).mailboxes := by
  refine forall_map _ _ fun box _ => ?_
  split
  · exact keeps box
  · exact ⟨rfl, rfl, rfl⟩

section Compose

variable {message : MessageID}

section

variable (tables : Tables) {before after : Tables} (mailbox : MailboxID)

theorem footprint_refl : Footprint message tables tables [] :=
  ⟨rfl, rfl, List.Sublist.refl _, fun _ _ => Iff.rfl, fun _ _ => rfl, same_owners_refl _⟩

theorem footprint_trans {first second third : Tables} {entries more : List FeedRow}
    (earlier : Footprint message first second entries) (later : Footprint message second third more) :
    Footprint message first third (entries ++ more) where
  changes := by rw [later.changes, earlier.changes, logged_append]
  nextMessageID := later.nextMessageID.trans earlier.nextMessageID
  fewer := later.fewer.trans earlier.fewer
  messages := fun row differ => (later.messages row differ).trans (earlier.messages row differ)
  members := fun other differ => (later.members other differ).trans (earlier.members other differ)
  mailboxes := same_owners_trans earlier.mailboxes later.mailboxes

theorem footprint_silent {first second third : Tables} (earlier : Footprint message first second [])
    (later : Footprint message second third []) : Footprint message first third [] :=
  footprint_trans earlier later

theorem footprint_counters (changes : after.changes = before.changes)
    (next : after.nextMessageID = before.nextMessageID) (messages : after.messages = before.messages)
    (members : after.members = before.members)
    (mailboxes : List.Forall₂ SameOwner before.mailboxes after.mailboxes) :
    Footprint message before after [] := by
  refine ⟨changes, next, by rw [messages], fun row _ => by rw [messages], fun other _ => ?_, mailboxes⟩
  unfold rowsOf
  rw [members]

theorem footprint_advance (modSeq : Nat) :
    Footprint message tables (tables.advance mailbox modSeq) [] :=
  footprint_counters rfl rfl rfl rfl (same_owners_update _ _ _ fun _ => ⟨rfl, rfl, rfl⟩)

theorem footprint_bump : Footprint message tables (tables.bumpHighest mailbox) [] :=
  footprint_counters rfl rfl rfl rfl (same_owners_update _ _ _ fun _ => ⟨rfl, rfl, rfl⟩)

theorem footprint_highest (modSeq : Nat) :
    Footprint message tables (tables.setHighest mailbox modSeq) [] :=
  footprint_counters rfl rfl rfl rfl (same_owners_update _ _ _ fun _ => ⟨rfl, rfl, rfl⟩)

theorem footprint_logged (principal : PrincipalID) (kind : EntityKind)
    (entity parent : Nat) (op : ChangeOp) (cause : ChangeCause) :
    Footprint message tables (tables.appendChange principal kind entity parent op cause)
      [entryOf principal kind entity parent op cause] :=
  ⟨rfl, rfl, List.Sublist.refl _, fun _ _ => Iff.rfl, fun _ _ => rfl, same_owners_refl _⟩

theorem footprint_tells (silent : Footprint message before after [])
    (principal : PrincipalID) (kind : EntityKind) (entity parent : Nat) (op : ChangeOp)
    (cause : ChangeCause) :
    Footprint message before (after.appendChange principal kind entity parent op cause)
      [entryOf principal kind entity parent op cause] :=
  footprint_trans silent (footprint_logged after principal kind entity parent op cause)

theorem footprint_insert {tables filed : Tables} {row : Membership} (here : row.messageID = message)
    (inserted : tables.insertMember row = .ok filed) : Footprint message tables filed [] := by
  obtain ⟨rfl, _⟩ := insert_member_ok inserted
  refine ⟨rfl, rfl, List.Sublist.refl _, fun _ _ => Iff.rfl, fun other differ => ?_, same_owners_refl _⟩
  unfold rowsOf
  rw [List.filter_append, List.filter_cons_of_neg (by simpa [here] using Ne.symm differ),
    List.filter_nil,
    List.append_nil]

theorem footprint_update (change : Membership → Membership)
    (keeps : ∀ row, (change row).messageID = row.messageID) :
    Footprint message tables (tables.updateMember message mailbox change) [] := by
  refine ⟨rfl, rfl, List.Sublist.refl _, fun _ _ => Iff.rfl, fun other differ => ?_, same_owners_refl _⟩
  unfold rowsOf updateMember
  dsimp only
  induction tables.members with
  | nil => rfl
  | cons row rows ih =>
    rw [List.map_cons]
    by_cases key : row.messageID = message ∧ row.mailboxID = mailbox
    · rw [if_pos key, List.filter_cons_of_neg, List.filter_cons_of_neg, ih]
      · simpa [key.1] using Ne.symm differ
      · simpa [keeps, key.1] using Ne.symm differ
    · rw [if_neg key, List.filter_cons, List.filter_cons, ih]

theorem footprint_delete : Footprint message tables (tables.deleteMember message mailbox) [] := by
  refine ⟨rfl, rfl, List.Sublist.refl _, fun _ _ => Iff.rfl, fun other differ => ?_, same_owners_refl _⟩
  unfold rowsOf deleteMember
  dsimp only
  rw [List.filter_filter]
  refine List.filter_congr fun row _ => ?_
  by_cases here : row.messageID = other
  · simp [here, differ]
  · simp [here]

theorem reminded_others {before after : List Membership}
    (rows : List.Forall₂ (Reminded message) before after) {other : MessageID}
    (differ : other ≠ message) :
    (after.filter fun row => decide (row.messageID = other)) =
      before.filter fun row => decide (row.messageID = other) := by
  induction rows with
  | nil => rfl
  | @cons old new before after here _ ih =>
    rw [List.filter_cons, List.filter_cons, ih, (reminded_key here).1]
    split
    · rename_i wanted
      rcases here with rfl | ⟨away, _⟩
      · rfl
      · exact absurd ((of_decide_eq_true wanted).symm.trans away) differ
    · rfl

theorem footprint_handed (handed : Handed message before after) :
    ∃ entries, Footprint message before after entries ∧ ∀ entry ∈ entries,
      TellsUpdate message before.mailboxes entry := by
  obtain ⟨entries, changes, told⟩ := handed.changes
  refine ⟨entries, ⟨changes,
    handed.nextMessageID, by rw [handed.messages], fun row _ => by rw [handed.messages],
    ?_, ?_⟩, told⟩
  · exact fun other differ => reminded_others handed.members differ
  · exact handed.mailboxes.imp fun old new stamped =>
      ⟨(stamped_id stamped).1, (stamped_id stamped).2.1, (stamped_id stamped).2.2.1⟩

theorem footprint_delete_membership {tables after : Tables} {mailbox : MailboxID} {handOver : Bool}
    (ran : tables.deleteMembership message mailbox handOver = .ok after) :
    ∃ entries, Footprint message tables after entries ∧
      ∀ entry ∈ entries, TellsUpdate message tables.mailboxes entry := by
  obtain ⟨entries, footprint, told⟩ := footprint_handed (delete_membership_handed ran)
  exact ⟨entries, footprint_trans (footprint_delete tables mailbox) footprint, told⟩

theorem footprint_replay_all {mailboxes : List MailboxID} {tables after : Tables}
    (ran : replayAll message mailboxes tables = .ok after) : Footprint message tables after [] := by
  induction mailboxes generalizing tables with
  | nil =>
    cases ran
    exact footprint_refl _
  | cons mailbox mailboxes ih =>
    obtain ⟨middle, first, later⟩ := bind_ok ran
    have one : Footprint message tables middle [] := by
      unfold replayInto at first
      split at first
      · cases first
        exact footprint_refl _
      · split at first
        · cases first
          exact footprint_refl _
        · obtain ⟨filed, inserted, ended⟩ := bind_ok first
          cases ended
          exact footprint_trans (footprint_insert rfl inserted) (footprint_advance filed mailbox _)
    exact footprint_trans one (ih later)

theorem footprint_replay {tables after : Tables} (ran : tables.replayPretrash message = .ok after) :
    Footprint message tables after [] := by
  obtain ⟨replayed, first, ended⟩ := bind_ok ran
  cases ended
  refine footprint_trans (footprint_replay_all first) ?_
  exact footprint_counters rfl rfl rfl rfl (same_owners_refl _)

theorem footprint_restored {left restored : Tables} {trash : Bool}
    (ran : (if trash then left.replayPretrash message else .ok left) = .ok restored) :
    Footprint message left restored [] := by
  cases trash with
  | true => exact footprint_replay ran
  | false =>
    cases ran
    exact footprint_refl _

theorem footprint_snapped (trash : Bool) :
    Footprint message tables (if trash then tables.snapshotPretrash message mailbox else tables)
      [] := by
  cases trash with
  | true => exact footprint_counters rfl rfl rfl rfl (same_owners_refl _)
  | false => exact footprint_refl tables

theorem footprint_release (charged : PrincipalID) :
    Footprint message tables (tables.releaseIfUnfiled message charged) [] := by
  have dropped : Footprint message tables
    (tables.deleteMessages fun row => decide (row.id = message)) [] := by
    refine ⟨rfl, rfl, List.filter_sublist, ?_, ?_, same_owners_refl _⟩
    · intro row differ
      show row ∈ tables.messages.filter _ ↔ _
      simp [List.mem_filter, differ]
    · intro other differ
      unfold rowsOf deleteMessages
      dsimp only
      rw [List.filter_filter]
      refine List.filter_congr fun row _ => ?_
      by_cases here : row.messageID = other
      · have absent : other ∉ (tables.messages.filter fun row => decide (row.id = message)).map
          MessageRow.id := by
          simp only [List.mem_map, List.mem_filter, decide_eq_true_eq, not_exists, not_and]
          exact fun row member same => differ (same.symm.trans member.2)
        simp [here, absent]
      · simp [here]
  unfold releaseIfUnfiled
  split
  · exact footprint_refl tables
  · dsimp only
    split
    · exact dropped
    · exact ⟨dropped.changes, dropped.nextMessageID, dropped.fewer, dropped.messages, dropped.members,
        dropped.mailboxes⟩

end

end Compose

end Tables

end Herold.Store

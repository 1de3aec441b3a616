import Herold.Machine.Fuel
import Herold.Store.Tables

/-!
# What handing over a reminder changes

Removing a membership may move the reminder it held to another membership of the
message. Whatever path that takes, it stamps rows of this one message, raises the
counters of the mailboxes they are in, and tells the feed of their owners; nothing
else in the tables changes.
-/

namespace Herold.Store

open Herold.Go Herold.Machine

namespace Tables

theorem require_ok {Row : Type} {row : Option Row} {value : Row} (present : require row = .ok value) :
    row = some value := by
  cases row with
  | none => cases present
  | some found => exact congrArg some (Except.ok.inj present)

theorem mailbox_found {tables : Tables} {id : MailboxID} {box : Mailbox}
    (found : tables.mailbox? id = some box) : box ∈ tables.mailboxes ∧ box.id = id :=
  ⟨List.mem_of_find?_eq_some found, by simpa using List.find?_some found⟩

theorem membership_found {tables : Tables} {message : MessageID} {mailbox : MailboxID}
    {row : Membership}
    (found : tables.membership? message mailbox = some row) :
    row ∈ tables.members ∧ row.messageID = message ∧ row.mailboxID = mailbox :=
  ⟨List.mem_of_find?_eq_some found, by simpa using List.find?_some found⟩

/-- Two rows that differ in their reminder and their stamp at most. -/
structure SameButReminder (old new : Membership) : Prop where
  message : new.messageID = old.messageID
  mailbox : new.mailboxID = old.mailboxID
  uid : new.uid = old.uid
  flags : new.flags = old.flags
  keywords : ∀ keyword, keyword ≠ [] → keyword ≠ snoozedKeyword →
    (keyword ∈ splitKeywords new.keywordsCSV ↔ keyword ∈ splitKeywords old.keywordsCSV)

theorem same_but_reminder_trans {first second third : Membership}
    (earlier : SameButReminder first second)
    (later : SameButReminder second third) : SameButReminder first third where
  message := later.message.trans earlier.message
  mailbox := later.mailbox.trans earlier.mailbox
  uid := later.uid.trans earlier.uid
  flags := later.flags.trans earlier.flags
  keywords := fun keyword nonempty other =>
    (later.keywords keyword nonempty other).trans (earlier.keywords keyword nonempty other)

theorem snooze_row_same (until? : Option Micros) (wake : Option MailboxID) (modSeq : Nat)
    (row : Membership) : SameButReminder row (snoozeRow until? wake modSeq row) where
  message := rfl
  mailbox := rfl
  uid := rfl
  flags := rfl
  keywords := by
    intro keyword nonempty other
    have snoozedFree : 44 ∉ snoozedKeyword := by decide
    have listed : ∀ keyword, keyword ∈ MailStore.snoozeKeywords (splitKeywords row.keywordsCSV)
        until?.isSome → keyword = snoozedKeyword ∨ keyword ∈ splitKeywords row.keywordsCSV := by
      intro keyword member
      simp only [MailStore.snoozeKeywords, List.mem_insertionSort, List.mem_dedup] at member
      split at member
      · rcases List.mem_cons.mp member with same | kept
        · exact Or.inl same
        · exact Or.inr (List.mem_filter.mp kept).1
      · exact Or.inr (List.mem_filter.mp member).1
    have free : ∀ keyword ∈ MailStore.snoozeKeywords (splitKeywords row.keywordsCSV) until?.isSome,
        44 ∉ keyword := by
      intro keyword member
      rcases listed keyword member with rfl | kept
      · exact snoozedFree
      · exact split_keywords_free _ keyword kept
    rw [snoozeRow, keywords_rejoined _ free keyword nonempty]
    constructor
    · intro member
      exact (listed keyword member).resolve_left other
    · intro member
      have kept : keyword ∈ (splitKeywords row.keywordsCSV).filter
          fun keyword => keyword ≠ [] ∧ keyword ≠ snoozedKeyword := by
        simpa [List.mem_filter, nonempty, other] using member
      simp only [MailStore.snoozeKeywords, List.mem_insertionSort, List.mem_dedup]
      split
      · exact List.mem_cons_of_mem _ kept
      · exact kept

/-- A row of the message with another reminder, or the row as it was. -/
def Reminded (message : MessageID) (old new : Membership) : Prop :=
  new = old ∨ old.messageID = message ∧ SameButReminder old new

/-- A mailbox with a higher counter, where the message is filed, or as it was. -/
def Stamped (message : MessageID) (members : List Membership) (old new : Mailbox) : Prop :=
  new = old ∨ (∃ row ∈ members, row.messageID = message ∧ row.mailboxID = old.id) ∧
    ∃ modSeq, new = { old with highestModSeq := modSeq }

/-- A feed row that tells an owner of a mailbox that the message was updated. -/
def TellsUpdate (message : MessageID) (mailboxes : List Mailbox) (row : FeedRow) : Prop :=
  row.cause = .user ∧ row.change.kind = .email ∧ row.change.entityID = message ∧
    row.change.op = .updated ∧ ∃ box ∈ mailboxes, row.change.principalID = box.principalID

/-- A row at the end of the feed, with the next number of its principal. -/
def appendEntry (changes : List FeedRow) (entry : FeedRow) : List FeedRow :=
  let seqs := (changes.filter fun row => row.change.principalID = entry.change.principalID).map
    fun row => row.change.seq
  changes ++ [⟨{ entry.change with seq := seqs.foldl max 0 + 1 }, entry.cause⟩]

/-- The feed after some rows, which are given without their numbers. -/
def logged (changes entries : List FeedRow) : List FeedRow := entries.foldl appendEntry changes

theorem logged_append (changes first second : List FeedRow) :
    logged changes (first ++ second) = logged (logged changes first) second := List.foldl_append

def entryOf (principal : PrincipalID) (kind : EntityKind) (entity parent : Nat) (op : ChangeOp)
    (cause : ChangeCause) : FeedRow :=
  ⟨{ seq := 0, principalID := principal, kind, entityID := entity, parentEntityID := parent, op },
    cause⟩

structure Handed (message : MessageID) (before after : Tables) : Prop where
  principals : after.principals = before.principals
  messages : after.messages = before.messages
  pretrash : after.pretrash = before.pretrash
  blobRefs : after.blobRefs = before.blobRefs
  nextMessageID : after.nextMessageID = before.nextMessageID
  members : List.Forall₂ (Reminded message) before.members after.members
  mailboxes : List.Forall₂ (Stamped message before.members) before.mailboxes after.mailboxes
  changes : ∃ rows, after.changes = logged before.changes rows ∧
    ∀ row ∈ rows, TellsUpdate message before.mailboxes row

section

variable {Item : Type*} {tables after : Tables} {message : MessageID} {related : Item → Item → Prop}
  {mailbox : MailboxID} {handOver : Bool}

theorem forall_refl (same : ∀ item, related item item)
    (items : List Item) : List.Forall₂ related items items := by
  induction items with
  | nil => exact List.Forall₂.nil
  | cons item items ih => exact List.Forall₂.cons (same item) ih

theorem forall_trans {first second third : Item → Item → Prop}
    (composes : ∀ {left middle right}, first left middle → second middle right → third left right)
    {left middle right : List Item} (earlier : List.Forall₂ first left middle)
    (later : List.Forall₂ second middle right) : List.Forall₂ third left right := by
  induction earlier generalizing right with
  | nil =>
    cases later
    exact List.Forall₂.nil
  | cons related _ ih =>
    cases later with
    | cons again rest => exact List.Forall₂.cons (composes related again) (ih rest)

theorem forall_across {Item Other : Type*} {related : Item → Other → Prop} {items : List Item}
    {others : List Other} (corresponds : List.Forall₂ related items others) {other : Other}
    (member : other ∈ others) : ∃ item ∈ items, related item other := by
  induction corresponds with
  | nil => cases member
  | cons here _ ih =>
    rcases List.mem_cons.mp member with rfl | later
    · exact ⟨_, List.mem_cons_self, here⟩
    · obtain ⟨item, itemMember, found⟩ := ih later
      exact ⟨item, List.mem_cons_of_mem _ itemMember, found⟩

theorem forall_across_left {Item Other : Type*} {related : Item → Other → Prop} {items : List Item}
    {others : List Other} (corresponds : List.Forall₂ related items others) {item : Item}
    (member : item ∈ items) : ∃ other ∈ others, related item other := by
  induction corresponds with
  | nil => cases member
  | cons here _ ih =>
    rcases List.mem_cons.mp member with rfl | later
    · exact ⟨_, List.mem_cons_self, here⟩
    · obtain ⟨other, otherMember, found⟩ := ih later
      exact ⟨other, List.mem_cons_of_mem _ otherMember, found⟩

theorem forall_map (change : Item → Item)
    (items : List Item) (made : ∀ item ∈ items, related item (change item)) :
    List.Forall₂ related items (items.map change) := by
  induction items with
  | nil => exact List.Forall₂.nil
  | cons item items ih =>
    refine List.Forall₂.cons (made item (by simp)) (ih ?_)
    exact fun other member => made other (by simp [member])

theorem reminded_key {old new : Membership} (reminded : Reminded message old new) :
    new.messageID = old.messageID ∧ new.mailboxID = old.mailboxID ∧ new.uid = old.uid := by
  rcases reminded with rfl | ⟨_, same⟩
  · exact ⟨rfl, rfl, rfl⟩
  · exact ⟨same.message, same.mailbox, same.uid⟩

theorem stamped_id {members : List Membership} {old new : Mailbox}
    (stamped : Stamped message members old new) :
    new.id = old.id ∧ new.principalID = old.principalID ∧ new.trash = old.trash ∧
      new.uidNext = old.uidNext := by
  rcases stamped with rfl | ⟨_, _, rfl⟩ <;> exact ⟨rfl, rfl, rfl, rfl⟩

theorem handed_refl (message : MessageID) (tables : Tables) : Handed message tables tables where
  principals := rfl
  messages := rfl
  pretrash := rfl
  blobRefs := rfl
  nextMessageID := rfl
  members := forall_refl (fun row => (Or.inl rfl : Reminded message row row)) _
  mailboxes := forall_refl (fun box => (Or.inl rfl : Stamped message tables.members box box)) _
  changes := ⟨[], rfl, by simp⟩

theorem handed_trans {first second third : Tables}
    (earlier : Handed message first second) (later : Handed message second third) :
    Handed message first third where
  principals := later.principals.trans earlier.principals
  messages := later.messages.trans earlier.messages
  pretrash := later.pretrash.trans earlier.pretrash
  blobRefs := later.blobRefs.trans earlier.blobRefs
  nextMessageID := later.nextMessageID.trans earlier.nextMessageID
  members := by
    refine forall_trans ?_ earlier.members later.members
    rintro left middle right (rfl | ⟨here, same⟩) (rfl | ⟨there, again⟩)
    · exact Or.inl rfl
    · exact Or.inr ⟨there, again⟩
    · exact Or.inr ⟨here, same⟩
    · exact Or.inr ⟨here, same_but_reminder_trans same again⟩
  mailboxes := by
    refine forall_trans ?_ earlier.mailboxes later.mailboxes
    rintro left middle right first second
    rcases second with rfl | ⟨⟨row, member, here, place⟩, modSeq, rfl⟩
    · exact first
    · obtain ⟨old, oldMember, reminded⟩ := forall_across earlier.members member
      obtain ⟨sameMessage, sameMailbox, _⟩ := reminded_key reminded
      refine Or.inr ⟨⟨old, oldMember, sameMessage.symm.trans here, ?_⟩, modSeq, ?_⟩
      · rw [← sameMailbox, place, (stamped_id first).1]
      · rcases first with rfl | ⟨_, _, rfl⟩ <;> rfl
  changes := by
    obtain ⟨rows, written, told⟩ := earlier.changes
    obtain ⟨more, added, again⟩ := later.changes
    refine ⟨rows ++ more, by rw [added, written, logged_append], ?_⟩
    intro row member
    rcases List.mem_append.mp member with old | new
    · exact told row old
    · obtain ⟨cause, kind, entity, op, box, boxMember, owner⟩ := again row new
      obtain ⟨before, beforeMember, stamped⟩ := forall_across earlier.mailboxes boxMember
      exact ⟨cause, kind, entity, op, before, beforeMember, owner.trans (stamped_id stamped).2.1⟩

theorem set_snooze_handed {until? : Option Micros} {wake : Option MailboxID}
    (ran : tables.setSnooze message mailbox until? wake = .ok after) : Handed message tables after := by
  obtain ⟨row, present, later⟩ := bind_ok ran
  obtain ⟨box, housed, ended⟩ := bind_ok later
  obtain ⟨rowMember, rowMessage, rowMailbox⟩ := membership_found (require_ok present)
  obtain ⟨boxMember, boxId⟩ := mailbox_found (require_ok housed)
  cases ended
  refine ⟨rfl, rfl, rfl, rfl, rfl, ?_, ?_, ?_⟩
  · refine forall_map _ _ fun old _ => ?_
    split
    · rename_i key
      exact Or.inr ⟨key.1, snooze_row_same until? wake _ old⟩
    · exact Or.inl rfl
  · refine forall_map _ _ fun old _ => ?_
    split
    · rename_i here
      exact Or.inr ⟨⟨row, rowMember, rowMessage, rowMailbox.trans here.symm⟩, _, rfl⟩
    · exact Or.inl rfl
  · refine ⟨[entryOf box.principalID .email message mailbox .updated .user], rfl, ?_⟩
    intro told member
    rw [List.mem_singleton.mp member]
    exact ⟨rfl, rfl, rfl, rfl, box, boxMember, rfl⟩

theorem end_reminders_handed {rows : List Membership} {tables after : Tables}
    (ran : endReminders message rows tables = .ok after) : Handed message tables after := by
  induction rows generalizing tables with
  | nil =>
    cases ran
    exact handed_refl message _
  | cons row rows ih =>
    obtain ⟨middle, first, later⟩ := bind_ok ran
    refine handed_trans ?_ (ih later)
    split at first
    · exact set_snooze_handed first
    · cases first
      exact handed_refl message _

theorem transfer_snooze_handed {until? : Option Micros} {wake : Option MailboxID} {placeOnly : Bool}
    (ran : tables.transferSnooze message until? wake placeOnly = .ok after) :
    Handed message tables after := by
  unfold transferSnooze at ran
  dsimp only at ran
  split at ran
  · exact end_reminders_handed ran
  · split at ran
    · cases ran
      exact handed_refl message tables
    · split at ran
      · split at ran
        · cases ran
          exact handed_refl message tables
        · obtain ⟨placed, first, second⟩ := bind_ok ran
          exact handed_trans (set_snooze_handed first) (set_snooze_handed second)
      · split at ran
        · cases ran
          exact handed_refl message tables
        · exact set_snooze_handed ran

theorem delete_membership_handed (ran : tables.deleteMembership message mailbox handOver = .ok after) :
    Handed message (tables.deleteMember message mailbox) after := by
  unfold deleteMembership at ran
  dsimp only at ran
  split at ran
  · exact transfer_snooze_handed ran
  · cases ran
    exact handed_refl message _

theorem delete_membership_quiet (ran : tables.deleteMembership message mailbox handOver = .ok after)
    (quiet : (tables.membership? message mailbox).bind Membership.snoozedUntil = none) :
    after = tables.deleteMember message mailbox := by
  unfold deleteMembership at ran
  dsimp only at ran
  rw [quiet] at ran
  cases handOver <;> exact (Except.ok.inj ran).symm

theorem find_corresponding {wanted : Item → Bool}
    (keeps : ∀ {old new}, related old new → wanted new = wanted old)
    (exact_ : ∀ {old new}, related old new → wanted old = true → new = old) {before after : List Item}
    (corresponds : List.Forall₂ related before after) : after.find? wanted = before.find? wanted := by
  induction corresponds with
  | nil => rfl
  | @cons old new before after here _ ih =>
    rw [List.find?_cons, List.find?_cons, keeps here, ih]
    cases found : wanted old with
    | false => rfl
    | true => rw [exact_ here found]

theorem delete_membership_box (ran : tables.deleteMembership message mailbox handOver = .ok after) :
    after.mailbox? mailbox = tables.mailbox? mailbox := by
  have handed := delete_membership_handed ran
  refine find_corresponding ?_ ?_ handed.mailboxes
  · intro old new stamped
    rw [(stamped_id stamped).1]
  · intro old new stamped here
    rcases stamped with same | ⟨⟨row, member, filed, place⟩, _⟩
    · exact same
    · have away := (List.mem_filter.mp member).2
      have home : old.id = mailbox := by simpa using here
      simp [filed, place, home] at away

end

end Tables

end Herold.Store

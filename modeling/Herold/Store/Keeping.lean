import Herold.Store.Footprint

/-!
# Which memberships a transaction keeps

What a transaction on one message keeps of its memberships, whatever it does to
their flags and reminders. Each transaction is given the places it may take the
message out of; at every other place the message stays filed, and nothing is filed
in a mailbox that is not there.
-/

namespace Herold.Store

open Herold.Go Herold.Machine

namespace Tables

def Filed (tables : Tables) (message : MessageID) (place : MailboxID) : Prop :=
  ∃ row ∈ tables.members, row.messageID = message ∧ row.mailboxID = place

def Housed (tables : Tables) : Prop := ∀ row ∈ tables.members, (tables.mailbox? row.mailboxID).isSome

structure Keeping (message : MessageID) (mayGo : MailboxID → Prop) (before after : Tables) : Prop where
  owners : List.Forall₂ SameOwner before.mailboxes after.mailboxes
  housed : Housed before → Housed after
  stays : ∀ place, ¬mayGo place → Filed before message place → Filed after message place

section Keeping

variable {message : MessageID} {mayGo : MailboxID → Prop} {first second third tables after : Tables}

theorem keeping_refl (tables : Tables) : Keeping message mayGo tables tables :=
  ⟨same_owners_refl _, fun housed => housed, fun _ _ filed => filed⟩

theorem keeping_trans (earlier : Keeping message mayGo first second)
    (later : Keeping message mayGo second third) : Keeping message mayGo first third where
  owners := same_owners_trans earlier.owners later.owners
  housed := fun housed => later.housed (earlier.housed housed)
  stays := fun place stays filed => later.stays place stays (earlier.stays place stays filed)

theorem found_again (owners : List.Forall₂ SameOwner first.mailboxes second.mailboxes)
    (place : MailboxID) :
    (second.mailbox? place).isSome = (first.mailbox? place).isSome := by
  have alike := congrArg Option.isSome (found_alike owners place)
  simpa using alike

theorem keeping_rows (owners : List.Forall₂ SameOwner first.mailboxes second.mailboxes)
    (fewer : ∀ row ∈ second.members, ∃ old ∈ first.members, old.mailboxID = row.mailboxID)
    (stays : ∀ place, ¬mayGo place → Filed first message place → Filed second message place) :
    Keeping message mayGo first second where
  owners := owners
  housed := by
    intro housed row member
    obtain ⟨old, oldMember, same⟩ := fewer row member
    rw [found_again owners, ← same]
    exact housed old oldMember
  stays := stays

theorem keeping_counters (members : second.members = first.members)
    (owners : List.Forall₂ SameOwner first.mailboxes second.mailboxes) :
      Keeping message mayGo first second := by
  refine keeping_rows owners (fun row member => ⟨row, members ▸ member, rfl⟩) fun place _ filed => ?_
  unfold Filed
  rw [members]
  exact filed

theorem keeping_update (mailbox : MailboxID) (change : Membership → Membership)
    (keeps : ∀ row, (change row).messageID = row.messageID ∧ (change row).mailboxID = row.mailboxID) :
    Keeping message mayGo tables (tables.updateMember message mailbox change) := by
  have key : ∀ row : Membership,
    (if row.messageID = message ∧ row.mailboxID = mailbox then change row else
      row).messageID = row.messageID ∧
        (if row.messageID = message ∧ row.mailboxID = mailbox then change row
        else
        row).mailboxID = row.mailboxID := by
    intro row
    split
    · exact keeps row
    · exact ⟨rfl, rfl⟩
  refine keeping_rows (same_owners_refl _) ?_ ?_
  · intro row member
    obtain ⟨old, oldMember, rfl⟩ := List.mem_map.mp member
    exact ⟨old, oldMember, (key old).2.symm⟩
  · rintro place _ ⟨row, member, here, there⟩
    exact ⟨_, List.mem_map_of_mem member, (key row).1.trans here, (key row).2.trans there⟩

theorem keeping_stamped (mailbox : MailboxID) (change : Membership → Membership)
    (keeps : ∀ row, (change row).messageID = row.messageID ∧ (change row).mailboxID = row.mailboxID)
    (modSeq : Nat) (principal : PrincipalID) (op : ChangeOp) (cause : ChangeCause) :
    Keeping message mayGo tables (((tables.updateMember message mailbox change).setHighest mailbox
      modSeq).appendChange principal .email message mailbox op cause) :=
  keeping_trans (keeping_update mailbox change keeps)
    (keeping_counters rfl (same_owners_update _ _ _ fun _ => ⟨rfl, rfl, rfl⟩))

theorem keeping_delete (mailbox : MailboxID) (goes : mayGo mailbox) :
    Keeping message mayGo tables (tables.deleteMember message mailbox) := by
  refine keeping_rows (same_owners_refl _)
    (fun row member => ⟨row, (List.mem_filter.mp member).1, rfl⟩) ?_
  rintro place stays ⟨row, member, here, there⟩
  refine ⟨row, List.mem_filter.mpr ⟨member, ?_⟩, here, there⟩
  have away : row.mailboxID ≠ mailbox := by
    rintro rfl
    exact stays (there ▸ goes)
  simp [away]

theorem keeping_insert {row : Membership} (inserted : tables.insertMember row = .ok after)
    (house : (tables.mailbox? row.mailboxID).isSome) : Keeping message mayGo tables after := by
  obtain ⟨rfl, _⟩ := insert_member_ok inserted
  refine ⟨same_owners_refl _, ?_, ?_⟩
  · intro housed filing member
    rcases List.mem_append.mp member with old | new
    · exact housed filing old
    · rw [List.mem_singleton.mp new]
      exact house
  · rintro place _ ⟨filing, member, here, there⟩
    exact ⟨filing, List.mem_append_left _ member, here, there⟩

theorem keeping_handed (handed : Handed message tables after) : Keeping message mayGo tables after := by
  refine keeping_rows (handed.mailboxes.imp fun old new stamped =>
    ⟨(stamped_id stamped).1, (stamped_id stamped).2.1, (stamped_id stamped).2.2.1⟩) ?_ ?_
  · intro row member
    obtain ⟨old, oldMember, reminded⟩ := forall_across handed.members member
    exact ⟨old, oldMember, (reminded_key reminded).2.1.symm⟩
  · rintro place _ ⟨row, member, here, there⟩
    obtain ⟨new, newMember, reminded⟩ := forall_across_left handed.members member
    exact ⟨new, newMember, (reminded_key reminded).1.trans here,
      (reminded_key reminded).2.1.trans there⟩

theorem keeping_delete_membership {mailbox : MailboxID} {handOver : Bool} (goes : mayGo mailbox)
    (ran : tables.deleteMembership message mailbox handOver = .ok after) :
      Keeping message mayGo tables after :=
  keeping_trans (keeping_delete mailbox goes) (keeping_handed (delete_membership_handed ran))

theorem keeping_replay_all {mailboxes : List MailboxID}
    (ran : replayAll message mailboxes tables = .ok after) :
    Keeping message mayGo tables after := by
  induction mailboxes generalizing tables with
  | nil =>
    cases ran
    exact keeping_refl _
  | cons mailbox mailboxes ih =>
    obtain ⟨middle, one, later⟩ := bind_ok ran
    refine keeping_trans ?_ (ih later)
    unfold replayInto at one
    split at one
    · cases one
      exact keeping_refl _
    · rename_i box found
      split at one
      · cases one
        exact keeping_refl _
      · obtain ⟨filed, inserted, ended⟩ := bind_ok one
        cases ended
        refine keeping_trans (keeping_insert inserted ?_)
          (keeping_counters rfl (same_owners_update _ _ _ fun _ => ⟨rfl, rfl, rfl⟩))
        rw [found]
        rfl

theorem keeping_replay (ran : tables.replayPretrash message = .ok after) :
    Keeping message mayGo tables after := by
  obtain ⟨replayed, one, ended⟩ := bind_ok ran
  cases ended
  exact keeping_trans (keeping_replay_all one) (keeping_counters rfl (same_owners_refl _))

theorem keeping_restored {trash : Bool}
    (ran : (if trash then tables.replayPretrash message else .ok tables) = .ok after) :
    Keeping message mayGo tables after := by
  cases trash with
  | true => exact keeping_replay ran
  | false =>
    cases ran
    exact keeping_refl _

theorem keeping_snapped (mailbox : MailboxID) (trash : Bool) :
    Keeping message mayGo tables
      (if trash then tables.snapshotPretrash message mailbox else tables) := by
  cases trash with
  | true => exact keeping_counters rfl (same_owners_refl _)
  | false => exact keeping_refl _

theorem keeping_advance (tables : Tables) (mailbox : MailboxID) (modSeq : Nat) :
    Keeping message mayGo tables (tables.advance mailbox modSeq) :=
  keeping_counters rfl (same_owners_update _ _ _ fun _ => ⟨rfl, rfl, rfl⟩)

theorem keeping_bump (tables : Tables) (mailbox : MailboxID) :
    Keeping message mayGo tables (tables.bumpHighest mailbox) :=
  keeping_counters rfl (same_owners_update _ _ _ fun _ => ⟨rfl, rfl, rfl⟩)

theorem keeping_logged (tables : Tables) (principal : PrincipalID) (mailbox : MailboxID)
    (op : ChangeOp) :
    Keeping message mayGo tables (tables.appendEmailChange principal message mailbox op) :=
  keeping_counters rfl (same_owners_refl _)

theorem keeping_leave_trash {principal : PrincipalID} {trash : List MailboxID}
    (goes : ∀ place ∈ trash, mayGo place)
    (ran : leaveTrash principal message trash tables = .ok after) :
      Keeping message mayGo tables after := by
  induction trash generalizing tables with
  | nil =>
    cases ran
    exact keeping_refl _
  | cons place trash ih =>
    obtain ⟨middle, one, later⟩ := bind_ok ran
    refine keeping_trans (keeping_delete_membership (goes place List.mem_cons_self) one) ?_
    refine keeping_trans (keeping_trans (keeping_bump middle place)
      (keeping_logged _ principal place .destroyed)) ?_
    exact ih (fun other member => goes other (List.mem_cons_of_mem _ member)) later

theorem keeping_flags {mailbox : MailboxID} {set clear : MessageFlags}
    {keywordAdd keywordClear : List Bytes}
    {unchangedSince : Nat}
    (ran : tables.updateMessageFlags message mailbox set clear keywordAdd keywordClear unchangedSince =
      .ok after) :
    Keeping message mayGo tables after := by
  obtain ⟨row, _, later⟩ := bind_ok ran
  obtain ⟨_, _, later⟩ := bind_ok later
  obtain ⟨box, _, ended⟩ := bind_ok later
  cases ended
  refine keeping_stamped mailbox _ ?_ _ _ _ _
  exact fun _ => ⟨rfl, rfl⟩

theorem keeping_snooze {mailbox : MailboxID} {until? : Option Micros} {wake : Option MailboxID}
    (ran : tables.setSnooze message mailbox until? wake = .ok after) :
      Keeping message mayGo tables after :=
  keeping_handed (set_snooze_handed ran)

theorem keeping_touch_members {principal : PrincipalID} {mailboxes : List MailboxID}
    (ran : touchMembers principal message mailboxes tables = .ok after) :
      Keeping message mayGo tables after := by
  induction mailboxes generalizing tables with
  | nil =>
    cases ran
    exact keeping_refl _
  | cons mailbox mailboxes ih =>
    obtain ⟨middle, one, later⟩ := bind_ok ran
    obtain ⟨box, _, ended⟩ := bind_ok one
    cases ended
    refine keeping_trans ?_ (ih later)
    refine keeping_stamped mailbox _ ?_ _ _ _ _
    exact fun _ => ⟨rfl, rfl⟩

theorem keeping_body {blob : BlobName} {size : Nat}
    (ran : tables.replaceMessageBody message blob size = .ok after) :
    Keeping message mayGo tables after := by
  obtain ⟨row, _, later⟩ := bind_ok ran
  obtain ⟨charged, _, later⟩ := bind_ok later
  obtain ⟨_, _, touched⟩ := bind_ok later
  refine keeping_trans ?_ (keeping_touch_members touched)
  split
  · exact keeping_counters rfl (same_owners_refl _)
  · exact keeping_counters rfl (same_owners_refl _)

theorem keeping_remove {mailbox : MailboxID} (goes : mayGo mailbox)
    (ran : tables.removeMessageFromMailbox message mailbox = .ok after) :
      Keeping message mayGo tables after := by
  obtain ⟨_, _, later⟩ := bind_ok ran
  obtain ⟨row, _, later⟩ := bind_ok later
  obtain ⟨left, deleted, later⟩ := bind_ok later
  obtain ⟨restored, replayed, later⟩ := bind_ok later
  obtain ⟨charged, _, ended⟩ := bind_ok later
  cases ended
  refine keeping_trans (keeping_delete_membership goes deleted)
    (keeping_trans (keeping_restored replayed) ?_)
  refine keeping_trans (keeping_bump restored mailbox) (keeping_trans ?_ (keeping_logged _ _ _ _))
  unfold releaseIfUnfiled
  split
  · exact keeping_refl _
  · rename_i unfiled
    have dropped : Keeping message mayGo (restored.bumpHighest mailbox)
        ((restored.bumpHighest mailbox).deleteMessages fun row => decide (row.id = message)) := by
      refine keeping_rows (same_owners_refl _)
        (fun row member => ⟨row, (List.mem_filter.mp member).1, rfl⟩) ?_
      rintro place _ ⟨row, member, here, _⟩
      refine absurd (List.any_eq_true.mpr ⟨row, member, ?_⟩) unfiled
      simpa using here
    dsimp only
    split
    · exact dropped
    · exact keeping_trans dropped (keeping_counters rfl (same_owners_refl _))

theorem keeping_move {source target : MailboxID} (goes : mayGo source)
    (ran : tables.moveMessage message source target = .ok after) :
    Keeping message mayGo tables after ∧ (¬mayGo target → Filed after message target) := by
  obtain ⟨row, present, later⟩ := bind_ok ran
  obtain ⟨box, housed, later⟩ := bind_ok later
  obtain ⟨filed, inserted, later⟩ := bind_ok later
  obtain ⟨left, deleted, later⟩ := bind_ok later
  obtain ⟨restored, replayed, ended⟩ := bind_ok later
  cases ended
  obtain ⟨_, rowMessage, _⟩ := membership_found (require_ok present)
  generalize movedIs : (if box.trash then
    { row with
      snoozedUntil := none, wakeMailboxID := none
      keywordsCSV := joinKeywords ((splitKeywords row.keywordsCSV).filter fun keyword =>
        keyword ≠ [] ∧ keyword ≠ snoozedKeyword) }
    else row : Membership) = moved at inserted
  have movedMessage : moved.messageID = message := by
    rw [← movedIs, ← rowMessage]
    split
    · rfl
    · rfl
  have rest : Keeping message mayGo filed
    (((restored.advance target (box.highestModSeq + 1)).bumpHighest
      source).appendEmailChange box.principalID message target .updated) :=
    keeping_trans (keeping_delete_membership goes deleted) (keeping_trans (keeping_restored replayed)
      (keeping_trans (keeping_advance _ _ _)
        (keeping_trans (keeping_bump _ _) (keeping_logged _ _ _ _))))
  have snapped : Keeping message mayGo tables
      (if box.trash then tables.snapshotPretrash message target else tables) :=
        keeping_snapped target box.trash
  constructor
  · refine keeping_trans (keeping_trans snapped (keeping_insert inserted ?_)) rest
    show (Tables.mailbox? _ target).isSome
    rw [found_again snapped.owners, require_ok housed]
    rfl
  · intro stays
    refine rest.stays target stays ?_
    obtain ⟨rfl, _⟩ := insert_member_ok inserted
    exact ⟨_, List.mem_append_right _ (List.mem_singleton_self _), movedMessage, rfl⟩

/-- An addition takes the message out of the trash, unless it is one to the trash. -/
theorem keeping_add {mailbox : MailboxID}
    (goes : tables.isTrash mailbox = false → ∀ place, tables.isTrash place = true → mayGo place)
    (ran : tables.addMessageToMailbox message mailbox = .ok after) :
    Keeping message mayGo tables after ∧ (¬mayGo mailbox → Filed after message mailbox) := by
  obtain ⟨row, _, later⟩ := bind_ok ran
  obtain ⟨_, _, later⟩ := bind_ok later
  obtain ⟨box, housed, later⟩ := bind_ok later
  obtain ⟨filed, inserted, ended⟩ := bind_ok later
  have found := require_ok housed
  have snapped : Keeping message mayGo tables
      (if box.trash then tables.snapshotPretrash message mailbox else tables) :=
        keeping_snapped mailbox box.trash
  have filing : Keeping message mayGo tables filed := by
    refine keeping_trans snapped (keeping_insert inserted ?_)
    show (Tables.mailbox? _ mailbox).isSome
    rw [found_again snapped.owners, found]
    rfl
  have here : Filed filed message mailbox := by
    obtain ⟨rfl, _⟩ := insert_member_ok inserted
    exact ⟨_, List.mem_append_right _ (List.mem_singleton_self _), rfl, rfl⟩
  have counted : Keeping message mayGo filed
    ((filed.advance mailbox (box.highestModSeq + 1)).appendEmailChange
      row.principalID message mailbox .created) :=
    keeping_trans (keeping_advance _ _ _) (keeping_logged _ _ _ _)
  have rest : Keeping message mayGo filed after := by
    split at ended
    · cases ended
      exact counted
    · rename_i kept
      refine keeping_trans counted ?_
      unfold removeTrashAndReplay at ended
      dsimp only at ended
      split at ended
      · cases ended
        exact keeping_refl _
      · obtain ⟨left, leaves, replayed⟩ := bind_ok ended
        refine keeping_trans (keeping_leave_trash ?_ leaves) (keeping_replay replayed)
        intro place listed
        obtain ⟨old, member, rfl⟩ := List.mem_map.mp listed
        obtain ⟨_, _, inTrash⟩ := of_decide_eq_true (List.mem_filter.mp member).2
        refine goes ?_ _ ?_
        · unfold isTrash
          rw [found]
          simpa using kept
        · rw [← trash_alike (keeping_trans filing counted).owners]
          exact inTrash
  exact ⟨keeping_trans filing rest, fun stays => rest.stays mailbox stays here⟩


theorem bind_error {Value Next Problem : Type} {first : Except Problem Value}
    {next : Value → Except Problem Next}
    {problem : Problem} (ran : (first >>= next) = .error problem) :
    first = .error problem ∨ ∃ value, first = .ok value ∧ next value = .error problem := by
  cases first with
  | error other => exact Or.inl (congrArg _ (Except.error.inj ran))
  | ok value => exact Or.inr ⟨value, rfl, ran⟩

theorem require_error {Row : Type} {row : Option Row} {problem : MailError}
    (ran : require row = .error problem) : row = none ∧ problem = .notFound := by
  cases row with
  | none => exact ⟨rfl, (Except.error.inj ran).symm⟩
  | some row => cases ran

theorem filed_iff {place : MailboxID} : Filed tables message place ↔
    (tables.membership? message place).isSome := by
  unfold Filed membership?
  rw [List.find?_isSome]
  simp

theorem set_snooze_error {mailbox : MailboxID} {until? : Option Micros} {wake : Option MailboxID}
    {problem : MailError} (ran : tables.setSnooze message mailbox until? wake = .error problem) :
    problem = .notFound ∧ (tables.membership? message mailbox = none ∨
      tables.mailbox? mailbox = none) := by
  rcases bind_error ran with missing | ⟨_, _, later⟩
  · exact ⟨(require_error missing).2, Or.inl (require_error missing).1⟩
  · rcases bind_error later with missing | ⟨_, _, ended⟩
    · exact ⟨(require_error missing).2, Or.inr (require_error missing).1⟩
    · cases ended

theorem end_reminders_error {rows : List Membership} {problem : MailError}
    (ran : endReminders message rows tables = .error problem) : problem = .notFound := by
  induction rows generalizing tables with
  | nil => cases ran
  | cons row rows ih =>
    rcases bind_error ran with here | ⟨_, _, later⟩
    · split at here
      · exact (set_snooze_error here).1
      · cases here
    · exact ih later

theorem transfer_snooze_error {until? : Option Micros} {wake : Option MailboxID} {placeOnly : Bool}
    {problem : MailError} (ran : tables.transferSnooze message until? wake placeOnly = .error problem) :
    problem = .notFound := by
  unfold transferSnooze at ran
  dsimp only at ran
  split at ran
  · exact end_reminders_error ran
  · split at ran
    · cases ran
    · split at ran
      · split at ran
        · cases ran
        · rcases bind_error ran with here | ⟨_, _, later⟩
          · exact (set_snooze_error here).1
          · exact (set_snooze_error later).1
      · split at ran
        · cases ran
        · exact (set_snooze_error ran).1

theorem delete_membership_error {mailbox : MailboxID} {handOver : Bool} {problem : MailError}
    (ran : tables.deleteMembership message mailbox handOver = .error problem) :
      problem = .notFound := by
  unfold deleteMembership at ran
  dsimp only at ran
  split at ran
  · exact transfer_snooze_error ran
  · cases ran

theorem leave_trash_error {principal : PrincipalID} {trash : List MailboxID} {problem : MailError}
    (ran : leaveTrash principal message trash tables = .error problem) : problem = .notFound := by
  induction trash generalizing tables with
  | nil => cases ran
  | cons place trash ih =>
    rcases bind_error ran with here | ⟨_, _, later⟩
    · exact delete_membership_error here
    · exact ih later

theorem insert_member_error {row : Membership} {box : Mailbox} {problem : MailError}
    (numbered : Numbered tables)
    (found : tables.mailbox? row.mailboxID = some box) (uid : row.uid = box.uidNext)
    (ran : tables.insertMember row = .error problem) :
    problem = .conflict ∧ Filed tables row.messageID row.mailboxID := by
  unfold insertMember at ran
  split at ran
  · rename_i clash
    obtain ⟨old, member, same⟩ := List.any_eq_true.mp clash
    obtain ⟨place, key | number⟩ := of_decide_eq_true same
    · exact ⟨(Except.error.inj ran).symm, old, member, key, place⟩
    · obtain ⟨boxMember, boxId⟩ := mailbox_found found
      have below := numbered.issued old member box boxMember (boxId.trans place.symm)
      omega
  · cases ran

theorem insert_clash {row : Membership} {problem : MailError}
    (ran : tables.insertMember row = .error problem) :
    problem = .conflict := by
  unfold insertMember at ran
  split at ran
  · exact (Except.error.inj ran).symm
  · cases ran

theorem replay_all_error {mailboxes : List MailboxID} {problem : MailError}
    (ran : replayAll message mailboxes tables = .error problem) : problem = .conflict := by
  induction mailboxes generalizing tables with
  | nil => cases ran
  | cons mailbox mailboxes ih =>
    rcases bind_error ran with here | ⟨_, _, later⟩
    · unfold replayInto at here
      split at here
      · cases here
      · split at here
        · cases here
        · rcases bind_error here with clash | ⟨_, _, ended⟩
          · exact insert_clash clash
          · cases ended
    · exact ih later

theorem replay_into_succeeds (numbered : Numbered tables) (message : MessageID) (mailbox : MailboxID) :
    ∃ after, tables.replayInto message mailbox = .ok after := by
  cases ran : tables.replayInto message mailbox with
  | ok after => exact ⟨after, rfl⟩
  | error problem =>
    unfold replayInto at ran
    split at ran
    · cases ran
    · rename_i box found
      split at ran
      · cases ran
      · rename_i away
        rcases bind_error ran with here | ⟨_, _, ended⟩
        · exact absurd (filed_iff.mp (insert_member_error numbered (by exact found) rfl here).2) away
        · cases ended

theorem replay_all_succeeds (numbered : Numbered tables) (message : MessageID)
    (mailboxes : List MailboxID) :
    ∃ after, replayAll message mailboxes tables = .ok after := by
  induction mailboxes generalizing tables with
  | nil => exact ⟨tables, rfl⟩
  | cons mailbox mailboxes ih =>
    obtain ⟨middle, here⟩ := replay_into_succeeds numbered message mailbox
    obtain ⟨after, later⟩ := ih (replay_into_progress here numbered).1
    refine ⟨after, ?_⟩
    rw [replayAll, here]
    exact later

theorem replay_pretrash_succeeds (numbered : Numbered tables) (message : MessageID) :
    ∃ after, tables.replayPretrash message = .ok after := by
  obtain ⟨after, ran⟩ := replay_all_succeeds numbered message (tables.snapshotOf message)
  exact ⟨_, by rw [replayPretrash, ran]; rfl⟩

theorem add_conflict {mailbox : MailboxID} (numbered : Numbered tables)
    (ran : tables.addMessageToMailbox message mailbox = .error .conflict) :
      Filed tables message mailbox := by
  rcases bind_error ran with missing | ⟨row, _, later⟩
  · exact absurd (require_error missing).2 (by decide)
  rcases bind_error later with here | ⟨_, _, later⟩
  · split at here
    · rename_i there
      exact filed_iff.mpr there
    · cases here
  rcases bind_error later with missing | ⟨box, housed, later⟩
  · exact absurd (require_error missing).2 (by decide)
  have place := require_ok housed
  have snapped : Progress tables
    (if box.trash then tables.snapshotPretrash message mailbox else tables) := by
    split
    · exact progress_same rfl rfl
    · exact progress_refl tables
  have found : (if box.trash then tables.snapshotPretrash message mailbox else tables).mailbox?
    mailbox =
      some box := by
    split
    · exact place
    · exact place
  have numbered' := (snapped numbered).1
  rcases bind_error later with here | ⟨filed, inserted, later⟩
  · have filed := (insert_member_error numbered' (by exact found) rfl here).2
    unfold Filed at filed ⊢
    split at filed
    · exact filed
    · exact filed
  have counted := (progress_file _ filed _ box found rfl rfl inserted numbered').1
  split at later
  · cases later
  · unfold removeTrashAndReplay at later
    dsimp only at later
    split at later
    · cases later
    · rcases bind_error later with here | ⟨left, leaves, replayed⟩
      · exact absurd (leave_trash_error here) (by decide)
      · have logged := (progress_logged (progress_refl _) row.principalID .email message mailbox
          .created .user counted).1
        obtain ⟨after, succeeds⟩ :=
          replay_pretrash_succeeds (leave_trash_progress leaves logged).1 message
        rw [succeeds] at replayed
        cases replayed

theorem move_finds {source target : MailboxID} (filed : Filed tables message source)
    (house : (tables.mailbox? target).isSome) : tables.moveMessage message source target ≠
      .error .notFound := by
  intro ran
  rcases bind_error ran with missing | ⟨row, _, later⟩
  · have there := filed_iff.mp filed
    rw [(require_error missing).1] at there
    cases there
  rcases bind_error later with missing | ⟨box, housed, later⟩
  · rw [(require_error missing).1] at house
    cases house
  have place := require_ok housed
  rcases bind_error later with here | ⟨filed, inserted, later⟩
  · exact absurd (insert_clash here) (by decide)
  rcases bind_error later with here | ⟨left, deleted, later⟩
  · unfold deleteMembership at here
    cases here
  rcases bind_error later with here | ⟨restored, _, ended⟩
  · split at here
    · -- a replay fails with a conflict, if at all
      rcases bind_error here with here | ⟨_, _, ended⟩
      · exact absurd (replay_all_error here) (by decide)
      · cases ended
    · cases here
  · cases ended

end Keeping

section Memberships

variable {message : MessageID} {tables after : Tables}

theorem membership_insert {row : Membership} (here : row.messageID = message)
    (inserted : tables.insertMember row = .ok after) (place : MailboxID) :
    after.membership? message place =
      (tables.membership? message place <|> if row.mailboxID = place then some row else none) := by
  obtain ⟨rfl, _⟩ := insert_member_ok inserted
  unfold membership?
  rw [List.find?_append, List.find?_singleton]
  simp [here]

theorem membership_update (mailbox : MailboxID) (change : Membership → Membership)
    (keeps : ∀ row, (change row).messageID = row.messageID ∧ (change row).mailboxID = row.mailboxID)
    (place : MailboxID) :
    (tables.updateMember message mailbox change).membership? message place =
      (tables.membership? message place).map fun row => if place = mailbox then change row
        else row := by
  unfold membership? updateMember
  dsimp only
  rw [List.find?_map]
  have key : ((fun row : Membership => decide (row.messageID = message ∧ row.mailboxID = place)) ∘
    fun row =>
      if row.messageID = message ∧ row.mailboxID = mailbox then change row else row) =
      fun row => decide (row.messageID = message ∧ row.mailboxID = place) := by
    funext row
    simp only [Function.comp]
    split
    · rw [(keeps row).1, (keeps row).2]
    · rfl
  rw [key]
  cases found : tables.members.find? fun row =>
    decide (row.messageID = message ∧ row.mailboxID = place) with
  | none => rfl
  | some row =>
    have here : row.messageID = message ∧ row.mailboxID = place := by simpa using List.find?_some found
    rw [Option.map_some, Option.map_some]
    congr 1
    by_cases same : place = mailbox
    · rw [if_pos same, if_pos ⟨here.1, here.2.trans same⟩]
    · rw [if_neg same, if_neg (fun both => same (here.2.symm.trans both.2))]

end Memberships

end Tables

end Herold.Store

import Herold.Store.Reminders

/-!
# UIDs and modification sequences

A mailbox gives out UIDs from `uidnext` and stamps rows with a modification
sequence above `highest_modseq`. Every write to the two tables is one of five:
rows go away, one row is stamped anew, one row is filed, a counter moves up, or
neither table changes. Each of the five keeps the discipline, so every transaction
that is made of them does; a move and an expunge write a counter back later than
they read it, and are shown to amount to such writes all the same.
-/

namespace Herold.Store

open Herold.Go Herold.Machine

namespace Tables

structure Numbered (tables : Tables) : Prop where
  boxes : tables.mailboxes.Pairwise fun left right => left.id ≠ right.id
  uids : tables.members.Pairwise fun left right => left.mailboxID = right.mailboxID →
    left.uid ≠ right.uid
  issued : ∀ row ∈ tables.members, ∀ box ∈ tables.mailboxes, box.id = row.mailboxID →
    row.uid < box.uidNext
  stamped : ∀ row ∈ tables.members, ∀ box ∈ tables.mailboxes, box.id = row.mailboxID →
    row.modSeq ≤ box.highestModSeq

/-- The counters move up only, a row that is new or changed is stamped above the
old counter, and a row that is new has a UID from the old counter on. -/
structure Advances (before after : Tables) : Prop where
  boxes : ∀ old ∈ before.mailboxes, ∃ new ∈ after.mailboxes, new.id = old.id ∧
    old.uidNext ≤ new.uidNext ∧ old.highestModSeq ≤ new.highestModSeq
  rows : ∀ row ∈ after.members, row ∈ before.members ∨
    ∀ box ∈ before.mailboxes, box.id = row.mailboxID → box.highestModSeq < row.modSeq
  numbers : ∀ row ∈ after.members,
    (∃ old ∈ before.members, old.messageID = row.messageID ∧ old.mailboxID = row.mailboxID ∧
      old.uid = row.uid) ∨
    ∀ box ∈ before.mailboxes, box.id = row.mailboxID → box.uidNext ≤ row.uid

def Progress (before after : Tables) : Prop := Numbered before → Numbered after ∧ Advances before after

theorem advances_trans {first second third : Tables} (earlier : Advances first second)
    (later : Advances second third) : Advances first third where
  boxes := by
    intro old member
    obtain ⟨middle, middleMember, same, uidNext, highest⟩ := earlier.boxes old member
    obtain ⟨new, newMember, again, uidNext', highest'⟩ := later.boxes middle middleMember
    exact ⟨new, newMember, again.trans same, Nat.le_trans uidNext uidNext',
      Nat.le_trans highest highest'⟩
  rows := by
    intro row member
    rcases later.rows row member with kept | above
    · exact earlier.rows row kept
    · refine Or.inr fun box boxMember place => ?_
      obtain ⟨middle, middleMember, same, _, highest⟩ := earlier.boxes box boxMember
      exact Nat.lt_of_le_of_lt highest (above middle middleMember (same.trans place))
  numbers := by
    intro row member
    rcases later.numbers row member with ⟨old, oldMember, message, place, uid⟩ | above
    · rcases earlier.numbers old oldMember with ⟨first, firstMember, message', place', uid'⟩ | below
      · exact Or.inl ⟨first, firstMember, message'.trans message, place'.trans place, uid'.trans uid⟩
      · refine Or.inr fun box boxMember same => ?_
        rw [← uid]
        exact below box boxMember (same.trans place.symm)
    · refine Or.inr fun box boxMember place => ?_
      obtain ⟨middle, middleMember, same, uidNext, _⟩ := earlier.boxes box boxMember
      exact Nat.le_trans uidNext (above middle middleMember (same.trans place))

theorem progress_trans {first second third : Tables} (earlier : Progress first second)
    (later : Progress second third) : Progress first third := by
  intro numbered
  obtain ⟨middle, moved⟩ := earlier numbered
  obtain ⟨ends, moved'⟩ := later middle
  exact ⟨ends, advances_trans moved moved'⟩

theorem progress_fewer {before after : Tables} (boxes : after.mailboxes = before.mailboxes)
    (rows : after.members.Sublist before.members) : Progress before after := by
  intro numbered
  refine ⟨⟨?_, ?_, ?_, ?_⟩, ⟨?_, ?_, ?_⟩⟩
  · rw [boxes]
    exact numbered.boxes
  · exact numbered.uids.sublist rows
  · rw [boxes]
    exact fun row member => numbered.issued row (rows.subset member)
  · rw [boxes]
    exact fun row member => numbered.stamped row (rows.subset member)
  · intro old member
    rw [boxes]
    exact ⟨old, member, rfl, Nat.le_refl _, Nat.le_refl _⟩
  · exact fun row member => Or.inl (rows.subset member)
  · exact fun row member => Or.inl ⟨row, rows.subset member, rfl, rfl, rfl⟩

theorem progress_same {before after : Tables} (boxes : after.mailboxes = before.mailboxes)
    (rows : after.members = before.members) : Progress before after :=
  progress_fewer boxes (by rw [rows])

theorem progress_refl (tables : Tables) : Progress tables tables := progress_same rfl rfl

theorem progress_logged {before after : Tables} (moved : Progress before after)
    (principal : PrincipalID)
    (kind : EntityKind) (entity parent : Nat) (op : ChangeOp) (cause : ChangeCause) :
    Progress before (after.appendChange principal kind entity parent op cause) :=
  progress_trans moved (progress_same rfl rfl)

theorem mem_update_mailbox {tables : Tables} {id : MailboxID} {change : Mailbox → Mailbox}
    {box : Mailbox}
    (member : box ∈ (tables.updateMailbox id change).mailboxes) :
    ∃ old ∈ tables.mailboxes, (old.id = id ∧ box = change old) ∨ (old.id ≠ id ∧ box = old) := by
  obtain ⟨old, oldMember, made⟩ := List.mem_map.mp member
  by_cases same : old.id = id
  · rw [if_pos same] at made
    exact ⟨old, oldMember, Or.inl ⟨same, made.symm⟩⟩
  · rw [if_neg same] at made
    exact ⟨old, oldMember, Or.inr ⟨same, made.symm⟩⟩

theorem update_mailbox_distinct {tables : Tables} {id : MailboxID} {change : Mailbox → Mailbox}
    (keeps : ∀ box, (change box).id = box.id)
    (distinct : tables.mailboxes.Pairwise fun left right => left.id ≠ right.id) :
    (tables.updateMailbox id change).mailboxes.Pairwise fun left right => left.id ≠ right.id := by
  have kept : ∀ box : Mailbox, (if box.id = id then change box else box).id = box.id := by
    intro box
    split
    · exact keeps box
    · rfl
  refine List.Pairwise.map _ ?_ distinct
  intro left right differ
  rwa [kept, kept]

theorem Numbered.only {tables : Tables} (numbered : Numbered tables) {id : MailboxID}
    {box other : Mailbox}
    (found : tables.mailbox? id = some box) (member : other ∈ tables.mailboxes) (same : other.id = id) :
    other = box := by
  obtain ⟨boxMember, boxId⟩ := mailbox_found found
  have distinct : (tables.mailboxes.map Mailbox.id).Nodup := List.pairwise_map.mpr numbered.boxes
  exact List.inj_on_of_nodup_map distinct member boxMember (same.trans boxId.symm)

theorem progress_raise (tables : Tables) (id : MailboxID) (change : Mailbox → Mailbox)
    (keeps : ∀ box, (change box).id = box.id) (uidNext : ∀ box, box.uidNext ≤ (change box).uidNext)
    (highest : ∀ box ∈ tables.mailboxes, box.id = id → box.highestModSeq ≤ (change box).highestModSeq) :
    Progress tables (tables.updateMailbox id change) := by
  intro numbered
  refine ⟨⟨update_mailbox_distinct keeps numbered.boxes, numbered.uids, ?_, ?_⟩, ⟨?_, ?_, ?_⟩⟩
  · intro row member box boxMember place
    obtain ⟨old, oldMember, ⟨_, rfl⟩ | ⟨_, rfl⟩⟩ := mem_update_mailbox boxMember
    · rw [keeps] at place
      exact Nat.lt_of_lt_of_le (numbered.issued row member old oldMember place) (uidNext old)
    · exact numbered.issued row member box oldMember place
  · intro row member box boxMember place
    obtain ⟨old, oldMember, ⟨here, rfl⟩ | ⟨_, rfl⟩⟩ := mem_update_mailbox boxMember
    · rw [keeps] at place
      exact Nat.le_trans (numbered.stamped row member old oldMember place) (highest old oldMember here)
    · exact numbered.stamped row member box oldMember place
  · intro old member
    by_cases here : old.id = id
    · refine ⟨change old, List.mem_map.mpr ⟨old, member, if_pos here⟩, keeps old, uidNext old,
        highest old member here⟩
    · exact ⟨old, List.mem_map.mpr ⟨old, member, if_neg here⟩, rfl, Nat.le_refl _, Nat.le_refl _⟩
  · exact fun row member => Or.inl member
  · exact fun row member => Or.inl ⟨row, member, rfl, rfl, rfl⟩

theorem progress_bump (tables : Tables) (id : MailboxID) : Progress tables (tables.bumpHighest id) :=
  progress_raise tables id _ (fun _ => rfl) (fun _ => Nat.le_refl _) fun _ _ _ => Nat.le_succ _

theorem progress_touch (tables : Tables) (message : MessageID) (mailbox : MailboxID) (box : Mailbox)
    (change : Membership → Membership) (found : tables.mailbox? mailbox = some box)
    (keepsMessage : ∀ row, (change row).messageID = row.messageID)
    (keepsMailbox : ∀ row, (change row).mailboxID = row.mailboxID)
    (keepsUid : ∀ row, (change row).uid = row.uid)
    (stamps : ∀ row, (change row).modSeq = box.highestModSeq + 1) :
    Progress tables ((tables.updateMember message mailbox change).setHighest mailbox
      (box.highestModSeq + 1)) := by
  intro numbered
  have raised : Progress tables (tables.setHighest mailbox (box.highestModSeq + 1)) := by
    refine progress_raise tables mailbox _ (fun _ => rfl) (fun _ => Nat.le_refl _) ?_
    intro other member same
    rw [numbered.only found member same]
    exact Nat.le_succ _
  obtain ⟨counted, moved⟩ := raised numbered
  have row_cases : ∀ row ∈ ((tables.updateMember message mailbox change).setHighest mailbox
      (box.highestModSeq + 1)).members, ∃ old ∈ tables.members,
        (old.mailboxID = mailbox ∧ row = change old) ∨ row = old := by
    intro row member
    obtain ⟨old, oldMember, made⟩ := List.mem_map.mp member
    split at made
    · rename_i key
      exact ⟨old, oldMember, Or.inl ⟨key.2, made.symm⟩⟩
    · exact ⟨old, oldMember, Or.inr made.symm⟩
  refine ⟨⟨counted.boxes, ?_, ?_, ?_⟩, ⟨moved.boxes, ?_, ?_⟩⟩
  · refine List.Pairwise.map _ ?_ numbered.uids
    intro left right differ
    have kept : ∀ row : Membership,
      (if row.messageID = message ∧ row.mailboxID = mailbox then change row
        else row).mailboxID = row.mailboxID ∧ (if row.messageID = message ∧ row.mailboxID = mailbox
          then change row else row).uid = row.uid := by
      intro row
      split
      · exact ⟨keepsMailbox row, keepsUid row⟩
      · exact ⟨rfl, rfl⟩
    rw [(kept left).1, (kept left).2, (kept right).1, (kept right).2]
    exact differ
  · intro row member other otherMember place
    obtain ⟨old, oldMember, ⟨_, rfl⟩ | rfl⟩ := row_cases row member
    · rw [keepsUid]
      rw [keepsMailbox] at place
      exact counted.issued old oldMember other otherMember place
    · exact counted.issued row oldMember other otherMember place
  · intro row member other otherMember place
    obtain ⟨old, oldMember, ⟨here, rfl⟩ | rfl⟩ := row_cases row member
    · rw [keepsMailbox, here] at place
      obtain ⟨before, beforeMember, ⟨_, rfl⟩ | ⟨away, rfl⟩⟩ := mem_update_mailbox otherMember
      · exact Nat.le_of_eq (stamps old)
      · exact absurd place away
    · exact counted.stamped row oldMember other otherMember place
  · intro row member
    obtain ⟨old, oldMember, ⟨here, rfl⟩ | rfl⟩ := row_cases row member
    · refine Or.inr fun other otherMember place => ?_
      rw [keepsMailbox, here] at place
      rw [numbered.only found otherMember place, stamps]
      exact Nat.lt_succ_self _
    · exact Or.inl oldMember
  · intro row member
    obtain ⟨old, oldMember, ⟨_, rfl⟩ | rfl⟩ := row_cases row member
    · exact Or.inl ⟨old, oldMember, (keepsMessage old).symm, (keepsMailbox old).symm,
        (keepsUid old).symm⟩
    · exact Or.inl ⟨row, oldMember, rfl, rfl, rfl⟩

theorem insert_member_ok {tables filed : Tables} {row : Membership}
    (inserted : tables.insertMember row = .ok filed) :
    filed = { tables with members := tables.members ++ [row] } ∧
      ∀ old ∈ tables.members, old.mailboxID = row.mailboxID →
        old.messageID ≠ row.messageID ∧ old.uid ≠ row.uid := by
  unfold insertMember at inserted
  split at inserted
  · cases inserted
  · rename_i free
    refine ⟨(Except.ok.inj inserted).symm, fun old member place => ?_⟩
    simp only [List.any_eq_true, decide_eq_true_eq, not_exists, not_and, not_or] at free
    exact free old member place

theorem progress_file (tables filed : Tables) (row : Membership) (box : Mailbox)
    (found : tables.mailbox? row.mailboxID = some box) (uid : row.uid = box.uidNext)
    (stamp : row.modSeq = box.highestModSeq + 1) (inserted : tables.insertMember row = .ok filed) :
    Progress tables (filed.advance row.mailboxID (box.highestModSeq + 1)) := by
  intro numbered
  obtain ⟨rfl, _⟩ := insert_member_ok inserted
  have raised : Progress tables (tables.advance row.mailboxID (box.highestModSeq + 1)) := by
    refine progress_raise tables row.mailboxID _ (fun _ => rfl) (fun _ => Nat.le_succ _) ?_
    intro other member same
    rw [numbered.only found member same]
    exact Nat.le_succ _
  obtain ⟨counted, moved⟩ := raised numbered
  obtain ⟨boxMember, boxId⟩ := mailbox_found found
  have current : ∀ other ∈ (tables.advance row.mailboxID (box.highestModSeq + 1)).mailboxes,
      other.id = row.mailboxID → other.uidNext = box.uidNext + 1 ∧
        other.highestModSeq = box.highestModSeq + 1 := by
    intro other otherMember place
    obtain ⟨old, oldMember, ⟨here, rfl⟩ | ⟨away, rfl⟩⟩ := mem_update_mailbox otherMember
    · rw [numbered.only found oldMember here]
      exact ⟨rfl, rfl⟩
    · exact absurd place away
  refine ⟨⟨counted.boxes, ?_, ?_, ?_⟩, ⟨moved.boxes, ?_, ?_⟩⟩
  · show (tables.members ++ [row]).Pairwise _
    rw [List.pairwise_append]
    refine ⟨numbered.uids, List.pairwise_singleton _ _, ?_⟩
    intro old member new newMember same
    rw [List.mem_singleton] at newMember
    subst newMember
    have below := numbered.issued old member box boxMember (boxId.trans same.symm)
    omega
  · intro other member
    rcases List.mem_append.mp member with old | new
    · exact counted.issued other old
    · rw [List.mem_singleton.mp new]
      intro next nextMember place
      rw [(current next nextMember place).1, uid]
      exact Nat.lt_succ_self _
  · intro other member
    rcases List.mem_append.mp member with old | new
    · exact counted.stamped other old
    · rw [List.mem_singleton.mp new]
      intro next nextMember place
      rw [(current next nextMember place).2, stamp]
  · intro other member
    rcases List.mem_append.mp member with old | new
    · exact Or.inl old
    · rw [List.mem_singleton.mp new]
      refine Or.inr fun old oldMember place => ?_
      rw [numbered.only found oldMember place, stamp]
      exact Nat.lt_succ_self _
  · intro other member
    rcases List.mem_append.mp member with old | new
    · exact Or.inl ⟨other, old, rfl, rfl, rfl⟩
    · rw [List.mem_singleton.mp new]
      refine Or.inr fun old oldMember place => ?_
      rw [numbered.only found oldMember place, uid]

section

variable {principal : PrincipalID} {tables after : Tables} {message : MessageID}
  {mailbox : MailboxID}

theorem set_snooze_progress {until? : Option Micros} {wake : Option MailboxID}
    (ran : tables.setSnooze message mailbox until? wake = .ok after) : Progress tables after := by
  obtain ⟨_, _, later⟩ := bind_ok ran
  obtain ⟨box, housed, ended⟩ := bind_ok later
  cases ended
  refine progress_logged ?_ _ _ _ _ _ _
  exact progress_touch tables message mailbox box _ (require_ok housed) (fun _ => rfl) (fun _ => rfl)
    (fun _ => rfl) fun _ => rfl

theorem end_reminders_progress {rows : List Membership} {tables after : Tables}
    (ran : endReminders message rows tables = .ok after) : Progress tables after := by
  induction rows generalizing tables with
  | nil =>
    cases ran
    exact progress_refl _
  | cons row rows ih =>
    obtain ⟨middle, first, later⟩ := bind_ok ran
    refine progress_trans ?_ (ih later)
    split at first
    · exact set_snooze_progress first
    · cases first
      exact progress_refl _

theorem transfer_snooze_progress {until? : Option Micros}
    {wake : Option MailboxID} {placeOnly : Bool}
    (ran : tables.transferSnooze message until? wake placeOnly = .ok after) :
      Progress tables after := by
  unfold transferSnooze at ran
  dsimp only at ran
  split at ran
  · exact end_reminders_progress ran
  · split at ran
    · cases ran
      exact progress_refl _
    · split at ran
      · split at ran
        · cases ran
          exact progress_refl _
        · obtain ⟨placed, first, second⟩ := bind_ok ran
          exact progress_trans (set_snooze_progress first) (set_snooze_progress second)
      · split at ran
        · cases ran
          exact progress_refl _
        · exact set_snooze_progress ran

theorem delete_member_progress (tables : Tables) (message : MessageID) (mailbox : MailboxID) :
    Progress tables (tables.deleteMember message mailbox) :=
  progress_fewer rfl List.filter_sublist

theorem delete_membership_progress {handOver : Bool}
    (ran : tables.deleteMembership message mailbox handOver = .ok after) :
    Progress tables after := by
  refine progress_trans (delete_member_progress tables message mailbox) ?_
  unfold deleteMembership at ran
  dsimp only at ran
  split at ran
  · exact transfer_snooze_progress ran
  · cases ran
    exact progress_refl _

theorem replay_into_progress (ran : tables.replayInto message mailbox = .ok after) :
    Progress tables after := by
  unfold replayInto at ran
  split at ran
  · cases ran
    exact progress_refl _
  · rename_i box found
    split at ran
    · cases ran
      exact progress_refl _
    · obtain ⟨filed, inserted, ended⟩ := bind_ok ran
      cases ended
      exact progress_file tables filed _ box found rfl rfl inserted

theorem replay_all_progress {mailboxes : List MailboxID} {tables after : Tables}
    (ran : replayAll message mailboxes tables = .ok after) : Progress tables after := by
  induction mailboxes generalizing tables with
  | nil =>
    cases ran
    exact progress_refl _
  | cons mailbox mailboxes ih =>
    obtain ⟨middle, first, later⟩ := bind_ok ran
    exact progress_trans (replay_into_progress first) (ih later)

theorem replay_pretrash_progress (ran : tables.replayPretrash message = .ok after) :
    Progress tables after := by
  obtain ⟨replayed, first, ended⟩ := bind_ok ran
  cases ended
  exact progress_trans (replay_all_progress first) (progress_same rfl rfl)

theorem file_target_progress {principal : PrincipalID} {message : MessageID}
    {target : MailStore.Target} (ran : tables.fileTarget principal message target = .ok after) :
    Progress tables after := by
  obtain ⟨box, housed, later⟩ := bind_ok ran
  obtain ⟨filed, inserted, ended⟩ := bind_ok later
  cases ended
  refine progress_trans (progress_file tables filed _ box (require_ok housed) rfl rfl inserted) ?_
  exact progress_same rfl rfl

theorem file_targets_progress {targets : List MailStore.Target} {tables after : Tables}
    (ran : fileTargets principal message targets tables = .ok after) : Progress tables after := by
  induction targets generalizing tables with
  | nil =>
    cases ran
    exact progress_refl _
  | cons target targets ih =>
    obtain ⟨middle, first, later⟩ := bind_ok ran
    exact progress_trans (file_target_progress first) (ih later)

theorem log_merged_tables (tables : Tables) (principal : PrincipalID) (merged : List MessageID) :
    (tables.logMerged principal merged).members = tables.members ∧
      (tables.logMerged principal merged).mailboxes = tables.mailboxes := by
  unfold logMerged
  generalize (merged.flatMap fun message =>
    (tables.members.filter fun row => row.messageID = message).map
      fun row => (message, row.mailboxID)) = keys
  induction keys generalizing tables with
  | nil => exact ⟨rfl, rfl⟩
  | cons key keys ih => exact ih (tables.appendEmailChange principal key.1 key.2 .updated)

theorem insert_message_progress {message : NewMessage}
    (ran : tables.insertMessage message = .ok after) : Progress tables after := by
  obtain ⟨principal, _, later⟩ := bind_ok ran
  obtain ⟨charged, _, later⟩ := bind_ok later
  obtain ⟨account, _, later⟩ := bind_ok later
  obtain ⟨_, _, later⟩ := bind_ok later
  obtain ⟨filed, targets, ended⟩ := bind_ok later
  cases ended
  refine progress_trans ?_ (progress_trans (file_targets_progress targets) ?_)
  · exact progress_same rfl rfl
  · obtain ⟨members, mailboxes⟩ :=
      log_merged_tables ((filed.credit charged message.size).incRef message.blob.hash) principal
        message.merged
    exact progress_same mailboxes members

theorem touch_member_progress {principal : PrincipalID} {message : MessageID}
    {mailbox : MailboxID} (ran : tables.touchMember principal message mailbox = .ok after) :
    Progress tables after := by
  obtain ⟨box, housed, ended⟩ := bind_ok ran
  cases ended
  refine progress_logged ?_ _ _ _ _ _ _
  exact progress_touch tables message mailbox box _ (require_ok housed) (fun _ => rfl) (fun _ => rfl)
    (fun _ => rfl) fun _ => rfl

theorem touch_members_progress {mailboxes : List MailboxID} {tables after : Tables}
    (ran : touchMembers principal message mailboxes tables = .ok after) : Progress tables after := by
  induction mailboxes generalizing tables with
  | nil =>
    cases ran
    exact progress_refl _
  | cons mailbox mailboxes ih =>
    obtain ⟨middle, first, later⟩ := bind_ok ran
    exact progress_trans (touch_member_progress first) (ih later)

theorem replace_body_progress {id : MessageID} {blob : BlobName} {size : Nat}
    (ran : tables.replaceMessageBody id blob size = .ok after) : Progress tables after := by
  obtain ⟨row, _, later⟩ := bind_ok ran
  obtain ⟨charged, _, later⟩ := bind_ok later
  obtain ⟨_, _, touched⟩ := bind_ok later
  refine progress_trans ?_ (touch_members_progress touched)
  split
  · exact progress_same rfl rfl
  · exact progress_same rfl rfl

theorem update_flags_progress {add clear : MessageFlags} {keywordAdd keywordClear : List Bytes}
    {unchangedSince : Nat}
    (ran : tables.updateMessageFlags message mailbox add clear keywordAdd keywordClear unchangedSince =
      .ok after) : Progress tables after := by
  obtain ⟨row, _, later⟩ := bind_ok ran
  obtain ⟨_, _, later⟩ := bind_ok later
  obtain ⟨box, housed, ended⟩ := bind_ok later
  cases ended
  refine progress_logged ?_ _ _ _ _ _ _
  exact progress_touch tables message mailbox box _ (require_ok housed) (fun _ => rfl) (fun _ => rfl)
    (fun _ => rfl) fun _ => rfl

theorem record_arrival_progress (ran : tables.recordMailboxArrival message mailbox = .ok after) :
    Progress tables after := by
  obtain ⟨row, _, later⟩ := bind_ok ran
  obtain ⟨_, _, later⟩ := bind_ok later
  obtain ⟨box, housed, ended⟩ := bind_ok later
  cases ended
  refine progress_logged ?_ _ _ _ _ _ _
  exact progress_touch tables message mailbox box _ (require_ok housed) (fun _ => rfl) (fun _ => rfl)
    (fun _ => rfl) fun _ => rfl

theorem release_progress (tables : Tables) (message : MessageID) (charged : PrincipalID) :
    Progress tables (tables.releaseIfUnfiled message charged) := by
  unfold releaseIfUnfiled
  split
  · exact progress_refl tables
  · dsimp only
    split
    · exact progress_fewer rfl List.filter_sublist
    · exact progress_fewer rfl List.filter_sublist

theorem leave_trash_progress {trash : List MailboxID}
    {tables after : Tables} (ran : leaveTrash principal message trash tables = .ok after) :
    Progress tables after := by
  induction trash generalizing tables with
  | nil =>
    cases ran
    exact progress_refl _
  | cons place trash ih =>
    obtain ⟨middle, first, later⟩ := bind_ok ran
    refine progress_trans (delete_membership_progress first) (progress_trans ?_ (ih later))
    exact progress_trans (progress_bump middle place) (progress_same rfl rfl)

theorem remove_trash_progress {principal : PrincipalID} {message : MessageID}
    {kept : MailboxID} (ran : tables.removeTrashAndReplay principal message kept = .ok after) :
    Progress tables after := by
  unfold removeTrashAndReplay at ran
  dsimp only at ran
  split at ran
  · cases ran
    exact progress_refl _
  · obtain ⟨left, first, later⟩ := bind_ok ran
    exact progress_trans (leave_trash_progress first) (replay_pretrash_progress later)

theorem add_message_progress (ran : tables.addMessageToMailbox message mailbox = .ok after) :
    Progress tables after := by
  obtain ⟨row, _, later⟩ := bind_ok ran
  obtain ⟨_, _, later⟩ := bind_ok later
  obtain ⟨box, housed, later⟩ := bind_ok later
  obtain ⟨filed, inserted, ended⟩ := bind_ok later
  have place := require_ok housed
  have snapped : Progress tables
    (if box.trash then tables.snapshotPretrash message mailbox else tables) := by
    split
    · exact progress_same rfl rfl
    · exact progress_refl tables
  have found : (if box.trash then tables.snapshotPretrash message mailbox else tables).mailbox?
    mailbox =
      some box := by
    split
    · exact place
    · exact place
  refine progress_trans snapped (progress_trans
    (progress_file _ filed _ box found rfl rfl inserted) ?_)
  split at ended
  · cases ended
    exact progress_same rfl rfl
  · refine progress_trans ?_ (remove_trash_progress ended)
    exact progress_same rfl rfl

theorem remove_message_progress (ran : tables.removeMessageFromMailbox message mailbox =
    .ok after) : Progress tables after := by
  obtain ⟨_, _, later⟩ := bind_ok ran
  obtain ⟨row, _, later⟩ := bind_ok later
  obtain ⟨left, deleted, later⟩ := bind_ok later
  obtain ⟨restored, replayed, later⟩ := bind_ok later
  obtain ⟨charged, _, ended⟩ := bind_ok later
  cases ended
  have replay : Progress left restored := by
    split at replayed
    · exact replay_pretrash_progress replayed
    · cases replayed
      exact progress_refl _
  refine progress_trans (delete_membership_progress deleted) (progress_trans replay ?_)
  refine progress_trans (progress_bump restored mailbox) ?_
  exact progress_trans (release_progress _ message charged) (progress_same rfl rfl)

end

theorem update_mailbox_found {tables : Tables} {id : MailboxID} {box : Mailbox}
    {change : Mailbox → Mailbox}
    (keeps : ∀ box, (change box).id = box.id) (found : tables.mailbox? id = some box) :
    (tables.updateMailbox id change).mailbox? id = some (change box) := by
  unfold mailbox? updateMailbox at *
  dsimp only
  generalize tables.mailboxes = boxes at found
  induction boxes with
  | nil => cases found
  | cons first others ih =>
    by_cases here : first.id = id
    · have same : first = box := by simpa [List.find?_cons, here] using found
      subst same
      simp [here, keeps]
    · simp only [List.find?_cons, here, decide_false, List.map_cons, if_false] at found ⊢
      exact ih found

theorem update_mailbox_other {tables : Tables} {id other : MailboxID} {change : Mailbox → Mailbox}
    (keeps : ∀ box, (change box).id = box.id) (differ : other ≠ id) :
    (tables.updateMailbox id change).mailbox? other = tables.mailbox? other := by
  unfold mailbox? updateMailbox
  dsimp only
  induction tables.mailboxes with
  | nil => rfl
  | cons first others ih =>
    by_cases here : first.id = id
    · simp [here, keeps, ih, Ne.symm differ]
    · simp [List.find?_cons, here, ih]

theorem release_mailboxes (tables : Tables) (message : MessageID) (charged : PrincipalID) :
    (tables.releaseIfUnfiled message charged).mailboxes = tables.mailboxes := by
  unfold releaseIfUnfiled
  split
  · rfl
  · dsimp only
    split
    · rfl
    · rfl

/-- The counter an expunge read first stays the counter of the mailbox: only the
loop itself moves it, also when a reminder is handed over. -/
theorem expunge_loop_progress {owner charged : PrincipalID} {mailbox : MailboxID}
    {messages : List MessageID} {highest removed : Nat} {tables : Tables} {result : Nat × Tables}
    (current : ∃ box, tables.mailbox? mailbox = some box ∧ box.highestModSeq = highest)
    (ran : expungeLoop owner charged mailbox messages highest removed tables = .ok result) :
    Progress tables result.2 := by
  induction messages generalizing highest removed tables with
  | nil =>
    cases ran
    exact progress_refl _
  | cons message messages ih =>
    unfold expungeLoop at ran
    split at ran
    · exact ih current ran
    · obtain ⟨deleted, first, later⟩ := bind_ok ran
      obtain ⟨box, found, rfl⟩ := current
      have kept : (deleted.releaseIfUnfiled message charged).mailbox? mailbox = some box := by
        unfold mailbox?
        rw [release_mailboxes]
        exact (delete_membership_box first).trans found
      have counted : Progress (deleted.releaseIfUnfiled message charged)
          ((deleted.releaseIfUnfiled message charged).setHighest mailbox (box.highestModSeq + 1)) := by
        intro numbered
        refine progress_raise _ mailbox _ (fun _ => rfl) (fun _ => Nat.le_refl _) ?_ numbered
        intro other member same
        rw [numbered.only kept member same]
        exact Nat.le_succ _
      refine progress_trans (delete_membership_progress first) ?_
      refine progress_trans (release_progress deleted message charged) ?_
      refine progress_trans counted (progress_trans ?_ (ih ?_ later))
      · exact progress_same rfl rfl
      · exact ⟨_, update_mailbox_found (fun _ => rfl) kept, rfl⟩

section

variable {tables after : Tables} {message : MessageID}

theorem expunge_progress {mailbox : MailboxID} {messages : List MessageID}
    (ran : tables.expungeMessages mailbox messages = .ok after) : Progress tables after := by
  unfold expungeMessages at ran
  split at ran
  · cases ran
    exact progress_refl _
  · obtain ⟨box, housed, later⟩ := bind_ok ran
    obtain ⟨charged, _, later⟩ := bind_ok later
    obtain ⟨⟨removed, left⟩, looped, ended⟩ := bind_ok later
    dsimp only at ended
    split at ended
    · cases ended
    · cases ended
      exact expunge_loop_progress ⟨box, require_ok housed, rfl⟩ looped

/-- A replay passes over a mailbox the message is in, so the counters of that
mailbox may be written before it as well as after. -/
theorem replay_into_advanced {target mailbox : MailboxID}
    {modSeq : Nat} (filed : (tables.membership? message target).isSome)
    (ran : tables.replayInto message mailbox = .ok after) :
    (tables.advance target modSeq).replayInto message mailbox = .ok (after.advance target modSeq) ∧
      (after.membership? message target).isSome := by
  unfold replayInto at ran ⊢
  by_cases same : mailbox = target
  · subst same
    have stays : after = tables := by
      split at ran
      · exact (Except.ok.inj ran).symm
      · rw [if_pos filed] at ran
        exact (Except.ok.inj ran).symm
    subst stays
    refine ⟨?_, filed⟩
    split
    · rfl
    · exact if_pos filed
  · rw [show (tables.advance target modSeq).mailbox? mailbox = tables.mailbox? mailbox from
      update_mailbox_other (fun _ => rfl) same]
    split at ran
    · cases ran
      exact ⟨rfl, filed⟩
    · rename_i box found
      split at ran
      · rename_i already
        cases ran
        exact ⟨if_pos already, filed⟩
      · rename_i absent
        obtain ⟨placed, inserted, ended⟩ := bind_ok ran
        cases ended
        unfold insertMember at inserted
        split at inserted
        · cases inserted
        · rename_i free
          cases inserted
          constructor
          · rw [if_neg (show ¬((tables.advance target modSeq).membership? message
              mailbox).isSome from absent)]
            unfold insertMember
            rw [if_neg (show ¬((tables.advance target modSeq).members.any _) from free)]
            refine congrArg Except.ok ?_
            unfold advance updateMailbox
            simp only [List.map_map, Tables.mk.injEq, true_and, and_true]
            refine List.map_congr_left fun other _ => ?_
            by_cases here : other.id = target
            · have away : other.id ≠ mailbox := fun place => same (place.symm.trans here)
              simp [here, Ne.symm same]
            · by_cases place : other.id = mailbox
              · simp [place, same]
              · simp [here, place]
          · show (List.find? _ (tables.members ++ [_])).isSome
            rw [List.find?_append]
            obtain ⟨row, found⟩ := Option.isSome_iff_exists.mp filed
            rw [show List.find? _ tables.members = some row from found]
            rfl

theorem replay_all_advanced {target : MailboxID} {modSeq : Nat}
    {mailboxes : List MailboxID} {tables after : Tables}
    (filed : (tables.membership? message target).isSome)
    (ran : replayAll message mailboxes tables = .ok after) :
    replayAll message mailboxes (tables.advance target modSeq) = .ok (after.advance target modSeq) := by
  induction mailboxes generalizing tables with
  | nil =>
    cases ran
    rfl
  | cons mailbox mailboxes ih =>
    obtain ⟨middle, first, later⟩ := bind_ok ran
    obtain ⟨again, still⟩ := replay_into_advanced filed first
    unfold replayAll
    rw [again]
    exact ih still later

theorem replay_pretrash_advanced {target : MailboxID}
    {modSeq : Nat} (filed : (tables.membership? message target).isSome)
    (ran : tables.replayPretrash message = .ok after) :
    (tables.advance target modSeq).replayPretrash message = .ok (after.advance target modSeq) := by
  obtain ⟨replayed, first, ended⟩ := bind_ok ran
  cases ended
  unfold replayPretrash
  rw [show (tables.advance target modSeq).snapshotOf message = tables.snapshotOf message from rfl,
    replay_all_advanced filed first]
  rfl

/-- A move amounts to filing the message in the target, removing it from the source
and replaying its snapshot, in this order and with the counters written in between. -/
theorem move_progress {source target : MailboxID}
    (ran : tables.moveMessage message source target = .ok after) : Progress tables after := by
  obtain ⟨row, present, later⟩ := bind_ok ran
  obtain ⟨box, housed, later⟩ := bind_ok later
  obtain ⟨filed, inserted, later⟩ := bind_ok later
  obtain ⟨left, deleted, later⟩ := bind_ok later
  obtain ⟨restored, replayed, ended⟩ := bind_ok later
  cases ended
  set snapped := if box.trash then tables.snapshotPretrash message target else tables with snappedIs
  have place := require_ok housed
  have sameBoxes : snapped.mailboxes = tables.mailboxes := by
    rw [snappedIs]
    split
    · rfl
    · rfl
  have sameRows : snapped.members = tables.members := by
    rw [snappedIs]
    split
    · rfl
    · rfl
  have found : snapped.mailbox? target = some box := by
    unfold mailbox?
    rw [sameBoxes]
    exact place
  refine progress_logged ?_ _ _ _ _ _ _
  refine progress_trans ?_ (progress_bump _ source)
  obtain ⟨rowMember, rowMessage, rowPlace⟩ := membership_found (require_ok present)
  generalize movedIs : (if box.trash then
    { row with
      snoozedUntil := none, wakeMailboxID := none
      keywordsCSV := joinKeywords ((splitKeywords row.keywordsCSV).filter fun keyword =>
        keyword ≠ [] ∧ keyword ≠ snoozedKeyword) }
    else row : Membership) = moved at inserted
  have movedMessage : moved.messageID = message := by
    rw [← movedIs, ← rowMessage]
    split
    · rfl
    · rfl
  obtain ⟨filedIs, free⟩ := insert_member_ok inserted
  have differ : source ≠ target := by
    intro same
    refine (free row ?_ (rowPlace.trans same)).1 (rowMessage.trans movedMessage.symm)
    rw [sameRows]
    exact rowMember
  have leftIs : left = filed.deleteMember message source := (Except.ok.inj deleted).symm
  have stillFiled : (left.membership? message target).isSome := by
    rw [leftIs, filedIs]
    refine List.find?_isSome.mpr ⟨_, List.mem_filter.mpr
      ⟨List.mem_append_right _ (List.mem_singleton_self _), ?_⟩, ?_⟩
    · simpa using Or.inr (Ne.symm differ)
    · simpa using movedMessage
  have replay : Progress (left.advance target (box.highestModSeq + 1))
      (restored.advance target (box.highestModSeq + 1)) := by
    split at replayed
    · exact replay_pretrash_progress (replay_pretrash_advanced stillFiled replayed)
    · cases replayed
      exact progress_refl _
  refine progress_trans (progress_same sameBoxes sameRows) (progress_trans
    (progress_file snapped filed _ box found rfl rfl inserted) ?_)
  refine progress_trans (delete_member_progress _ message source) ?_
  rw [leftIs] at replay
  exact replay

theorem insert_all_progress {messages : List NewMessage} {tables after : Tables}
    (ran : insertAll messages tables = .ok after) : Progress tables after := by
  induction messages generalizing tables with
  | nil =>
    cases ran
    exact progress_refl _
  | cons message messages ih =>
    obtain ⟨middle, first, later⟩ := bind_ok ran
    exact progress_trans (insert_message_progress first) (ih later)

theorem insert_messages_progress {messages : List NewMessage} {tables after : Tables}
    (ran : tables.insertMessages messages = .ok after) : Progress tables after := by
  unfold insertMessages at ran
  split at ran
  · cases ran
  · exact insert_all_progress ran

theorem write_progress {write : Write} (ran : write.apply tables = .ok after) :
    Progress tables after := by
  cases write with
  | insert messages => exact insert_messages_progress ran
  | replaceBody message blob size => exact replace_body_progress ran
  | add message mailbox => exact add_message_progress ran
  | remove message mailbox => exact remove_message_progress ran
  | move message source target => exact move_progress ran
  | expunge mailbox messages => exact expunge_progress ran
  | updateFlags message mailbox set clear keywordAdd keywordClear unchangedSince =>
    exact update_flags_progress ran
  | setSnooze message mailbox until? wake => exact set_snooze_progress ran
  | releaseSnooze message mailbox => exact set_snooze_progress ran
  | consolidateSnooze message => exact transfer_snooze_progress ran
  | recordArrival message mailbox => exact record_arrival_progress ran

end

theorem commit_progress (tables : Tables) (write : Write) :
    Progress tables (committed tables (write.apply tables)) := by
  cases outcome : write.apply tables with
  | ok after => exact write_progress outcome
  | error _ => exact progress_refl tables

theorem run_progress {writes : List Write} {start final : Tables}
    (ran : Write.machine.execute start writes = some final) : Progress start final := by
  induction writes generalizing start with
  | nil =>
    cases ran
    exact progress_refl _
  | cons write writes ih => exact progress_trans (commit_progress start write) (ih ran)

/-- In every run, between any earlier state, any later one and the next: the
numbering holds; the counters have not gone down; a row that is new or changed is
stamped above the counter and above every row that its mailbox had; and a UID that its
message does not have in the mailbox already is a new one there. -/
theorem numbering_discipline (start early now : Tables) (first second : List Write) (write : Write)
    (numbered : Numbered start) (ranFirst : Write.machine.execute start first = some early)
    (ranSecond : Write.machine.execute early second = some now) :
    let next := committed now (write.apply now)
    Numbered next ∧
      ∀ box ∈ early.mailboxes,
        (∃ new ∈ next.mailboxes, new.id = box.id ∧ box.uidNext ≤ new.uidNext ∧
          box.highestModSeq ≤ new.highestModSeq) ∧
        ∀ row ∈ next.members, row.mailboxID = box.id →
          (row ∉ now.members → box.highestModSeq < row.modSeq ∧
            ∀ old ∈ early.members, old.mailboxID = box.id → old.modSeq < row.modSeq) ∧
          ((∀ kept ∈ now.members, kept.messageID = row.messageID → kept.mailboxID = box.id →
              kept.uid ≠ row.uid) →
            box.uidNext ≤ row.uid ∧
              ∀ old ∈ early.members, old.mailboxID = box.id → old.uid ≠ row.uid) := by
  intro next
  obtain ⟨earlyNumbered, _⟩ := run_progress ranFirst numbered
  obtain ⟨nowNumbered, since⟩ := run_progress ranSecond earlyNumbered
  obtain ⟨nextNumbered, step⟩ := commit_progress now write nowNumbered
  refine ⟨nextNumbered, fun box member => ⟨(advances_trans since step).boxes box member, ?_⟩⟩
  intro row rowMember place
  obtain ⟨current, currentMember, same, uidNext, highest⟩ := since.boxes box member
  constructor
  · intro fresh
    have above : box.highestModSeq < row.modSeq := by
      refine Nat.lt_of_le_of_lt highest ?_
      exact ((step.rows row rowMember).resolve_left fresh) current currentMember (same.trans place.symm)
    refine ⟨above, fun old oldMember oldPlace => ?_⟩
    exact Nat.lt_of_le_of_lt (earlyNumbered.stamped old oldMember box member oldPlace.symm) above
  · intro unused
    have above : box.uidNext ≤ row.uid := by
      refine Nat.le_trans uidNext ?_
      rcases step.numbers row rowMember with
        ⟨old, oldMember, sameMessage, oldPlace, uid⟩ | issued
      · exact absurd uid (unused old oldMember sameMessage (oldPlace.trans place))
      · exact issued current currentMember (same.trans place.symm)
    refine ⟨above, fun old oldMember oldPlace => ?_⟩
    exact Nat.ne_of_lt (Nat.lt_of_lt_of_le
      (earlyNumbered.issued old oldMember box member oldPlace.symm) above)

/-- A message is inserted and then flagged: its row is stamped above the counter. -/
theorem numbering_discipline_one_message :
    let box : Mailbox := { id := 1, principalID := 1, name := [97] }
    let start : Tables := { principals := [{ id := 1 }], mailboxes := [box] }
    let message : NewMessage :=
      { principalID := 1, blob := ⟨[1], by decide⟩, size := 5, targets := [{ mailboxID := 1 }] }
    let early := committed start (Write.apply start (.insert [message]))
    ∀ row ∈ (committed early (Write.apply early (.updateFlags 1 1 1 0 [] [] 0))).members,
      row.mailboxID = 1 → row ∉ early.members → 1 < row.modSeq := by
  intro box start message early row member place fresh
  have numbered : Numbered start := by
    refine ⟨List.pairwise_singleton _ _, List.Pairwise.nil, ?_, ?_⟩
    · intro row member
      cases member
    · intro row member
      cases member
  obtain ⟨_, boxes⟩ := numbering_discipline start early early [.insert [message]] []
    (.updateFlags 1 1 1 0 [] [] 0) numbered rfl rfl
  have here : ({ box with uidNext := 2, highestModSeq := 1 } : Mailbox) ∈ early.mailboxes := by decide
  exact (((boxes _ here).2 row member place).1 fresh).1

end Tables

end Herold.Store

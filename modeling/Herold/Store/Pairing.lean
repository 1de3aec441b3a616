import Herold.Go.Bytes
import Herold.Go.Split
import Herold.Store.Keeping

/-!
# Reminders and their keyword

A reminder is a date on a membership together with the keyword `$snoozed`, and never
on a membership of a trash mailbox. `SetSnooze` writes both halves; the other writes
copy a row, write a row without a reminder, or take rows away. The update of the
flags writes the keyword alone, so what it may do depends on the row it finds.
-/

namespace Herold.Store

open Herold.Go Herold.Machine

namespace Tables

def PairedRow (row : Membership) : Prop :=
  row.snoozedUntil.isSome = true ↔ snoozedKeyword ∈ splitKeywords row.keywordsCSV

structure GoodRow (tables : Tables) (row : Membership) : Prop where
  paired : PairedRow row
  clean : row.snoozedUntil.isSome = true → tables.isTrash row.mailboxID = false

def Paired (tables : Tables) : Prop := ∀ row ∈ tables.members, GoodRow tables row

structure SameReminder (old new : Membership) : Prop where
  place : new.mailboxID = old.mailboxID
  keywords : new.keywordsCSV = old.keywordsCSV
  date : new.snoozedUntil = old.snoozedUntil

theorem same_reminder_refl (row : Membership) : SameReminder row row := ⟨rfl, rfl, rfl⟩

theorem same_reminder_trans {first second third : Membership} (earlier : SameReminder first second)
    (later : SameReminder second third) : SameReminder first third :=
  ⟨later.place.trans earlier.place, later.keywords.trans earlier.keywords,
    later.date.trans earlier.date⟩

theorem good_row_same {tables : Tables} {old new : Membership} (same : SameReminder old new)
    (good : GoodRow tables old) : GoodRow tables new where
  paired := by
    unfold PairedRow
    rw [same.date, same.keywords]
    exact good.paired
  clean := by
    rw [same.date, same.place]
    exact good.clean

/-- What a write may do to the reminders: the trash stays the trash, and a row has
the reminder of an old row or a whole one of its own. -/
structure Carries (before after : Tables) : Prop where
  trash : ∀ id, after.isTrash id = before.isTrash id
  rows : ∀ row ∈ after.members, (∃ old ∈ before.members, SameReminder old row) ∨ GoodRow before row

section

variable (tables : Tables) {before after : Tables} (id : MailboxID)

theorem carries_paired (carries : Carries before after) (paired : Paired before) :
    Paired after := by
  intro row member
  have good : GoodRow before row := by
    rcases carries.rows row member with ⟨old, oldMember, same⟩ | good
    · exact good_row_same same (paired old oldMember)
    · exact good
  refine ⟨good.paired, fun dated => ?_⟩
  rw [carries.trash]
  exact good.clean dated

theorem carries_trans {first second third : Tables} (earlier : Carries first second)
    (later : Carries second third) : Carries first third where
  trash := fun id => (later.trash id).trans (earlier.trash id)
  rows := by
    intro row member
    rcases later.rows row member with ⟨middle, middleMember, same⟩ | good
    · rcases earlier.rows middle middleMember with ⟨old, oldMember, same'⟩ | good
      · exact Or.inl ⟨old, oldMember, same_reminder_trans same' same⟩
      · exact Or.inr (good_row_same same good)
    · refine Or.inr ⟨good.paired, fun dated => ?_⟩
      rw [← earlier.trash]
      exact good.clean dated

theorem is_trash_same (boxes : after.mailboxes = before.mailboxes) (id : MailboxID) :
    after.isTrash id = before.isTrash id := by
  unfold isTrash mailbox?
  rw [boxes]

theorem is_trash_update (place id : MailboxID) (change : Mailbox → Mailbox)
    (keeps : ∀ box, (change box).id = box.id ∧ (change box).trash = box.trash) :
    (tables.updateMailbox place change).isTrash id = tables.isTrash id := by
  unfold isTrash mailbox? updateMailbox
  dsimp only
  have key : ((fun box : Mailbox => decide (box.id = id)) ∘ fun box =>
      if box.id = place then change box else box) = fun box => decide (box.id = id) := by
    funext box
    simp only [Function.comp]
    split
    · rw [(keeps box).1]
    · rfl
  rw [List.find?_map, key, Option.map_map]
  congr 1
  refine Option.map_congr fun box _ => ?_
  simp only [Function.comp]
  split
  · exact (keeps box).2
  · rfl

theorem carries_fewer (boxes : after.mailboxes = before.mailboxes)
    (rows : ∀ row ∈ after.members, row ∈ before.members) : Carries before after :=
  ⟨is_trash_same boxes, fun row member => Or.inl ⟨row, rows row member, same_reminder_refl row⟩⟩

theorem carries_same (boxes : after.mailboxes = before.mailboxes)
    (rows : after.members = before.members) : Carries before after :=
  carries_fewer boxes fun _ member => rows ▸ member

theorem carries_refl : Carries tables tables := carries_same rfl rfl

theorem carries_logged (carries : Carries before after) (principal : PrincipalID)
    (message : MessageID) (mailbox : MailboxID) (op : ChangeOp) :
    Carries before (after.appendEmailChange principal message mailbox op) :=
  carries_trans carries (carries_same rfl rfl)

theorem carries_counters (place : MailboxID) (change : Mailbox → Mailbox)
    (keeps : ∀ box, (change box).id = box.id ∧ (change box).trash = box.trash) :
    Carries tables (tables.updateMailbox place change) where
  trash := fun id => is_trash_update tables place id change keeps
  rows := fun row member => Or.inl ⟨row, member, same_reminder_refl row⟩

theorem set_highest_carries (modSeq : Nat) :
    Carries tables (tables.setHighest id modSeq) := carries_counters tables id _ fun _ => ⟨rfl, rfl⟩

theorem bump_highest_carries : Carries tables (tables.bumpHighest id) :=
  carries_counters tables id _ fun _ => ⟨rfl, rfl⟩

theorem advance_carries (modSeq : Nat) :
    Carries tables (tables.advance id modSeq) := carries_counters tables id _ fun _ => ⟨rfl, rfl⟩

theorem carries_update (message : MessageID) (mailbox : MailboxID)
    (change : Membership → Membership)
    (good : ∀ row ∈ tables.members, row.messageID = message → row.mailboxID = mailbox →
      SameReminder row (change row) ∨ GoodRow tables (change row)) :
    Carries tables (tables.updateMember message mailbox change) where
  trash := is_trash_same rfl
  rows := by
    intro row member
    obtain ⟨old, oldMember, rfl⟩ := List.mem_map.mp member
    split
    case isTrue here =>
      rcases good old oldMember here.1 here.2 with same | good
      · exact Or.inl ⟨old, oldMember, same⟩
      · exact Or.inr good
    case isFalse => exact Or.inl ⟨old, oldMember, same_reminder_refl old⟩

theorem carries_insert {tables after : Tables} {row : Membership} (good : GoodRow tables row)
    (inserted : tables.insertMember row = .ok after) : Carries tables after := by
  obtain ⟨rfl, _⟩ := insert_member_ok inserted
  refine ⟨is_trash_same rfl, fun other member => ?_⟩
  rcases List.mem_append.mp member with old | new
  · exact Or.inl ⟨other, old, same_reminder_refl other⟩
  · rw [List.mem_singleton.mp new]
    exact Or.inr good

theorem good_row_bare (row : Membership) (keywords : row.keywordsCSV = [])
    (date : row.snoozedUntil = none) : GoodRow tables row := by
  refine ⟨?_, fun dated => ?_⟩
  · unfold PairedRow
    rw [keywords, date]
    exact iff_of_false (by simp) (by simp [splitKeywords])
  · rw [date] at dated
    cases dated

end

theorem snooze_keywords_free (current : List Bytes) (snoozed : Bool)
    (free : ∀ keyword ∈ current, 44 ∉ keyword) :
    ∀ keyword ∈ MailStore.snoozeKeywords current snoozed, 44 ∉ keyword := by
  intro keyword member
  simp only [MailStore.snoozeKeywords, List.mem_insertionSort, List.mem_dedup] at member
  split at member
  · rcases List.mem_cons.mp member with rfl | kept
    · decide
    · exact free keyword (List.mem_filter.mp kept).1
  · exact free keyword (List.mem_filter.mp member).1

theorem snooze_row_paired (until? : Option Micros) (wake : Option MailboxID) (modSeq : Nat)
    (row : Membership) : PairedRow (snoozeRow until? wake modSeq row) := by
  have free := snooze_keywords_free (splitKeywords row.keywordsCSV) until?.isSome
    (split_keywords_free _)
  unfold PairedRow
  rw [snoozeRow, keywords_rejoined _ free snoozedKeyword (by decide)]
  simp only [MailStore.snoozeKeywords, List.mem_insertionSort, List.mem_dedup]
  cases until? with
  | none => simp
  | some date => simp

section

variable {tables after : Tables} {message : MessageID}

/-- `SetSnooze` writes both halves of a reminder. -/
theorem set_snooze_carries {mailbox : MailboxID} {until? : Option Micros} {wake : Option MailboxID}
    (clean : until?.isSome = true → tables.isTrash mailbox = false)
    (ran : tables.setSnooze message mailbox until? wake = .ok after) : Carries tables after := by
  obtain ⟨_, _, later⟩ := bind_ok ran
  obtain ⟨box, _, ended⟩ := bind_ok later
  cases ended
  refine carries_trans (carries_update tables message mailbox
    (snoozeRow until? wake (box.highestModSeq + 1)) ?_)
    (carries_logged (set_highest_carries _ mailbox (box.highestModSeq + 1)) _ _ _ _)
  intro row _ _ place
  refine Or.inr ⟨snooze_row_paired until? wake _ row, fun dated => ?_⟩
  exact place ▸ clean dated

theorem end_reminders_carries {rows : List Membership} {tables after : Tables}
    (ran : endReminders message rows tables = .ok after) : Carries tables after := by
  induction rows generalizing tables with
  | nil =>
    cases ran
    exact carries_refl _
  | cons row rows ih =>
    obtain ⟨middle, first, later⟩ := bind_ok ran
    refine carries_trans ?_ (ih later)
    split at first
    · exact set_snooze_carries (by simp) first
    · cases first
      exact carries_refl _

theorem transfer_snooze_carries {until? : Option Micros}
    {wake : Option MailboxID} {placeOnly : Bool}
    (ran : tables.transferSnooze message until? wake placeOnly = .ok after) : Carries tables after := by
  unfold transferSnooze at ran
  dsimp only at ran
  split at ran
  case h_1 => exact end_reminders_carries ran
  case h_2 target found =>
    have clean : tables.isTrash target.mailboxID = false := by simpa using List.find?_some found
    split at ran
    · cases ran
      exact carries_refl _
    · split at ran
      · split at ran
        · cases ran
          exact carries_refl _
        · obtain ⟨placed, first, second⟩ := bind_ok ran
          exact carries_trans (set_snooze_carries (fun _ => clean) first)
            (set_snooze_carries (by simp) second)
      · split at ran
        · cases ran
          exact carries_refl _
        · exact set_snooze_carries (fun _ => clean) ran

theorem delete_membership_carries {mailbox : MailboxID}
    {handOver : Bool} (ran : tables.deleteMembership message mailbox handOver = .ok after) :
    Carries tables after := by
  have removed : Carries tables (tables.deleteMember message mailbox) :=
    carries_fewer rfl fun row member => List.mem_of_mem_filter member
  unfold deleteMembership at ran
  dsimp only at ran
  split at ran
  · exact carries_trans removed (transfer_snooze_carries ran)
  · cases ran
    exact removed

end

theorem replay_into_carries {tables after : Tables} {message : MessageID} {mailbox : MailboxID}
    (ran : tables.replayInto message mailbox = .ok after) : Carries tables after := by
  unfold replayInto at ran
  split at ran
  · cases ran
    exact carries_refl _
  · split at ran
    · cases ran
      exact carries_refl _
    · obtain ⟨filed, inserted, ended⟩ := bind_ok ran
      cases ended
      exact carries_trans (carries_insert (good_row_bare tables _ rfl rfl) inserted)
        (advance_carries _ _ _)

theorem replay_all_carries {message : MessageID} {mailboxes : List MailboxID} {tables after : Tables}
    (ran : replayAll message mailboxes tables = .ok after) : Carries tables after := by
  induction mailboxes generalizing tables with
  | nil =>
    cases ran
    exact carries_refl _
  | cons mailbox mailboxes ih =>
    obtain ⟨middle, first, later⟩ := bind_ok ran
    exact carries_trans (replay_into_carries first) (ih later)

theorem replay_pretrash_carries {tables after : Tables} {message : MessageID}
    (ran : tables.replayPretrash message = .ok after) : Carries tables after := by
  obtain ⟨replayed, first, ended⟩ := bind_ok ran
  cases ended
  exact carries_trans (replay_all_carries first) (carries_same rfl rfl)

theorem leave_trash_carries {principal : PrincipalID} {message : MessageID} {trash : List MailboxID}
    {tables after : Tables} (ran : leaveTrash principal message trash tables = .ok after) :
    Carries tables after := by
  induction trash generalizing tables with
  | nil =>
    cases ran
    exact carries_refl _
  | cons place trash ih =>
    obtain ⟨middle, first, later⟩ := bind_ok ran
    refine carries_trans (delete_membership_carries first) (carries_trans ?_ (ih later))
    exact carries_logged (bump_highest_carries middle place) _ _ _ _

theorem remove_trash_carries {tables after : Tables} {principal : PrincipalID} {message : MessageID}
    {kept : MailboxID} (ran : tables.removeTrashAndReplay principal message kept = .ok after) :
    Carries tables after := by
  unfold removeTrashAndReplay at ran
  dsimp only at ran
  split at ran
  · cases ran
    exact carries_refl _
  · obtain ⟨left, first, later⟩ := bind_ok ran
    exact carries_trans (leave_trash_carries first) (replay_pretrash_carries later)

section

variable {tables after : Tables} {message : MessageID} {mailbox : MailboxID}

theorem add_message_carries (ran : tables.addMessageToMailbox message mailbox = .ok after) :
    Carries tables after := by
  obtain ⟨row, _, later⟩ := bind_ok ran
  obtain ⟨_, _, later⟩ := bind_ok later
  obtain ⟨box, _, later⟩ := bind_ok later
  obtain ⟨filed, inserted, ended⟩ := bind_ok later
  have snapped : Carries tables
    (if box.trash then tables.snapshotPretrash message mailbox else tables) := by
    split
    · exact carries_same rfl rfl
    · exact carries_refl _
  have counted := carries_logged (carries_trans snapped (carries_trans
    (carries_insert (good_row_bare _ _ rfl rfl) inserted)
    (advance_carries filed mailbox (box.highestModSeq + 1)))) row.principalID message mailbox .created
  split at ended
  · cases ended
    exact counted
  · exact carries_trans counted (remove_trash_carries ended)

theorem record_arrival_carries (ran : tables.recordMailboxArrival message mailbox = .ok after) :
    Carries tables after := by
  obtain ⟨_, _, later⟩ := bind_ok ran
  obtain ⟨_, _, later⟩ := bind_ok later
  obtain ⟨box, _, ended⟩ := bind_ok later
  cases ended
  refine carries_trans (carries_update tables message mailbox
    (fun member => { member with modSeq := box.highestModSeq + 1 }) ?_)
    (carries_logged (set_highest_carries _ mailbox (box.highestModSeq + 1)) _ _ _ _)
  exact fun row _ _ _ => Or.inl ⟨rfl, rfl, rfl⟩

theorem release_carries (tables : Tables) (message : MessageID) (charged : PrincipalID) :
    Carries tables (tables.releaseIfUnfiled message charged) := by
  have fewer : ∀ row ∈ (tables.deleteMessages fun row => row.id = message).members,
    row ∈ tables.members :=
    fun row member => List.mem_of_mem_filter member
  unfold releaseIfUnfiled
  split
  · exact carries_refl tables
  · dsimp only
    split
    · exact carries_fewer rfl fewer
    · exact carries_fewer rfl fewer

theorem remove_message_carries (ran : tables.removeMessageFromMailbox message mailbox = .ok after) :
    Carries tables after := by
  obtain ⟨_, _, later⟩ := bind_ok ran
  obtain ⟨row, _, later⟩ := bind_ok later
  obtain ⟨left, first, later⟩ := bind_ok later
  obtain ⟨restored, second, later⟩ := bind_ok later
  obtain ⟨charged, _, ended⟩ := bind_ok later
  cases ended
  have replayed : Carries left restored := by
    split at second
    · exact replay_pretrash_carries second
    · cases second
      exact carries_refl left
  exact carries_logged (carries_trans (delete_membership_carries first) (carries_trans replayed
    (carries_trans (bump_highest_carries _ mailbox)
      (release_carries (restored.bumpHighest mailbox) message charged)))) _ _ _ _

theorem expunge_loop_carries {owner charged : PrincipalID} {mailbox : MailboxID}
    {messages : List MessageID}
    {highest removed count : Nat} {tables after : Tables}
    (ran : expungeLoop owner charged mailbox messages highest removed tables = .ok (count, after)) :
    Carries tables after := by
  induction messages generalizing highest removed tables with
  | nil =>
    cases ran
    exact carries_refl _
  | cons message messages ih =>
    rw [expungeLoop] at ran
    split at ran
    · exact ih ran
    · obtain ⟨deleted, first, later⟩ := bind_ok ran
      refine carries_trans ?_ (ih later)
      exact carries_logged (carries_trans (delete_membership_carries first) (carries_trans
        (release_carries deleted message charged) (set_highest_carries _ mailbox (highest + 1)))) _
          _ _ _

theorem expunge_carries {messages : List MessageID}
    (ran : tables.expungeMessages mailbox messages = .ok after) : Carries tables after := by
  unfold expungeMessages at ran
  split at ran
  · cases ran
    exact carries_refl _
  · obtain ⟨box, _, later⟩ := bind_ok ran
    obtain ⟨charged, _, later⟩ := bind_ok later
    obtain ⟨⟨removed, final⟩, looped, ended⟩ := bind_ok later
    dsimp only at ended
    split at ended
    · cases ended
    · cases ended
      exact expunge_loop_carries looped

def GoodTarget (tables : Tables) (target : MailStore.Target) : Prop :=
  (target.snoozedUntil.isSome = true ↔ snoozedKeyword ∈ splitKeywords (joinKeywords target.keywords)) ∧
    (target.snoozedUntil.isSome = true → tables.isTrash target.mailboxID = false)

theorem file_target_carries {principal : PrincipalID} {message : MessageID}
    {target : MailStore.Target} (good : GoodTarget tables target)
    (ran : tables.fileTarget principal message target = .ok after) : Carries tables after := by
  obtain ⟨box, _, later⟩ := bind_ok ran
  obtain ⟨filed, inserted, ended⟩ := bind_ok later
  cases ended
  refine carries_logged (carries_trans (carries_insert ?_ inserted)
    (advance_carries filed target.mailboxID _)) _ _ _ _
  exact ⟨good.1, good.2⟩

theorem file_targets_carries {principal : PrincipalID} {message : MessageID}
    {targets : List MailStore.Target} {tables after : Tables}
    (good : ∀ target ∈ targets, GoodTarget tables target)
    (ran : fileTargets principal message targets tables = .ok after) : Carries tables after := by
  induction targets generalizing tables with
  | nil =>
    cases ran
    exact carries_refl _
  | cons target targets ih =>
    obtain ⟨middle, first, later⟩ := bind_ok ran
    have filed := file_target_carries (good target List.mem_cons_self) first
    refine carries_trans filed (ih (fun other member => ?_) later)
    obtain ⟨paired, clean⟩ := good other (List.mem_cons_of_mem target member)
    exact ⟨paired, fun dated => (filed.trash _).trans (clean dated)⟩

theorem insert_message_carries {message : NewMessage}
    (good : ∀ target ∈ message.targets,
      GoodTarget tables (target.inherit message.flags message.keywords))
    (ran : tables.insertMessage message = .ok after) : Carries tables after := by
  obtain ⟨principal, _, later⟩ := bind_ok ran
  obtain ⟨charged, _, later⟩ := bind_ok later
  obtain ⟨account, _, later⟩ := bind_ok later
  obtain ⟨_, _, later⟩ := bind_ok later
  obtain ⟨filed, targets, ended⟩ := bind_ok later
  cases ended
  have opened := file_targets_carries (fun target member => by
    obtain ⟨source, sourceMember, rfl⟩ := List.mem_map.mp member
    exact good source sourceMember) targets
  obtain ⟨members, mailboxes⟩ :=
    log_merged_tables ((filed.credit charged message.size).incRef message.blob.hash) principal
      message.merged
  refine carries_trans (carries_trans ?_ opened) (carries_same mailboxes members)
  exact carries_same rfl rfl

theorem dropped_carries (id : MailboxID) (charged : PrincipalID) (soles : List MessageRow)
    (tables : Tables) :
    Carries tables (soles.foldl (fun tables sole => tables.dropSole id charged sole) tables) := by
  induction soles generalizing tables with
  | nil => exact carries_refl tables
  | cons sole soles ih =>
    have dropped : Carries tables (tables.dropSole id charged sole) :=
      carries_fewer rfl fun row member => List.mem_of_mem_filter member
    exact carries_trans dropped (ih (tables.dropSole id charged sole))

theorem delete_memberships_carries {messages : List MessageID} {tables after : Tables}
    (ran : deleteMemberships mailbox messages tables = .ok after) : Carries tables after := by
  induction messages generalizing tables with
  | nil =>
    cases ran
    exact carries_refl _
  | cons message messages ih =>
    obtain ⟨middle, first, later⟩ := bind_ok ran
    exact carries_trans (delete_membership_carries first) (ih later)

theorem delete_mailbox_paired {id : MailboxID} (paired : Paired tables)
    (ran : tables.deleteMailbox id = .ok after) : Paired after := by
  obtain ⟨box, _, later⟩ := bind_ok ran
  obtain ⟨charged, _, later⟩ := bind_ok later
  obtain ⟨emptied, memberships, ended⟩ := bind_ok later
  cases ended
  have kept := carries_paired
    (carries_trans (dropped_carries id charged (tables.soleMessages id) tables)
    (delete_memberships_carries memberships)) paired
  intro row member
  obtain ⟨row, listed, rfl⟩ := List.mem_map.mp member
  obtain ⟨old, away⟩ := List.mem_filter.mp listed
  obtain ⟨whole, clean⟩ := kept row old
  refine ⟨whole, fun dated => ?_⟩
  have elsewhere : row.mailboxID ≠ id := by simpa using away
  have clean := clean dated
  unfold isTrash mailbox? at clean ⊢
  change (((emptied.mailboxes.filter fun box => box.id ≠ id).find? fun box =>
    box.id = row.mailboxID).map Mailbox.trash).getD false = false
  rw [List.find?_filter]
  have same : (fun box : Mailbox =>
    decide (decide (box.id ≠ id) = true ∧ decide (box.id = row.mailboxID) = true)) =
      fun box => decide (box.id = row.mailboxID) := by
    funext box
    simp only [decide_eq_true_eq, decide_eq_decide]
    exact ⟨And.right, fun here => ⟨here ▸ elsewhere, here⟩⟩
  rw [same]
  exact clean

/-- The name does not fall apart at its commas into the keyword and something else. -/
def Whole (name : Bytes) : Prop := snoozedKeyword ∈ splitByte 44
    (toLower name) → toLower name = snoozedKeyword

/-- The keyword is neither put on a row without a date nor taken from one with a
date, and no added name holds it between commas. -/
structure KeepsPair (row : Membership) (add clear : List Bytes) : Prop where
  whole : ∀ name ∈ add, Whole name
  dated : row.snoozedUntil.isSome = true → snoozedKeyword ∉ clear.map toLower
  undated : row.snoozedUntil = none → snoozedKeyword ∉ add.map toLower

theorem mem_joined_keywords (names : List Bytes) (keyword : Bytes) (nonempty : keyword ≠ []) :
    keyword ∈ splitKeywords (joinKeywords names) ↔ ∃ name ∈ names, keyword ∈ splitByte 44 name := by
  have parted (csv : Bytes) : keyword ∈ splitKeywords csv ↔ keyword ∈ splitByte 44 csv := by
    rw [splitKeywords]
    split
    case isTrue empty => simp [empty, splitByte, splitN, nonempty]
    case isFalse => rfl
  rw [parted]
  induction names with
  | nil => simp [joinKeywords, List.intercalate, splitByte, splitN, nonempty]
  | cons first rest ih =>
    cases rest with
    | nil => simp [joinKeywords, List.intercalate]
    | cons next rest =>
      have joined : joinKeywords (first :: next :: rest) = first ++ 44 ::
        joinKeywords (next :: rest) := by
        rw [joinKeywords, List.intercalate_cons_cons, List.append_assoc]
        rfl
      rw [joined, split_byte_joined, List.mem_append, List.exists_mem_cons_iff]
      exact or_congr_right ih

/-- Names that do not fall apart join to a text with the keyword just when it is one
of them. -/
theorem snoozed_joined {names : List Bytes}
    (whole : ∀ name ∈ names, snoozedKeyword ∈ splitByte 44 name → name = snoozedKeyword) :
    snoozedKeyword ∈ splitKeywords (joinKeywords names) ↔ snoozedKeyword ∈ names := by
  rw [mem_joined_keywords names snoozedKeyword (by decide)]
  constructor
  · rintro ⟨name, listed, part⟩
    rwa [← whole name listed part]
  · intro listed
    refine ⟨snoozedKeyword, listed, ?_⟩
    rw [split_byte_whole 44 snoozedKeyword (by decide)]
    exact List.mem_singleton_self snoozedKeyword

theorem whole_of_free {name : Bytes} (free : 44 ∉ name) (part : snoozedKeyword ∈ splitByte 44 name) :
    name = snoozedKeyword := by
  rw [split_byte_whole 44 name free, List.mem_singleton] at part
  exact part.symm

theorem kept_pair {row : Membership} {add clear : List Bytes} (paired : PairedRow row)
    (keeps : KeepsPair row add clear) :
    row.snoozedUntil.isSome = true ↔ snoozedKeyword ∈ splitKeywords
      (joinKeywords (MailStore.newKeywords (splitKeywords row.keywordsCSV) add clear)) := by
  have whole : ∀ keyword ∈ MailStore.newKeywords (splitKeywords row.keywordsCSV) add clear,
      snoozedKeyword ∈ splitByte 44 keyword → keyword = snoozedKeyword := by
    intro keyword member
    rcases (mem_new_keywords _ add clear keyword).mp member with ⟨old | added, _⟩
    · exact whole_of_free (split_keywords_free _ keyword old)
    · obtain ⟨name, listed, rfl⟩ := List.mem_map.mp added
      exact keeps.whole name listed
  have before : row.snoozedUntil.isSome = true ↔
    snoozedKeyword ∈ splitKeywords row.keywordsCSV := paired
  rw [snoozed_joined whole, mem_new_keywords, ← before]
  cases date : row.snoozedUntil with
  | none =>
    have absent := keeps.undated date
    simp only [Option.isSome_none, Bool.false_eq_true, false_or, false_iff]
    exact fun added => absent added.1
  | some until_ =>
    have stays := keeps.dated (by rw [date]; rfl)
    simpa using fun name listed => fun same => stays (List.mem_map.mpr ⟨name, listed, same⟩)

def flaggedRow (add clear : MessageFlags) (keywordAdd keywordClear : List Bytes) (modSeq : Nat)
    (row : Membership) : Membership :=
  { row with
    flags := (row.flags ||| add) &&& ~~~clear
    keywordsCSV := joinKeywords
      (MailStore.newKeywords (splitKeywords row.keywordsCSV) keywordAdd keywordClear)
    modSeq }

theorem flagged_row_good {tables : Tables} {row : Membership} {keywordAdd keywordClear : List Bytes}
    (add clear : MessageFlags) (modSeq : Nat) (good : GoodRow tables row)
    (keeps : KeepsPair row keywordAdd keywordClear) :
    GoodRow tables (flaggedRow add clear keywordAdd keywordClear modSeq row) where
  paired := by
    have pair := kept_pair good.paired keeps
    unfold PairedRow flaggedRow
    dsimp only
    exact pair
  clean := by
    unfold flaggedRow
    dsimp only
    exact good.clean

theorem update_flags_paired {add clear : MessageFlags} {keywordAdd keywordClear : List Bytes}
    {unchangedSince : Nat}
    (paired : Paired tables)
    (keeps : ∀ held, tables.membership? message mailbox = some held →
      (unchangedSince = 0 ∨ held.modSeq ≤ unchangedSince) →
        ∀ row ∈ tables.members, row.messageID = message → row.mailboxID = mailbox →
          KeepsPair row keywordAdd keywordClear)
    (ran : tables.updateMessageFlags message mailbox add clear keywordAdd keywordClear unchangedSince =
      .ok after) : Paired after := by
  obtain ⟨held, found, later⟩ := bind_ok ran
  obtain ⟨_, unchanged, later⟩ := bind_ok later
  obtain ⟨box, _, ended⟩ := bind_ok later
  cases ended
  have current : unchangedSince = 0 ∨ held.modSeq ≤ unchangedSince := by
    by_contra stale
    rw [not_or, Nat.not_le] at stale
    rw [if_pos stale] at unchanged
    cases unchanged
  replace keeps := keeps held (require_ok found) current
  have written : Carries tables (tables.updateMember message mailbox
      (flaggedRow add clear keywordAdd keywordClear (box.highestModSeq + 1))) :=
    carries_update tables message mailbox _ fun row member here place =>
      Or.inr (flagged_row_good add clear _ (paired row member) (keeps row member here place))
  exact carries_paired (carries_logged (carries_trans written
    (set_highest_carries _ mailbox (box.highestModSeq + 1))) _ _ _ _) paired

end

end Tables

end Herold.Store

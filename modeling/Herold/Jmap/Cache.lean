import Herold.Jmap.Changes
import Herold.Store.Footprint
import Herold.Store.Quota

/-!
# The cache of a client

A client that follows Email/changes holds the right messages when the feed says of
each message when it came, that it changed, and when it went. The transactions
write one row for each membership, so the feed does so under conditions only; this
module gives them and follows the feed through every run that meets them.
-/

namespace Herold.Jmap

open Herold.Go Herold.Store Herold.Machine Herold.Store.Tables

def Has (owner : PrincipalID) (tables : Tables) (id : MessageID) : Prop :=
  ∃ row ∈ tables.messages, row.id = id ∧ row.principalID = owner

/-- What `mailboxIds` and `keywords` are made of. -/
def emailProperties (tables : Tables) (id : MessageID) : List (MailboxID × MessageFlags × Bytes) :=
  (rowsOf tables id).map fun row => (row.mailboxID, row.flags, row.keywordsCSV)

def newsOf (owner : PrincipalID) (entries : List FeedRow) : List StateChange :=
  emails ((entries.filter fun row => row.cause = .user ∧ row.change.principalID = owner).map
    FeedRow.change)

section

variable {owner : PrincipalID} {tables : Tables}

theorem mentions_news {entries : List FeedRow} {id : MessageID} {op : ChangeOp} :
    Mentions (newsOf owner entries) id op ↔ ∃ entry ∈ entries, entry.cause = .user ∧
      entry.change.principalID = owner ∧ entry.change.kind = .email ∧ entry.change.entityID = id ∧
        entry.change.op = op := by
  simp only [Mentions, newsOf, emails, List.mem_filter, List.mem_map, decide_eq_true_eq]
  constructor
  · rintro ⟨change, ⟨⟨entry, ⟨member, cause, principal⟩, rfl⟩, kind⟩, here, stated⟩
    exact ⟨entry, member, cause, principal, kind, here, stated⟩
  · rintro ⟨entry, member, cause, principal, kind, here, stated⟩
    exact ⟨entry.change, ⟨⟨entry, ⟨member, cause, principal⟩, rfl⟩, kind⟩, here, stated⟩

theorem news_append (owner : PrincipalID) (first second : List FeedRow) :
    newsOf owner (first ++ second) = newsOf owner first ++ newsOf owner second := by
  simp [newsOf, emails]

/-- What the feed says of a stretch of a run. The labels are the messages that were
filed in one more mailbox in the meantime. -/
structure Window (owner : PrincipalID) (labels labels' : List MessageID) (before after : Tables)
    (news : List StateChange) : Prop where
  alive : ∀ id, Has owner after id → ¬Mentions news id .destroyed
  dies : ∀ id, Has owner before id → ¬Has owner after id →
    id ∉ labels ∧ Mentions news id .destroyed ∧ ¬Mentions news id .created
  born : ∀ id, ¬Has owner before id → Has owner after id →
    before.nextMessageID ≤ id ∧ Mentions news id .created
  changed : ∀ id, Has owner before id → Has owner after id →
    emailProperties before id ≠ emailProperties after id → ∃ op, Mentions news id op
  relabelled : ∀ id, Has owner before id → Mentions news id .created → id ∈ labels'
  fresh : ∀ id, ¬Has owner before id → Mentions news id .created → before.nextMessageID ≤ id
  known : ∀ id op, op ≠ .updated → Mentions news id op → id < after.nextMessageID

structure Told (owner : PrincipalID) (labels labels' : List MessageID)
    (before after : Tables) : Prop where
  next : before.nextMessageID ≤ after.nextMessageID
  grows : ∀ id ∈ labels, id ∈ labels'
  window : ∃ entries, after.changes = logged before.changes entries ∧
    Window owner labels labels' before after (newsOf owner entries)

structure Known (tables : Tables) : Prop where
  ids : tables.messages.Pairwise fun left right => left.id ≠ right.id
  messages : ∀ row ∈ tables.messages, row.id < tables.nextMessageID
  members : ∀ filing ∈ tables.members, filing.messageID < tables.nextMessageID

theorem has_known (known : Known tables) {id : MessageID}
    (has : Has owner tables id) : id < tables.nextMessageID := by
  obtain ⟨row, member, rfl, _⟩ := has
  exact known.messages row member

theorem same_message (known : Known tables) {left right : MessageRow}
    (leftMember : left ∈ tables.messages) (rightMember : right ∈ tables.messages)
    (same : left.id = right.id) :
    left = right :=
  List.inj_on_of_nodup_map (List.pairwise_map.mpr known.ids) leftMember rightMember same

theorem told_trans {labels labels' labels'' : List MessageID}
    {first second third : Tables} (known : Known first)
    (earlier : Told owner labels labels' first second)
    (later : Told owner labels' labels'' second third) :
    Told owner labels labels'' first third := by
  obtain ⟨entries, changes, window⟩ := earlier.window
  obtain ⟨more, changes', window'⟩ := later.window
  refine ⟨Nat.le_trans earlier.next later.next, fun id member =>
    later.grows id (earlier.grows id member),
    entries ++ more, by rw [changes', changes, logged_append], ?_⟩
  rw [news_append]
  -- a message of the account never comes back, since its identifier is given out once
  have stays : ∀ id, Has owner first id → Has owner third id → Has owner second id := by
    intro id here there
    by_contra away
    have below := has_known known here
    have above := (window'.born id away there).1
    exact Nat.not_lt_of_le (Nat.le_trans earlier.next above) below
  refine ⟨?_, ?_, ?_, ?_, ?_, ?_, ?_⟩
  · intro id there stated
    rcases mentions_append.mp stated with early | late
    · by_cases middle : Has owner second id
      · exact window.alive id middle early
      · have below := window.known id .destroyed (by decide) early
        have above := (window'.born id middle there).1
        exact Nat.not_lt_of_le above below
    · exact window'.alive id there late
  · intro id here gone
    by_cases middle : Has owner second id
    · obtain ⟨unlabelled, destroyed, uncreated⟩ := window'.dies id middle gone
      refine ⟨fun listed => unlabelled (earlier.grows id listed),
        mentions_append.mpr (Or.inr destroyed), ?_⟩
      rw [mentions_append, not_or]
      exact ⟨fun stated => unlabelled (window.relabelled id here stated), uncreated⟩
    · obtain ⟨unlabelled, destroyed, uncreated⟩ := window.dies id here middle
      refine ⟨unlabelled, mentions_append.mpr (Or.inl destroyed), ?_⟩
      rw [mentions_append, not_or]
      refine ⟨uncreated, fun stated => ?_⟩
      have below := has_known known here
      have above := window'.fresh id middle stated
      exact Nat.not_lt_of_le (Nat.le_trans earlier.next above) below
  · intro id absent there
    by_cases middle : Has owner second id
    · obtain ⟨above, created⟩ := window.born id absent middle
      exact ⟨above, mentions_append.mpr (Or.inl created)⟩
    · obtain ⟨above, created⟩ := window'.born id middle there
      exact ⟨Nat.le_trans earlier.next above, mentions_append.mpr (Or.inr created)⟩
  · intro id here there differ
    have middle := stays id here there
    by_cases same : emailProperties first id = emailProperties second id
    · obtain ⟨op, stated⟩ := window'.changed id middle there (fun equal => differ (same.trans equal))
      exact ⟨op, mentions_append.mpr (Or.inr stated)⟩
    · obtain ⟨op, stated⟩ := window.changed id here middle same
      exact ⟨op, mentions_append.mpr (Or.inl stated)⟩
  · intro id here stated
    rcases mentions_append.mp stated with early | late
    · exact later.grows id (window.relabelled id here early)
    · by_cases middle : Has owner second id
      · exact window'.relabelled id middle late
      · have below := has_known known here
        have above := window'.fresh id middle late
        exact absurd below (Nat.not_lt_of_le (Nat.le_trans earlier.next above))
  · intro id absent stated
    rcases mentions_append.mp stated with early | late
    · exact window.fresh id absent early
    · by_cases middle : Has owner second id
      · exact (window.born id absent middle).1
      · exact Nat.le_trans earlier.next (window'.fresh id middle late)
  · intro id op other stated
    rcases mentions_append.mp stated with early | late
    · exact Nat.lt_of_lt_of_le (window.known id op other early) later.next
    · exact window'.known id op other late

theorem told_footprint {labels labels' : List MessageID} {message : MessageID}
    {before after : Tables} {entries : List FeedRow}
    (footprint : Footprint message before after entries)
    (grows : ∀ id ∈ labels, id ∈ labels') (known : message < before.nextMessageID)
    (about : ∀ entry ∈ entries, entry.change.kind = .email → entry.change.op ≠ .updated →
      entry.change.entityID = message)
    (alive : Has owner after message → Has owner before message ∧
      ¬Mentions (newsOf owner entries) message .destroyed ∧
      ∃ op, Mentions (newsOf owner entries) message op)
    (dies : Has owner before message → ¬Has owner after message → message ∉ labels ∧
      Mentions (newsOf owner entries) message .destroyed ∧
      ¬Mentions (newsOf owner entries) message .created)
    (created : Mentions (newsOf owner entries) message .created →
      Has owner before message ∧ message ∈ labels') :
    Told owner labels labels' before after := by
  have others : ∀ id, id ≠ message → (Has owner after id ↔ Has owner before id) := by
    intro id differ
    constructor
    · rintro ⟨row, member, rfl, principal⟩
      exact ⟨row, (footprint.messages row differ).mp member, rfl, principal⟩
    · rintro ⟨row, member, rfl, principal⟩
      exact ⟨row, (footprint.messages row differ).mpr member, rfl, principal⟩
  have only : ∀ id op, op ≠ .updated → Mentions (newsOf owner entries) id op → id = message := by
    intro id op other stated
    obtain ⟨entry, member, _, _, kind, here, is⟩ := mentions_news.mp stated
    rw [← here]
    exact about entry member kind (by rw [is]; exact other)
  have same : after.nextMessageID = before.nextMessageID := footprint.nextMessageID
  refine ⟨Nat.le_of_eq same.symm, grows, entries, footprint.changes, ?_⟩
  refine ⟨?_, ?_, ?_, ?_, ?_, ?_, ?_⟩
  · intro id has stated
    obtain rfl := only id .destroyed (by decide) stated
    exact (alive has).2.1 stated
  · intro id has gone
    by_cases here : id = message
    · subst here
      exact dies has gone
    · exact absurd ((others id here).mpr has) gone
  · intro id absent has
    by_cases here : id = message
    · subst here
      exact absurd (alive has).1 absent
    · exact absurd ((others id here).mp has) absent
  · intro id _ has differ
    by_cases here : id = message
    · subst here
      exact (alive has).2.2
    · refine absurd ?_ differ
      unfold emailProperties
      rw [footprint.members id here]
  · intro id has stated
    obtain rfl := only id .created (by decide) stated
    exact (created stated).2
  · intro id absent stated
    obtain rfl := only id .created (by decide) stated
    exact absurd (created stated).1 absent
  · intro id op other stated
    obtain rfl := only id op other stated
    rw [same]
    exact known

theorem told_refl {labels labels' : List MessageID} (tables : Tables)
    (grows : ∀ id ∈ labels, id ∈ labels') : Told owner labels labels' tables tables := by
  have silent : ∀ id op, ¬Mentions (newsOf owner []) id op := by
    rintro id op ⟨entry, member, _⟩
    cases member
  exact ⟨Nat.le_refl _, grows, [], rfl, fun id _ => silent id _, fun id has gone => absurd has gone,
    fun id absent has => absurd has absent, fun id _ _ differ => absurd rfl differ,
    fun id _ stated => absurd stated (silent id _), fun id _ stated => absurd stated (silent id _),
    fun id op _ stated => absurd stated (silent id op)⟩

theorem told_update {labels : List MessageID} {message : MessageID}
    {before after : Tables} {principal : PrincipalID} {mailbox : MailboxID}
    (footprint : Footprint message before after
      [entryOf principal .email message mailbox .updated .user])
    (known : message < before.nextMessageID) (messages : after.messages = before.messages)
    (own : Has owner before message → principal = owner) : Told owner labels labels before after := by
  have same : Has owner after message ↔ Has owner before message := by
    unfold Has
    rw [messages]
  have silent : ∀ op, op ≠ .updated →
      ¬Mentions (newsOf owner [entryOf principal .email message mailbox .updated .user])
        message op := by
    intro op other stated
    obtain ⟨entry, member, _, _, _, _, is⟩ := mentions_news.mp stated
    rw [List.mem_singleton.mp member] at is
    exact other is.symm
  refine told_footprint footprint (fun _ member => member) known ?_ ?_ ?_ ?_
  · intro entry member _ other
    rw [List.mem_singleton.mp member] at other
    exact absurd rfl other
  · intro has
    refine ⟨same.mp has, silent _ (by decide), .updated, mentions_news.mpr ?_⟩
    exact ⟨_, List.mem_singleton_self _, rfl, own (same.mp has), rfl, rfl, rfl⟩
  · intro has gone
    exact absurd (same.mpr has) gone
  · intro stated
    exact absurd stated (silent _ (by decide))

def Homed (owner : PrincipalID) (tables : Tables) : Prop :=
  ∀ row ∈ tables.messages, row.principalID = owner →
    ∃ filing ∈ tables.members, filing.messageID = row.id ∧
    ∃ box ∈ tables.mailboxes, box.id = filing.mailboxID ∧ box.principalID = owner

theorem mem_rows_of {filing : Membership} {message : MessageID} :
    filing ∈ rowsOf tables message ↔ filing ∈ tables.members ∧ filing.messageID = message := by
  simp [rowsOf]

theorem known_footprint {message : MessageID} {before after : Tables} {entries : List FeedRow}
    (footprint : Footprint message before after entries) (here : message < before.nextMessageID)
    (known : Known before) : Known after := by
  refine ⟨known.ids.sublist footprint.fewer, ?_, ?_⟩
  · intro row member
    rw [footprint.nextMessageID]
    by_cases same : row.id = message
    · rw [same]
      exact here
    · exact known.messages row ((footprint.messages row same).mp member)
  · intro filing member
    rw [footprint.nextMessageID]
    by_cases same : filing.messageID = message
    · rw [same]
      exact here
    · have listed : filing ∈ rowsOf after filing.messageID := mem_rows_of.mpr ⟨member, rfl⟩
      rw [footprint.members _ same] at listed
      exact known.members filing (mem_rows_of.mp listed).1

theorem homed_footprint {message : MessageID} {before after : Tables}
    {entries : List FeedRow} (footprint : Footprint message before after entries)
    (homed : Homed owner before)
    (home : ∀ row ∈ after.messages, row.id = message → row.principalID = owner →
      ∃ filing ∈ after.members, filing.messageID = message ∧
        ∃ box ∈ before.mailboxes, box.id = filing.mailboxID ∧ box.principalID = owner) :
    Homed owner after := by
  have moved : ∀ filing : Membership, (∃ box ∈ before.mailboxes, box.id = filing.mailboxID ∧
      box.principalID = owner) → ∃ box ∈ after.mailboxes, box.id = filing.mailboxID ∧
        box.principalID = owner := by
    rintro filing ⟨box, member, place, own⟩
    obtain ⟨new, newMember, same, sameOwner, _⟩ := forall_across_left footprint.mailboxes member
    exact ⟨new, newMember, same.trans place, sameOwner.trans own⟩
  intro row member own
  by_cases here : row.id = message
  · obtain ⟨filing, filed, same, box⟩ := home row member here own
    exact ⟨filing, filed, same.trans here.symm, moved filing box⟩
  · obtain ⟨filing, filed, same, box⟩ := homed row ((footprint.messages row here).mp member) own
    have listed : filing ∈ rowsOf before row.id := mem_rows_of.mpr ⟨filed, same⟩
    rw [← footprint.members _ here] at listed
    obtain ⟨still, _⟩ := mem_rows_of.mp listed
    exact ⟨filing, still, same, moved filing box⟩

end

section

variable {message : MessageID} {tables after : Tables}

section

variable {message : MessageID} {mailbox : MailboxID}

theorem update_flags_footprint {set clear : MessageFlags} {keywordAdd keywordClear : List Bytes}
    {unchangedSince : Nat}
    (ran : tables.updateMessageFlags message mailbox set clear keywordAdd keywordClear unchangedSince =
      .ok after) :
    ∃ row box, tables.membership? message mailbox = some row ∧ tables.mailbox? mailbox = some box ∧
      Footprint message tables after [entryOf box.principalID .email message mailbox .updated .user] ∧
      after.messages = tables.messages ∧
      ∀ filing ∈ tables.members, ∃ new ∈ after.members, new.messageID = filing.messageID ∧
        new.mailboxID = filing.mailboxID := by
  obtain ⟨row, present, later⟩ := bind_ok ran
  obtain ⟨_, _, later⟩ := bind_ok later
  obtain ⟨box, housed, ended⟩ := bind_ok later
  cases ended
  refine ⟨row, box, require_ok present, require_ok housed, ?_, rfl, ?_⟩
  · refine footprint_tells ?_ _ _ _ _ _ _
    refine footprint_silent ?_ (footprint_highest _ mailbox _)
    exact footprint_update tables mailbox _ fun _ => rfl
  · intro filing member
    refine ⟨_, List.mem_map_of_mem member, ?_⟩
    split
    · exact ⟨rfl, rfl⟩
    · exact ⟨rfl, rfl⟩

theorem replay_all_keeps {mailboxes : List MailboxID} {tables after : Tables}
    (ran : replayAll message mailboxes tables = .ok after) :
    after.messages = tables.messages ∧ ∀ filing ∈ tables.members, filing ∈ after.members := by
  induction mailboxes generalizing tables with
  | nil =>
    cases ran
    exact ⟨rfl, fun _ member => member⟩
  | cons mailbox mailboxes ih =>
    obtain ⟨middle, first, later⟩ := bind_ok ran
    have one : middle.messages = tables.messages ∧
      ∀ filing ∈ tables.members, filing ∈ middle.members := by
      unfold replayInto at first
      split at first
      · cases first
        exact ⟨rfl, fun _ member => member⟩
      · split at first
        · cases first
          exact ⟨rfl, fun _ member => member⟩
        · obtain ⟨filed, inserted, ended⟩ := bind_ok first
          cases ended
          obtain ⟨rfl, _⟩ := insert_member_ok inserted
          exact ⟨rfl, fun _ member => List.mem_append_left _ member⟩
    obtain ⟨messages, rest⟩ := ih later
    exact ⟨messages.trans one.1, fun filing member => rest filing (one.2 filing member)⟩

theorem restored_keeps {left restored : Tables} {trash : Bool}
    (ran : (if trash then left.replayPretrash message else .ok left) = .ok restored) :
    restored.messages = left.messages ∧ ∀ filing ∈ left.members, filing ∈ restored.members := by
  cases trash with
  | true =>
    obtain ⟨replayed, first, ended⟩ :=
      bind_ok (show left.replayPretrash message = .ok restored from ran)
    cases ended
    have kept := replay_all_keeps first
    exact ⟨kept.1, kept.2⟩
  | false =>
    cases ran
    exact ⟨rfl, fun _ member => member⟩

theorem move_footprint {source target : MailboxID}
    (ran : tables.moveMessage message source target = .ok after) :
    ∃ row box, tables.membership? message source = some row ∧ tables.mailbox? target = some box ∧
      Footprint message tables after [entryOf box.principalID .email message target .updated .user] ∧
      after.messages = tables.messages ∧
      ∃ filing ∈ after.members, filing.messageID = message ∧ filing.mailboxID = target := by
  obtain ⟨row, present, later⟩ := bind_ok ran
  obtain ⟨box, housed, later⟩ := bind_ok later
  obtain ⟨filed, inserted, later⟩ := bind_ok later
  obtain ⟨left, deleted, later⟩ := bind_ok later
  obtain ⟨restored, replayed, ended⟩ := bind_ok later
  cases ended
  obtain ⟨rowMember, rowMessage, rowPlace⟩ := membership_found (require_ok present)
  generalize movedIs : (if box.trash then
    { row with
      snoozedUntil := none, wakeMailboxID := none
      keywordsCSV := joinKeywords ((splitKeywords row.keywordsCSV).filter fun keyword =>
        keyword ≠ [] ∧ keyword ≠ snoozedKeyword) }
    else row : Membership) = moved at inserted
  have movedMessage : moved.messageID = message := by
    rw [← movedIs, ← rowMessage]
    split
    · rfl
    · rfl
  have leftIs : left = filed.deleteMember message source := (Except.ok.inj deleted).symm
  obtain ⟨filedIs, free⟩ := insert_member_ok inserted
  have snappedRows : (if box.trash then tables.snapshotPretrash message target else tables).members =
      tables.members ∧ (if box.trash then tables.snapshotPretrash message target else tables).messages =
        tables.messages := by
    split
    · exact ⟨rfl, rfl⟩
    · exact ⟨rfl, rfl⟩
  have differ : target ≠ source := by
    intro same
    refine (free row ?_ (rowPlace.trans same.symm)).1 (rowMessage.trans movedMessage.symm)
    rw [snappedRows.1]
    exact rowMember
  obtain ⟨restoredMessages, restoredRows⟩ := restored_keeps replayed
  refine ⟨row, box, require_ok present, require_ok housed, ?_, ?_, ?_⟩
  · refine footprint_tells ?_ _ _ _ _ _ _
    refine footprint_silent ?_ (footprint_bump _ source)
    refine footprint_silent ?_ (footprint_advance restored target _)
    refine footprint_silent ?_ (footprint_restored replayed)
    rw [leftIs]
    refine footprint_silent ?_ (footprint_delete filed source)
    exact footprint_silent (footprint_snapped tables target box.trash)
      (footprint_insert (by exact movedMessage) inserted)
  · show restored.messages = _
    rw [restoredMessages, leftIs, filedIs]
    exact snappedRows.2
  · have placed : ∃ filing ∈ left.members, filing.messageID = message ∧ filing.mailboxID = target := by
      rw [leftIs, filedIs]
      refine ⟨_, List.mem_filter.mpr ⟨List.mem_append_right _ (List.mem_singleton_self _), ?_⟩,
        movedMessage, rfl⟩
      simpa using Or.inr differ
    obtain ⟨filing, member, here, place⟩ := placed
    exact ⟨filing, restoredRows filing member, here, place⟩

theorem leave_trash_footprint {principal : PrincipalID} {message : MessageID} {trash : List MailboxID}
    {tables after : Tables} (ran : leaveTrash principal message trash tables = .ok after) :
    after.messages = tables.messages ∧ ∃ entries, Footprint message tables after entries ∧
      ∀ entry ∈ entries, entry.change.entityID = message ∧ entry.change.op ≠ .created := by
  induction trash generalizing tables with
  | nil =>
    cases ran
    exact ⟨rfl, [], footprint_refl _, fun _ member => by cases member⟩
  | cons place trash ih =>
    obtain ⟨middle, first, later⟩ := bind_ok ran
    obtain ⟨messages, more, rest, others⟩ := ih later
    obtain ⟨entries, deleted, told⟩ := footprint_delete_membership first
    have kept := (delete_membership_handed first).messages
    refine ⟨messages.trans kept, _, footprint_trans deleted (footprint_trans
      (footprint_tells (footprint_bump middle place) principal .email message place .destroyed
        .user) rest),
        ?_⟩
    intro entry member
    rcases List.mem_append.mp member with hand | tail
    · obtain ⟨_, _, entity, op, _⟩ := told entry hand
      exact ⟨entity, by rw [op]; decide⟩
    · rcases List.mem_append.mp tail with here | late
      · rw [List.mem_singleton.mp here]
        exact ⟨rfl, fun same => by cases same⟩
      · exact others entry late

/-- A message that stays out of the trash gets one more row; any other message of
another account gets rows of which none says that it was created in this account. -/
theorem add_footprint (ran : tables.addMessageToMailbox message mailbox = .ok after) :
    ∃ row entries, tables.message? message = some row ∧ after.messages = tables.messages ∧
      Footprint message tables after (entryOf row.principalID .email message mailbox .created
        .user :: entries) ∧
      (∀ entry ∈ entries, entry.change.entityID = message ∧ entry.change.op ≠ .created) ∧
      ((tables.isTrash mailbox = true ∨ ∀ filing ∈ tables.members, filing.messageID = message →
          tables.isTrash filing.mailboxID = false) →
        entries = [] ∧ ∀ filing ∈ tables.members, filing ∈ after.members) := by
  obtain ⟨row, present, later⟩ := bind_ok ran
  obtain ⟨_, _, later⟩ := bind_ok later
  obtain ⟨box, housed, later⟩ := bind_ok later
  obtain ⟨filed, inserted, ended⟩ := bind_ok later
  obtain ⟨filedIs, _⟩ := insert_member_ok inserted
  have found := require_ok housed
  have snappedRows : (if box.trash then tables.snapshotPretrash message mailbox else tables).members =
      tables.members ∧ (if box.trash then tables.snapshotPretrash message mailbox
        else tables).messages =
        tables.messages ∧ (if box.trash then tables.snapshotPretrash message mailbox
          else tables).mailboxes =
          tables.mailboxes := by
    split
    · exact ⟨rfl, rfl, rfl⟩
    · exact ⟨rfl, rfl, rfl⟩
  have filing : Footprint message tables
    ((filed.advance mailbox (box.highestModSeq + 1)).appendEmailChange
      row.principalID message mailbox .created)
        [entryOf row.principalID .email message mailbox .created .user] := by
    refine footprint_tells ?_ _ _ _ _ _ _
    refine footprint_silent ?_ (footprint_advance filed mailbox _)
    exact footprint_silent (footprint_snapped tables mailbox box.trash) (footprint_insert rfl inserted)
  have messages : filed.messages = tables.messages := by
    rw [filedIs]
    exact snappedRows.2.1
  have members : ∀ filing ∈ tables.members, filing ∈ filed.members := by
    intro filing member
    rw [filedIs]
    exact List.mem_append_left _ (snappedRows.1.symm ▸ member)
  cases trash : box.trash with
  | true =>
    simp only [trash, if_true] at ended
    cases ended
    exact ⟨row, [], require_ok present, messages, filing, fun _ member => (by cases member),
      fun _ => ⟨rfl, members⟩⟩
  | false =>
    simp only [trash, Bool.false_eq_true, if_false] at ended
    unfold removeTrashAndReplay at ended
    dsimp only at ended
    split at ended
    · cases ended
      exact ⟨row, [], require_ok present, messages, filing, fun _ member => (by cases member),
        fun _ => ⟨rfl, members⟩⟩
    · rename_i some_
      obtain ⟨left, first, replayed⟩ := bind_ok ended
      obtain ⟨kept, entries, leaves, others⟩ := leave_trash_footprint first
      obtain ⟨restored, restoring, restoredIs⟩ := bind_ok replayed
      cases restoredIs
      refine ⟨row, entries, require_ok present,
        (replay_all_keeps restoring).1.trans (kept.trans messages), ?_,
        others, ?_⟩
      · have whole := footprint_trans (footprint_trans filing leaves) (footprint_replay replayed)
        rw [List.append_nil] at whole
        exact whole
      · intro clean
        refine absurd (List.map_eq_nil_iff.mpr (List.filter_eq_nil_iff.mpr ?_)) some_
        intro old member listed
        obtain ⟨here, away, inTrash⟩ := of_decide_eq_true listed
        have was : tables.isTrash old.mailboxID = true := by
          rw [← trash_alike filing.mailboxes]
          exact inTrash
        have oldMember : old ∈ tables.members := by
          have inFiled : old ∈ filed.members := member
          rw [filedIs] at inFiled
          rcases List.mem_append.mp inFiled with before | new
          · exact snappedRows.1 ▸ before
          · rw [List.mem_singleton.mp new] at away
            exact absurd rfl away
        rcases clean with trashed | free
        · unfold isTrash at trashed
          rw [found] at trashed
          simp [trash] at trashed
        · rw [free old oldMember here] at was
          cases was

theorem unfiled_after {handOver : Bool}
    (ran : tables.deleteMembership message mailbox handOver = .ok after)
    (only : ∀ filing ∈ tables.members, filing.messageID = message → filing.mailboxID = mailbox) :
    ∀ filing ∈ after.members, filing.messageID ≠ message := by
  intro filing member here
  obtain ⟨old, oldMember, reminded⟩ := forall_across (delete_membership_handed ran).members member
  obtain ⟨sameMessage, _, _⟩ := reminded_key reminded
  obtain ⟨oldRow, away⟩ := List.mem_filter.mp oldMember
  have there := sameMessage.symm.trans here
  simp [there, only old oldRow there] at away

theorem replay_nothing {mailboxes : List MailboxID} {tables : Tables}
    (gone : ∀ mailbox ∈ mailboxes, tables.mailbox? mailbox = none) :
    replayAll message mailboxes tables = .ok tables := by
  induction mailboxes with
  | nil => rfl
  | cons mailbox mailboxes ih =>
    have skipped : tables.replayInto message mailbox = .ok tables := by
      unfold replayInto
      rw [gone mailbox List.mem_cons_self]
    unfold replayAll
    rw [skipped]
    exact ih fun other member => gone other (List.mem_cons_of_mem _ member)

theorem released_unfiled {tables : Tables} {message : MessageID} {charged : PrincipalID}
    (unfiled : ∀ filing ∈ tables.members, filing.messageID ≠ message) :
    ∀ row ∈ (tables.releaseIfUnfiled message charged).messages, row.id ≠ message := by
  have none : ¬(tables.members.any fun row => decide (row.messageID = message)) = true := by
    simpa using unfiled
  unfold releaseIfUnfiled
  rw [if_neg none]
  dsimp only
  split
  · intro row member
    simpa using (List.mem_filter.mp member).2
  · intro row member
    simpa using (List.mem_filter.mp member).2

theorem remove_footprint (ran : tables.removeMessageFromMailbox message mailbox = .ok after) :
    ∃ row entries, tables.message? message = some row ∧
      Footprint message tables after
        (entries ++ [entryOf row.principalID .email message mailbox .destroyed .user]) ∧
      (∀ entry ∈ entries, entry.change.op = .updated) ∧
      (∀ row ∈ after.messages, row ∈ tables.messages) ∧
      ((∀ filing ∈ tables.members, filing.messageID = message → filing.mailboxID = mailbox) →
        (tables.isTrash mailbox = true →
          ∀ place ∈ tables.snapshotOf message, tables.mailbox? place = none) →
          ∀ row ∈ after.messages, row.id ≠ message) := by
  obtain ⟨_, _, later⟩ := bind_ok ran
  obtain ⟨row, present, later⟩ := bind_ok later
  obtain ⟨left, deleted, later⟩ := bind_ok later
  obtain ⟨restored, replayed, later⟩ := bind_ok later
  obtain ⟨charged, _, ended⟩ := bind_ok later
  cases ended
  obtain ⟨entries, deletes, told⟩ := footprint_delete_membership deleted
  have handed := delete_membership_handed deleted
  obtain ⟨kept, _, _⟩ := release_rows (restored.bumpHighest mailbox) message charged
  refine ⟨row, entries, require_ok present, ?_, fun entry member => (told entry member).2.2.2.1, ?_, ?_⟩
  · refine footprint_trans deletes ?_
    refine footprint_tells ?_ _ _ _ _ _ _
    refine footprint_silent ?_ (footprint_release _ charged)
    exact footprint_silent (footprint_restored replayed) (footprint_bump restored mailbox)
  · intro other member
    have before : other ∈ restored.messages := kept other member
    rw [(restored_keeps replayed).1, handed.messages] at before
    exact before
  · intro only gone
    have same : restored.members = left.members := by
      cases trash : tables.isTrash mailbox with
      | false =>
        rw [trash] at replayed
        exact congrArg Tables.members (Except.ok.inj replayed).symm
      | true =>
        rw [trash] at replayed
        have nothing : replayAll message (left.snapshotOf message) left = .ok left := by
          refine replay_nothing fun place member => ?_
          have listed : place ∈ tables.snapshotOf message := by
            unfold snapshotOf at member ⊢
            rw [handed.pretrash] at member
            exact member
          have alike := found_alike deletes.mailboxes place
          rw [gone trash place listed] at alike
          exact Option.map_eq_none_iff.mp alike
        obtain ⟨after', first, restoredIs⟩ :=
          bind_ok (show left.replayPretrash message = .ok restored from replayed)
        rw [nothing] at first
        cases first
        cases restoredIs
        rfl
    refine released_unfiled ?_
    intro filing member
    have inLeft : filing ∈ left.members := same ▸ member
    exact unfiled_after deleted only filing inLeft

end

end

structure Follows (owner : PrincipalID) (labels labels' : List MessageID)
    (before after : Tables) : Prop where
  told : Told owner labels labels' before after
  known : Known after
  homed : Homed owner after

section Follow

variable {owner : PrincipalID} {labels labels' : List MessageID} {before after : Tables}
    {message : MessageID}

theorem follows_foreign {entries : List FeedRow} (footprint : Footprint message before after entries)
    (known : Known before) (homed : Homed owner before) (here : message < before.nextMessageID)
    (grows : ∀ id ∈ labels, id ∈ labels') (absent : ¬Has owner before message)
    (about : ∀ entry ∈ entries, entry.change.kind = .email → entry.change.op ≠ .updated →
      entry.change.entityID = message)
    (uncreated : ∀ entry ∈ entries, entry.change.op = .created → entry.change.principalID ≠ owner) :
    Follows owner labels labels' before after := by
  have still : ¬Has owner after message := by
    rintro ⟨row, member, same, own⟩
    exact absent ⟨row, footprint.fewer.subset member, same, own⟩
  refine ⟨told_footprint footprint grows here about ?_ ?_ ?_, known_footprint footprint here known,
    homed_footprint footprint homed ?_⟩
  · exact fun has => absurd has still
  · exact fun has => absurd has absent
  · intro stated
    obtain ⟨entry, member, _, own, _, _, is⟩ := mentions_news.mp stated
    exact absurd own (uncreated entry member is)
  · intro row member same own
    exact absurd ⟨row, member, same, own⟩ still

theorem follows_death {entries : List FeedRow} {mailbox : MailboxID}
    (footprint : Footprint message before after
      (entries ++ [entryOf owner .email message mailbox .destroyed .user]))
    (known : Known before) (homed : Homed owner before) (here : message < before.nextMessageID)
    (updates : ∀ entry ∈ entries, entry.change.op = .updated) (unlabelled : message ∉ labels)
    (gone : ∀ row ∈ after.messages, row.id ≠ message) : Follows owner labels labels before after := by
  have dead : ¬Has owner after message := by
    rintro ⟨row, member, same, _⟩
    exact gone row member same
  have uncreated : ¬Mentions (newsOf owner
      (entries ++ [entryOf owner .email message mailbox .destroyed .user])) message .created := by
    intro stated
    obtain ⟨entry, member, _, _, _, _, is⟩ := mentions_news.mp stated
    rcases List.mem_append.mp member with early | last
    · rw [updates entry early] at is
      cases is
    · rw [List.mem_singleton.mp last] at is
      cases is
  refine ⟨told_footprint footprint (fun _ member => member) here ?_ ?_ ?_ ?_,
    known_footprint footprint here known, homed_footprint footprint homed ?_⟩
  · intro entry member _ other
    rcases List.mem_append.mp member with early | last
    · exact absurd (updates entry early) other
    · rw [List.mem_singleton.mp last]
      rfl
  · exact fun has => absurd has dead
  · intro _ _
    refine ⟨unlabelled, mentions_news.mpr ?_, uncreated⟩
    exact ⟨_, List.mem_append_right _ (List.mem_singleton_self _), rfl, rfl, rfl, rfl, rfl⟩
  · exact fun stated => absurd stated uncreated
  · exact fun row member same _ => absurd same (gone row member)

theorem follows_update {principal : PrincipalID} {mailbox : MailboxID}
    (footprint : Footprint message before after
      [entryOf principal .email message mailbox .updated .user])
    (known : Known before) (homed : Homed owner before) (here : message < before.nextMessageID)
    (messages : after.messages = before.messages) (own : Has owner before message → principal = owner)
    (home : Has owner before message → ∃ filing ∈ after.members, filing.messageID = message ∧
      ∃ box ∈ before.mailboxes, box.id = filing.mailboxID ∧ box.principalID = owner) :
    Follows owner labels labels before after := by
  refine ⟨told_update footprint here messages own, known_footprint footprint here known,
    homed_footprint footprint homed ?_⟩
  intro row member same mine
  rw [messages] at member
  exact home ⟨row, member, same, mine⟩

theorem follows_add {mailbox : MailboxID} (ran : before.addMessageToMailbox message mailbox = .ok after)
    (known : Known before) (homed : Homed owner before)
    (clean : Has owner before message → before.isTrash mailbox = true ∨
      ∀ filing ∈ before.members, filing.messageID = message → before.isTrash filing.mailboxID = false) :
    Follows owner labels (message :: labels) before after := by
  obtain ⟨row, entries, found, messages, footprint, others, quiet⟩ := add_footprint ran
  obtain ⟨rowMember, rowId⟩ := message_found found
  have here : message < before.nextMessageID := rowId ▸ known.messages row rowMember
  have grows : ∀ id ∈ labels, id ∈ message :: labels := fun id member => List.mem_cons_of_mem _ member
  have about : ∀ entry ∈ entryOf row.principalID .email message mailbox .created .user :: entries,
      entry.change.kind = .email → entry.change.op ≠ .updated → entry.change.entityID = message := by
    intro entry member _ _
    rcases List.mem_cons.mp member with rfl | later
    · rfl
    · exact (others entry later).1
  by_cases has : Has owner before message
  · obtain ⟨rfl, stay⟩ := quiet (clean has)
    have same : Has owner after message ↔ Has owner before message := by
      unfold Has
      rw [messages]
    obtain ⟨mine, mineMember, mineId, own⟩ := has
    have rowOwn : row.principalID = owner := by
      rw [same_message known rowMember mineMember (rowId.trans mineId.symm)]
      exact own
    refine ⟨told_footprint footprint grows here about ?_ ?_ ?_, known_footprint footprint here known,
      homed_footprint footprint homed ?_⟩
    · intro now
      refine ⟨same.mp now, ?_, .created, mentions_news.mpr ?_⟩
      · intro stated
        obtain ⟨entry, member, _, _, _, _, is⟩ := mentions_news.mp stated
        rw [List.mem_singleton.mp member] at is
        cases is
      · exact ⟨_, List.mem_cons_self, rfl, rowOwn, rfl, rfl, rfl⟩
    · exact fun was gone => absurd (same.mpr was) gone
    · exact fun _ => ⟨⟨mine, mineMember, mineId, own⟩, List.mem_cons_self⟩
    · intro other member otherId otherOwn
      obtain ⟨filing, filed, filedHere, box⟩ := homed mine mineMember own
      exact ⟨filing, stay filing filed, filedHere.trans mineId, box⟩
  · refine follows_foreign footprint known homed here grows has about ?_
    intro entry member is own
    rcases List.mem_cons.mp member with rfl | later
    · exact has ⟨row, rowMember, rowId, own⟩
    · exact (others entry later).2 is

theorem follows_remove {mailbox : MailboxID}
    (ran : before.removeMessageFromMailbox message mailbox = .ok after)
    (known : Known before) (homed : Homed owner before)
    (sole : Has owner before message → message ∉ labels ∧
      (∀ filing ∈ before.members, filing.messageID = message → filing.mailboxID = mailbox) ∧
      (before.isTrash mailbox = true →
        ∀ place ∈ before.snapshotOf message, before.mailbox? place = none)) :
    Follows owner labels labels before after := by
  obtain ⟨row, entries, found, footprint, updates, _, goes⟩ := remove_footprint ran
  obtain ⟨rowMember, rowId⟩ := message_found found
  have here : message < before.nextMessageID := rowId ▸ known.messages row rowMember
  by_cases has : Has owner before message
  · obtain ⟨unlabelled, only, gone⟩ := sole has
    obtain ⟨mine, mineMember, mineId, own⟩ := has
    have rowOwn : row.principalID = owner := by
      rw [same_message known rowMember mineMember (rowId.trans mineId.symm)]
      exact own
    rw [rowOwn] at footprint
    exact follows_death footprint known homed here updates unlabelled (goes only gone)
  · refine follows_foreign footprint known homed here (fun _ member => member) has ?_ ?_
    · intro entry member _ other
      rcases List.mem_append.mp member with early | last
      · exact absurd (updates entry early) other
      · rw [List.mem_singleton.mp last]
        rfl
    · intro entry member is
      rcases List.mem_append.mp member with early | last
      · rw [updates entry early] at is
        cases is
      · rw [List.mem_singleton.mp last] at is
        cases is

theorem follows_move {source target : MailboxID}
    (ran : before.moveMessage message source target = .ok after)
    (known : Known before) (homed : Homed owner before)
    (own : Has owner before message → ∀ box, before.mailbox? target = some box →
      box.principalID = owner) :
    Follows owner labels labels before after := by
  obtain ⟨row, box, present, found, footprint, messages, filing, filed, filedHere, place⟩ :=
    move_footprint ran
  obtain ⟨rowMember, rowMessage, _⟩ := membership_found present
  obtain ⟨boxMember, boxId⟩ := mailbox_found found
  refine follows_update footprint known homed (rowMessage ▸ known.members row rowMember) messages
    (fun has => own has box found) ?_
  intro has
  exact ⟨filing, filed, filedHere, box, boxMember, boxId.trans place.symm, own has box found⟩

theorem follows_flags {mailbox : MailboxID} {set clear : MessageFlags}
    {keywordAdd keywordClear : List Bytes}
    {unchangedSince : Nat}
    (ran : before.updateMessageFlags message mailbox set clear keywordAdd keywordClear unchangedSince =
      .ok after)
    (known : Known before) (homed : Homed owner before)
    (own : Has owner before message → ∀ box, before.mailbox? mailbox = some box →
      box.principalID = owner) :
    Follows owner labels labels before after := by
  obtain ⟨row, box, present, found, footprint, messages, kept⟩ := update_flags_footprint ran
  obtain ⟨rowMember, rowMessage, _⟩ := membership_found present
  refine follows_update footprint known homed (rowMessage ▸ known.members row rowMember) messages
    (fun has => own has box found) ?_
  rintro ⟨mine, mineMember, mineId, mineOwn⟩
  obtain ⟨filing, filed, filedHere, place, placeMember, placeId, placeOwn⟩ :=
    homed mine mineMember mineOwn
  obtain ⟨new, newMember, sameMessage, samePlace⟩ := kept filing filed
  exact ⟨new, newMember, sameMessage.trans (filedHere.trans mineId), place, placeMember,
    placeId.trans samePlace.symm, placeOwn⟩

theorem follows_refl (tables : Tables) (known : Known tables) (homed : Homed owner tables)
    (grows : ∀ id ∈ labels, id ∈ labels') : Follows owner labels labels' tables tables :=
  ⟨told_refl tables grows, known, homed⟩

theorem follows_trans {labels'' : List MessageID} {third : Tables} (known : Known before)
    (earlier : Follows owner labels labels' before after)
    (later : Follows owner labels' labels'' after third) :
    Follows owner labels labels'' before third :=
  ⟨told_trans known earlier.told later.told, later.known, later.homed⟩

def Expungeable (owner boxOwner : PrincipalID) (labels : List MessageID) (mailbox : MailboxID)
    (tables : Tables) (message : MessageID) : Prop :=
  Has owner tables message →
    (∃ filing ∈ tables.members, filing.messageID = message ∧ filing.mailboxID = mailbox) →
      boxOwner = owner ∧ message ∉ labels ∧
        ∀ filing ∈ tables.members, filing.messageID = message → filing.mailboxID = mailbox

theorem follows_expunge_round {boxOwner : PrincipalID} (charged : PrincipalID) {mailbox : MailboxID}
    {deleted : Tables}
    {row : Membership} (present : before.membership? message mailbox = some row)
    (ran : before.deleteMembership message mailbox true = .ok deleted) (highest : Nat)
    (known : Known before) (homed : Homed owner before)
    (fair : Expungeable owner boxOwner labels mailbox before message) :
    let next := ((deleted.releaseIfUnfiled message charged).setHighest mailbox
      highest).appendEmailChange
      boxOwner
      message mailbox .destroyed
    Follows owner labels labels before next ∧
      (∃ entries, Footprint message before next entries) ∧
      ∀ filing ∈ next.members, ¬(filing.messageID = message ∧ filing.mailboxID = mailbox) := by
  intro next
  obtain ⟨rowMember, rowMessage, rowPlace⟩ := membership_found present
  have here : message < before.nextMessageID := rowMessage ▸ known.members row rowMember
  obtain ⟨entries, deletes, told⟩ := footprint_delete_membership ran
  obtain ⟨messagesKept, membersKept, _⟩ := release_rows deleted message charged
  have updates : ∀ entry ∈ entries, entry.change.op = .updated := fun entry member =>
    (told entry member).2.2.2.1
  have footprint : Footprint message before next
      (entries ++ [entryOf boxOwner .email message mailbox .destroyed .user]) := by
    refine footprint_trans deletes (footprint_tells ?_ _ _ _ _ _ _)
    exact footprint_silent (footprint_release deleted charged) (footprint_highest _ mailbox highest)
  refine ⟨?_, ⟨_, footprint⟩, ?_⟩
  · by_cases has : Has owner before message
    · obtain ⟨own, unlabelled, only⟩ := fair has ⟨row, rowMember, rowMessage, rowPlace⟩
      rw [own] at footprint
      exact follows_death footprint known homed here updates unlabelled
        (released_unfiled (unfiled_after ran only))
    · refine follows_foreign footprint known homed here (fun _ member => member) has ?_ ?_
      · intro entry member _ other
        rcases List.mem_append.mp member with early | last
        · exact absurd (updates entry early) other
        · rw [List.mem_singleton.mp last]
          rfl
      · intro entry member is
        rcases List.mem_append.mp member with early | last
        · rw [updates entry early] at is
          cases is
        · rw [List.mem_singleton.mp last] at is
          cases is
  · rintro filing member ⟨sameMessage, samePlace⟩
    obtain ⟨old, oldMember, reminded⟩ :=
      forall_across (delete_membership_handed ran).members (membersKept filing member)
    obtain ⟨message', place', _⟩ := reminded_key reminded
    have away := (List.mem_filter.mp oldMember).2
    simp [message'.symm.trans sameMessage, place'.symm.trans samePlace] at away

theorem expungeable_later {boxOwner : PrincipalID} {mailbox : MailboxID} {entries : List FeedRow}
    (footprint : Footprint message before after entries)
    (away : ∀ filing ∈ after.members, ¬(filing.messageID = message ∧ filing.mailboxID = mailbox))
    {other : MessageID} (fair : Expungeable owner boxOwner labels mailbox before other) :
    Expungeable owner boxOwner labels mailbox after other := by
  rintro ⟨row, member, rowId, own⟩ ⟨filing, filed, filedHere, place⟩
  have differ : other ≠ message := by
    intro same
    exact away filing filed ⟨filedHere.trans same, place⟩
  have rows := footprint.members other differ
  have back : ∀ filing, filing ∈ after.members → filing.messageID = other →
    filing ∈ before.members := by
    intro filing filed here
    have listed : filing ∈ rowsOf after other := mem_rows_of.mpr ⟨filed, here⟩
    rw [rows] at listed
    exact (mem_rows_of.mp listed).1
  obtain ⟨boxOwn, unlabelled, only⟩ := fair
    ⟨row, (footprint.messages row (rowId ▸ differ)).mp member, rowId, own⟩
    ⟨filing, back filing filed filedHere, filedHere, place⟩
  exact ⟨boxOwn, unlabelled, fun filing filed here => only filing (back filing filed here) here⟩

theorem follows_expunge_loop {boxOwner charged : PrincipalID} {mailbox : MailboxID}
    {messages : List MessageID} {highest removed : Nat} {tables : Tables} {result : Nat × Tables}
    (ran : expungeLoop boxOwner charged mailbox messages highest removed tables = .ok result)
    (known : Known tables) (homed : Homed owner tables)
    (fair : ∀ message ∈ messages, Expungeable owner boxOwner labels mailbox tables message) :
    Follows owner labels labels tables result.2 := by
  induction messages generalizing highest removed tables with
  | nil =>
    cases ran
    exact follows_refl _ known homed fun _ member => member
  | cons message messages ih =>
    have fairLater := fun other member => fair other (List.mem_cons_of_mem message member)
    unfold expungeLoop at ran
    split at ran
    · exact ih ran known homed fairLater
    · rename_i filed
      obtain ⟨deleted, first, later⟩ := bind_ok ran
      obtain ⟨row, found⟩ := Option.isSome_iff_exists.mp
        (Option.isSome_iff_ne_none.mpr (by simpa using filed))
      obtain ⟨round, ⟨entries, footprint⟩, away⟩ := follows_expunge_round charged found first
        (highest + 1) known homed (fair message List.mem_cons_self)
      refine follows_trans known round (ih later round.known round.homed ?_)
      exact fun other member => expungeable_later footprint away (fairLater other member)

end Follow

/-- Work that leaves the messages alone that are not in this mailbox. -/
structure Spares (mailbox : MailboxID) (before after : Tables) (entries : List FeedRow) : Prop where
  changes : after.changes = logged before.changes entries
  nextMessageID : after.nextMessageID = before.nextMessageID
  fewer : after.messages.Sublist before.messages
  keys : ∀ filing ∈ after.members, ∃ old ∈ before.members, old.messageID = filing.messageID ∧
    old.mailboxID = filing.mailboxID
  messages : ∀ row, (∀ filing ∈ before.members, filing.messageID = row.id →
    filing.mailboxID ≠ mailbox) →
    row ∈ before.messages → row ∈ after.messages
  members : ∀ id, (∀ filing ∈ before.members, filing.messageID = id → filing.mailboxID ≠ mailbox) →
    rowsOf after id = rowsOf before id
  mailboxes : List.Forall₂ SameOwner before.mailboxes after.mailboxes

section

variable {owner : PrincipalID} (tables : Tables)

theorem spares_refl (mailbox : MailboxID) : Spares mailbox tables tables [] :=
  ⟨rfl, rfl, List.Sublist.refl _, fun filing member => ⟨filing, member, rfl, rfl⟩,
    fun _ _ member => member, fun _ _ => rfl, same_owners_refl _⟩

theorem spares_trans {mailbox : MailboxID} {first second third : Tables} {entries more : List FeedRow}
    (earlier : Spares mailbox first second entries) (later : Spares mailbox second third more) :
    Spares mailbox first third (entries ++ more) := by
  have away : ∀ id, (∀ filing ∈ first.members, filing.messageID = id → filing.mailboxID ≠ mailbox) →
      ∀ filing ∈ second.members, filing.messageID = id → filing.mailboxID ≠ mailbox := by
    intro id clear filing member here
    obtain ⟨old, oldMember, sameMessage, samePlace⟩ := earlier.keys filing member
    rw [← samePlace]
    exact clear old oldMember (sameMessage.trans here)
  refine ⟨?_, later.nextMessageID.trans earlier.nextMessageID,
    later.fewer.trans earlier.fewer, ?_, ?_, ?_,
    same_owners_trans earlier.mailboxes later.mailboxes⟩
  · rw [later.changes, earlier.changes, logged_append]
  · intro filing member
    obtain ⟨middle, middleMember, message, place⟩ := later.keys filing member
    obtain ⟨old, oldMember, message', place'⟩ := earlier.keys middle middleMember
    exact ⟨old, oldMember, message'.trans message, place'.trans place⟩
  · intro row clear member
    exact later.messages row (away row.id clear) (earlier.messages row clear member)
  · intro id clear
    rw [later.members id (away id clear), earlier.members id clear]

theorem spares_drop (mailbox : MailboxID) (charged : PrincipalID) (sole : MessageRow) :
    Spares mailbox tables (tables.dropSole mailbox charged sole) [] := by
  refine ⟨rfl, rfl, List.filter_sublist, ?_, ?_, ?_, same_owners_refl _⟩
  · intro filing member
    exact ⟨filing, (List.mem_filter.mp member).1, rfl, rfl⟩
  · intro row clear member
    refine List.mem_filter.mpr ⟨member, ?_⟩
    simp only [Bool.not_eq_true', decide_eq_false_iff_not, List.any_eq_true, decide_eq_true_eq, not_and,
      not_exists]
    exact fun _ filing filed here => clear filing filed here
  · intro id clear
    unfold rowsOf dropSole deleteMessages
    show List.filter _ (List.filter _ tables.members) = _
    rw [List.filter_filter]
    refine List.filter_congr fun filing filed => ?_
    by_cases here : filing.messageID = id
    · have safe : id ∉ (tables.messages.filter fun row => decide (row.blob.hash = sole.blob.hash ∧
          (tables.members.any fun member =>
            decide (member.messageID = row.id ∧ member.mailboxID = mailbox)) =
            true)).map MessageRow.id := by
        simp only [List.mem_map, List.mem_filter, decide_eq_true_eq, List.any_eq_true,
          not_exists, not_and]
        rintro row ⟨_, _, filing', filed', here', place⟩ same
        exact clear filing' filed' (here'.trans same) place
      simpa [here] using safe
    · simp [here]

theorem spares_drop_all (mailbox : MailboxID) (charged : PrincipalID) (soles : List MessageRow)
    (tables : Tables) :
    Spares mailbox tables (soles.foldl (fun tables sole => tables.dropSole mailbox charged sole) tables)
      [] := by
  induction soles generalizing tables with
  | nil => exact spares_refl tables mailbox
  | cons sole soles ih => exact spares_trans (spares_drop tables mailbox charged sole) (ih _)

theorem spares_delete_filed {tables after : Tables} {message : MessageID} {mailbox : MailboxID}
    (ran : tables.deleteMembership message mailbox true = .ok after)
    (filed : ∃ filing ∈ tables.members, filing.messageID = message ∧ filing.mailboxID = mailbox) :
    ∃ entries, Spares mailbox tables after entries ∧ ∀ entry ∈ entries, entry.change.op = .updated := by
  obtain ⟨entries, footprint, told⟩ := footprint_delete_membership ran
  have differ : ∀ id, (∀ filing ∈ tables.members, filing.messageID = id → filing.mailboxID ≠ mailbox) →
      id ≠ message := by
    intro id clear same
    obtain ⟨filing, member, here, place⟩ := filed
    exact clear filing member (here.trans same.symm) place
  refine ⟨entries, ⟨footprint.changes, footprint.nextMessageID, footprint.fewer, ?_, ?_, ?_,
    footprint.mailboxes⟩,
    fun entry member => (told entry member).2.2.2.1⟩
  · intro filing member
    obtain ⟨old, oldMember, reminded⟩ := forall_across (delete_membership_handed ran).members member
    obtain ⟨sameMessage, samePlace, _⟩ := reminded_key reminded
    exact ⟨old, (List.mem_filter.mp oldMember).1, sameMessage.symm, samePlace.symm⟩
  · exact fun row clear member => (footprint.messages row (differ row.id clear)).mpr member
  · exact fun id clear => footprint.members id (differ id clear)

theorem spares_delete {tables after : Tables} {message : MessageID} {mailbox : MailboxID}
    (ran : tables.deleteMembership message mailbox true = .ok after) :
    ∃ entries, Spares mailbox tables after entries ∧ ∀ entry ∈ entries, entry.change.op = .updated := by
  cases found : tables.membership? message mailbox with
  | some row =>
    obtain ⟨member, here, place⟩ := membership_found found
    exact spares_delete_filed ran ⟨row, member, here, place⟩
  | none =>
    have same : after = tables := by
      rw [delete_membership_quiet ran (by rw [found]; rfl)]
      unfold deleteMember
      rw [List.filter_eq_self.mpr]
      intro row member
      have absent := List.find?_eq_none.mp found row member
      simpa [imp_iff_not_or] using absent
    exact ⟨[], same ▸ spares_refl tables mailbox, fun _ member => by cases member⟩

theorem spares_delete_all {mailbox : MailboxID} {messages : List MessageID} {tables after : Tables}
    (ran : deleteMemberships mailbox messages tables = .ok after) :
    ∃ entries, Spares mailbox tables after entries ∧ ∀ entry ∈ entries, entry.change.op = .updated := by
  induction messages generalizing tables with
  | nil =>
    cases ran
    exact ⟨[], spares_refl _ mailbox, fun _ member => by cases member⟩
  | cons message messages ih =>
    obtain ⟨middle, first, later⟩ := bind_ok ran
    obtain ⟨entries, one, updates⟩ := spares_delete first
    obtain ⟨more, rest, updates'⟩ := ih later
    refine ⟨entries ++ more, spares_trans one rest, fun entry member => ?_⟩
    rcases List.mem_append.mp member with early | late
    · exact updates entry early
    · exact updates' entry late

theorem follows_delete_mailbox {labels : List MessageID} {mailbox : MailboxID}
    {before after : Tables} (ran : before.deleteMailbox mailbox = .ok after) (known : Known before)
    (homed : Homed owner before)
    (clear : ∀ row ∈ before.messages, row.principalID = owner → ∀ filing ∈ before.members,
      filing.messageID = row.id → filing.mailboxID ≠ mailbox) : Follows owner labels labels
        before after := by
  obtain ⟨box, _, later⟩ := bind_ok ran
  obtain ⟨charged, _, later⟩ := bind_ok later
  obtain ⟨emptied, deleted, ended⟩ := bind_ok later
  cases ended
  obtain ⟨entries, empties, updates⟩ := spares_delete_all deleted
  have spares := spares_trans
    (spares_drop_all mailbox charged (before.soleMessages mailbox) before) empties
  rw [List.nil_append] at spares
  have silent : ∀ id op, op ≠ .updated → ¬Mentions (newsOf owner
      (entries ++ [entryOf box.principalID .mailbox mailbox 0 .destroyed .user])) id op := by
    intro id op other stated
    obtain ⟨entry, member, _, _, kind, _, is⟩ := mentions_news.mp stated
    rcases List.mem_append.mp member with early | last
    · exact other (is.symm.trans (updates entry early))
    · rw [List.mem_singleton.mp last] at kind
      cases kind
  have same : ∀ id, Has owner emptied id ↔ Has owner before id := by
    intro id
    constructor
    · rintro ⟨row, member, here, own⟩
      exact ⟨row, spares.fewer.subset member, here, own⟩
    · rintro ⟨row, member, here, own⟩
      exact ⟨row, spares.messages row (clear row member own) member, here, own⟩
  have rows : ∀ id, Has owner before id →
      (emptied.members.filter fun row => decide (row.mailboxID ≠ mailbox)).filter
        (fun row => decide (row.messageID = id)) = rowsOf before id := by
    rintro id ⟨row, member, rfl, own⟩
    rw [← spares.members row.id (clear row member own), List.filter_filter]
    unfold rowsOf
    refine List.filter_congr fun filing filed => ?_
    by_cases here : filing.messageID = row.id
    · obtain ⟨old, oldMember, sameMessage, samePlace⟩ := spares.keys filing filed
      have away := clear row member own old oldMember (sameMessage.trans here)
      rw [samePlace] at away
      simp [here, away]
    · simp [here]
  refine ⟨⟨Nat.le_of_eq spares.nextMessageID.symm, fun _ member => member,
    entries ++ [entryOf box.principalID .mailbox mailbox 0 .destroyed .user], ?_, ?_⟩, ⟨?_, ?_, ?_⟩, ?_⟩
  · rw [logged_append, ← spares.changes]
    rfl
  · refine ⟨fun id _ => silent id _ (by decide), fun id has gone => absurd ((same id).mpr has) gone,
      fun id absent has => absurd ((same id).mp has) absent, ?_,
      fun id _ stated => absurd stated (silent id _ (by decide)),
      fun id _ stated => absurd stated (silent id _ (by decide)),
      fun id op other stated => absurd stated (silent id op other)⟩
    intro id has _ differ
    refine absurd ?_ differ
    show _ = List.map _ (List.filter _ (List.map _ _))
    rw [List.filter_map, List.map_map]
    exact congrArg (List.map _) (rows id has).symm
  · exact known.ids.sublist spares.fewer
  · intro row member
    show row.id < emptied.nextMessageID
    rw [spares.nextMessageID]
    exact known.messages row (spares.fewer.subset member)
  · intro filing member
    obtain ⟨kept, listed, rfl⟩ := List.mem_map.mp member
    obtain ⟨old, oldMember, here, _⟩ := spares.keys kept (List.mem_filter.mp listed).1
    show kept.messageID < emptied.nextMessageID
    rw [spares.nextMessageID, ← here]
    exact known.members old oldMember
  · intro row member own
    have was : row ∈ before.messages := spares.fewer.subset member
    obtain ⟨filing, filed, here, place, placeMember, placeId, placeOwn⟩ := homed row was own
    have listed : filing ∈ rowsOf before row.id := mem_rows_of.mpr ⟨filed, here⟩
    rw [← rows row.id ⟨row, was, rfl, own⟩] at listed
    obtain ⟨new, newMember, newId, newOwn, _⟩ := forall_across_left spares.mailboxes placeMember
    refine ⟨_, List.mem_map_of_mem (List.mem_filter.mp listed).1, here, new,
      List.mem_filter.mpr ⟨newMember, ?_⟩, newId.trans placeId, newOwn.trans placeOwn⟩
    have away := clear row was own filing filed here
    simpa [newId.trans placeId] using away

def createdEntries (principal : PrincipalID) (message : MessageID) (targets : List MailStore.Target) :
    List FeedRow :=
  targets.map fun target => entryOf principal .email message target.mailboxID .created .user

theorem file_targets_footprint {principal : PrincipalID} {message : MessageID}
    {targets : List MailStore.Target} {tables after : Tables}
    (ran : fileTargets principal message targets tables = .ok after) :
    Footprint message tables after (createdEntries principal message targets) ∧
      (∀ filing ∈ tables.members, filing ∈ after.members) ∧
      ∀ target ∈ targets, ∃ filing ∈ after.members, filing.messageID = message ∧
        filing.mailboxID = target.mailboxID := by
  induction targets generalizing tables with
  | nil =>
    cases ran
    exact ⟨footprint_refl _, fun _ member => member, fun _ member => by cases member⟩
  | cons target targets ih =>
    obtain ⟨middle, first, later⟩ := bind_ok ran
    obtain ⟨rest, kept, places⟩ := ih later
    obtain ⟨box, _, placed⟩ := bind_ok first
    obtain ⟨filed, inserted, ended⟩ := bind_ok placed
    cases ended
    obtain ⟨filedIs, _⟩ := insert_member_ok inserted
    have one := footprint_tells (footprint_silent (footprint_insert rfl inserted)
      (footprint_advance filed target.mailboxID (box.highestModSeq + 1))) principal .email message
        target.mailboxID .created .user
    refine ⟨footprint_trans one rest, ?_, ?_⟩
    · intro filing member
      refine kept filing ?_
      show filing ∈ filed.members
      rw [filedIs]
      exact List.mem_append_left _ member
    · intro other member
      rcases List.mem_cons.mp member with rfl | there
      · have new : ∃ filing ∈ filed.members, filing.messageID = message ∧
            filing.mailboxID = other.mailboxID := by
          rw [filedIs]
          exact ⟨_, List.mem_append_right _ (List.mem_singleton_self _), rfl, rfl⟩
        obtain ⟨filing, filingMember, here, place⟩ := new
        exact ⟨filing, kept filing filingMember, here, place⟩
      · exact places other there

theorem log_merged_logged (principal : PrincipalID) (merged : List MessageID) :
    ∃ entries, (tables.logMerged principal merged).changes = logged tables.changes entries ∧
      ∀ entry ∈ entries, entry.change.op = .updated := by
  unfold logMerged
  generalize (merged.flatMap fun message =>
    (tables.members.filter fun row => row.messageID = message).map
      fun row => (message, row.mailboxID)) = keys
  induction keys generalizing tables with
  | nil => exact ⟨[], rfl, fun _ member => by cases member⟩
  | cons key keys ih =>
    obtain ⟨entries, changes, updates⟩ := ih (tables.appendEmailChange principal key.1 key.2 .updated)
    refine ⟨entryOf principal .email key.1 key.2 .updated .user :: entries, changes, ?_⟩
    intro entry member
    rcases List.mem_cons.mp member with rfl | later
    · rfl
    · exact updates entry later

theorem follows_insert {labels : List MessageID} {before after : Tables}
    {message : NewMessage} (ran : before.insertMessage message = .ok after)
    (targeted : message.targets ≠ [])
    (known : Known before) (homed : Homed owner before)
    (home : message.principalID = owner → ∃ target ∈ message.targets, ∃ box ∈ before.mailboxes,
      box.id = target.mailboxID ∧ box.principalID = owner) : Follows owner labels labels
        before after := by
  obtain ⟨principal, resolved, later⟩ := bind_ok ran
  obtain ⟨charged, _, later⟩ := bind_ok later
  obtain ⟨account, _, later⟩ := bind_ok later
  obtain ⟨_, _, later⟩ := bind_ok later
  obtain ⟨filed, filing, ended⟩ := bind_ok later
  cases ended
  obtain ⟨footprint, kept, places⟩ := file_targets_footprint filing
  set counted := (filed.credit charged message.size).incRef message.blob.hash with countedIs
  obtain ⟨merges, changes, updates⟩ := log_merged_logged counted principal message.merged
  have accounts := log_merged_accounts counted principal message.merged
  obtain ⟨sameMembers, sameBoxes⟩ := log_merged_tables counted principal message.merged
  have messages : (counted.logMerged principal message.merged).messages =
      before.messages ++ [⟨before.nextMessageID, principal, message.blob, message.size⟩] := by
    rw [accounts.messages]
    exact (file_targets_accounts filing).messages
  have next : (counted.logMerged principal message.merged).nextMessageID =
    before.nextMessageID + 1 := by
    rw [accounts.nextMessageID]
    exact footprint.nextMessageID
  set after := counted.logMerged principal message.merged with afterIs
  set inherited := message.targets.map (MailStore.Target.inherit message.flags message.keywords)
    with inheritedIs
  set entries := createdEntries principal before.nextMessageID inherited ++ merges with entriesIs
  have stated : ∀ id op, op ≠ .updated → Mentions (newsOf owner entries) id op →
      id = before.nextMessageID ∧ op = .created ∧ principal = owner := by
    intro id op other mentioned
    obtain ⟨entry, member, _, own, _, here, is⟩ := mentions_news.mp mentioned
    rcases List.mem_append.mp member with new | merged
    · obtain ⟨target, _, rfl⟩ := List.mem_map.mp new
      exact ⟨here.symm, is.symm, own⟩
    · exact absurd (is.symm.trans (updates entry merged)) other
  have unborn : ¬Has owner before before.nextMessageID :=
    fun has => Nat.lt_irrefl _ (has_known known has)
  have grown : ∀ id, Has owner after id ↔ Has owner before id ∨
    (id = before.nextMessageID ∧ principal = owner) := by
    intro id
    unfold Has
    rw [messages]
    constructor
    · rintro ⟨row, member, here, own⟩
      rcases List.mem_append.mp member with old | new
      · exact Or.inl ⟨row, old, here, own⟩
      · rw [List.mem_singleton.mp new] at here own
        exact Or.inr ⟨here.symm, own⟩
    · rintro (⟨row, member, here, own⟩ | ⟨rfl, own⟩)
      · exact ⟨row, List.mem_append_left _ member, here, own⟩
      · exact ⟨_, List.mem_append_right _ (List.mem_singleton_self _), rfl, own⟩
  have rows : ∀ id, id ≠ before.nextMessageID → rowsOf after id = rowsOf before id := by
    intro id differ
    have same := footprint.members id differ
    unfold rowsOf at same ⊢
    rw [sameMembers]
    exact same
  refine ⟨⟨?_, fun _ member => member, entries, ?_, ?_⟩, ⟨?_, ?_, ?_⟩, ?_⟩
  · rw [next]
    exact Nat.le_succ _
  · rw [entriesIs, logged_append]
    exact changes.trans (congrArg (fun list => logged list merges) footprint.changes)
  · refine ⟨?_, ?_, ?_, ?_, ?_, ?_, ?_⟩
    · intro id _ mentioned
      cases (stated id .destroyed (by decide) mentioned).2.1
    · intro id has gone
      exact absurd ((grown id).mpr (Or.inl has)) gone
    · intro id absent has
      obtain ⟨rfl, own⟩ := ((grown id).mp has).resolve_left absent
      refine ⟨Nat.le_refl _, mentions_news.mpr ?_⟩
      obtain ⟨target, targetMember⟩ := List.exists_mem_of_ne_nil _ targeted
      refine ⟨_, List.mem_append_left _ (List.mem_map_of_mem
        (List.mem_map_of_mem targetMember)), rfl, own, rfl, rfl, rfl⟩
    · intro id has _ differ
      refine absurd ?_ differ
      have old : id ≠ before.nextMessageID := fun same => unborn (same ▸ has)
      unfold emailProperties
      rw [rows id old]
    · intro id has mentioned
      obtain ⟨rfl, _⟩ := stated id .created (by decide) mentioned
      exact absurd has unborn
    · intro id _ mentioned
      obtain ⟨rfl, _⟩ := stated id .created (by decide) mentioned
      exact Nat.le_refl _
    · intro id op other mentioned
      obtain ⟨rfl, _⟩ := stated id op other mentioned
      rw [next]
      exact Nat.lt_succ_self _
  · rw [messages, List.pairwise_append]
    refine ⟨known.ids, List.pairwise_singleton _ _, ?_⟩
    intro old member new newMember
    rw [List.mem_singleton.mp newMember]
    exact Nat.ne_of_lt (known.messages old member)
  · rw [messages, next]
    intro row member
    rcases List.mem_append.mp member with old | new
    · exact Nat.lt_succ_of_lt (known.messages row old)
    · rw [List.mem_singleton.mp new]
      exact Nat.lt_succ_self _
  · intro filing member
    rw [next]
    by_cases same : filing.messageID = before.nextMessageID
    · rw [same]
      exact Nat.lt_succ_self _
    · have listed : filing ∈ rowsOf after filing.messageID := mem_rows_of.mpr ⟨member, rfl⟩
      rw [rows _ same] at listed
      exact Nat.lt_succ_of_lt (known.members filing (mem_rows_of.mp listed).1)
  · intro row member own
    have homes : ∀ filing : Membership, (∃ box ∈ before.mailboxes, box.id = filing.mailboxID ∧
        box.principalID = owner) → ∃ box ∈ after.mailboxes, box.id = filing.mailboxID ∧
          box.principalID = owner := by
      rintro filing ⟨box, boxMember, place, boxOwn⟩
      obtain ⟨new, newMember, newId, newOwn, _⟩ := forall_across_left footprint.mailboxes boxMember
      refine ⟨new, ?_, newId.trans place, newOwn.trans boxOwn⟩
      rw [sameBoxes]
      exact newMember
    rw [messages] at member
    rcases List.mem_append.mp member with old | new
    · obtain ⟨filing', filed', here, box⟩ := homed row old own
      refine ⟨filing', ?_, here, homes filing' box⟩
      rw [sameMembers]
      exact kept filing' filed'
    · rw [List.mem_singleton.mp new] at own ⊢
      have target : ∃ target ∈ message.targets, ∃ box ∈ before.mailboxes,
          box.id = target.mailboxID ∧ box.principalID = owner := by
        unfold insertPrincipal at resolved
        split at resolved
        · exact home ((Except.ok.inj resolved).trans own)
        · cases shape : message.targets with
          | nil => exact absurd shape targeted
          | cons first rest =>
            rw [shape] at resolved
            obtain ⟨box, housed, same⟩ := bind_ok resolved
            obtain ⟨boxMember, boxId⟩ := mailbox_found (require_ok housed)
            exact ⟨first, List.mem_cons_self, box, boxMember, boxId, (Except.ok.inj same).trans own⟩
      obtain ⟨target, targetMember, box, boxMember, place, boxOwn⟩ := target
      obtain ⟨filing', filed', here, filedPlace⟩ := places _ (List.mem_map_of_mem targetMember)
      refine ⟨filing', ?_, here, homes filing' ⟨box, boxMember, place.trans ?_, boxOwn⟩⟩
      · rw [sameMembers]
        exact filed'
      · rw [filedPlace]
        unfold MailStore.Target.inherit
        split
        · rfl
        · rfl

structure FeedSorted (changes : List FeedRow) : Prop where
  upwards : changes.Pairwise fun left right =>
    left.change.principalID = right.change.principalID → left.change.seq < right.change.seq
  positive : ∀ row ∈ changes, 0 < row.change.seq

theorem append_entry_sorted {changes : List FeedRow} (sorted : FeedSorted changes) (entry : FeedRow) :
    FeedSorted (appendEntry changes entry) := by
  constructor
  · refine List.pairwise_append.mpr ⟨sorted.upwards, List.pairwise_singleton _ _, ?_⟩
    intro old member new newMember same
    rw [List.mem_singleton.mp newMember] at same ⊢
    refine Nat.lt_succ_of_le ((le_running_max _ 0).2 old.change.seq (List.mem_map_of_mem ?_))
    exact List.mem_filter.mpr ⟨member, by simpa using same⟩
  · intro row member
    rcases List.mem_append.mp member with old | new
    · exact sorted.positive row old
    · rw [List.mem_singleton.mp new]
      exact Nat.succ_pos _

theorem logged_sorted {changes : List FeedRow} (sorted : FeedSorted changes) (entries : List FeedRow) :
    FeedSorted (logged changes entries) := by
  induction entries generalizing changes with
  | nil => exact sorted
  | cons entry entries ih => exact ih (append_entry_sorted sorted entry)

theorem logged_rows (changes entries : List FeedRow) :
    ∃ rows, logged changes entries = changes ++ rows ∧
      List.Forall₂ (fun entry row => row.cause = entry.cause ∧
        row.change = { entry.change with seq := row.change.seq }) entries rows := by
  induction entries generalizing changes with
  | nil => exact ⟨[], (List.append_nil _).symm, List.Forall₂.nil⟩
  | cons entry entries ih =>
    obtain ⟨rows, same, written⟩ := ih (appendEntry changes entry)
    obtain ⟨row, appended, written'⟩ : ∃ row, appendEntry changes entry = changes ++ [row] ∧
        row.cause = entry.cause ∧ row.change = { entry.change with seq := row.change.seq } :=
      ⟨_, rfl, rfl, rfl⟩
    refine ⟨row :: rows, ?_, List.Forall₂.cons written' written⟩
    show logged (appendEntry changes entry) entries = _
    rw [same, appended, List.append_assoc]
    rfl

theorem user_feed_ordered {tables : Tables} (sorted : FeedSorted tables.changes) (owner : PrincipalID) :
    Ordered tables owner := by
  unfold Ordered userFeed
  rw [List.pairwise_map]
  refine (sorted.upwards.sublist List.filter_sublist).imp_of_mem ?_
  intro left right leftMember rightMember upwards
  have leftOwn := (of_decide_eq_true (List.mem_filter.mp leftMember).2).2
  have rightOwn := (of_decide_eq_true (List.mem_filter.mp rightMember).2).2
  exact upwards (leftOwn.trans rightOwn.symm)

theorem max_email_seq_cases (owner : PrincipalID) :
    maxEmailSeq tables owner = 0 ∨ ∃ row ∈ tables.changes, row.cause = .user ∧
      row.change.principalID = owner ∧ row.change.kind = .email ∧ row.change.seq =
        maxEmailSeq tables owner := by
  have reached : ∀ (seqs : List Nat) (start : Nat), seqs.foldl max start = start ∨
      seqs.foldl max start ∈ seqs := by
    intro seqs
    induction seqs with
    | nil => exact fun start => Or.inl rfl
    | cons first seqs ih =>
      intro start
      rcases ih (max start first) with same | listed
      · rcases Nat.le_total start first with below | above
        · right
          rw [List.foldl_cons, same, Nat.max_eq_right below]
          exact List.mem_cons_self
        · left
          rw [List.foldl_cons, same, Nat.max_eq_left above]
      · exact Or.inr (List.mem_cons_of_mem _ listed)
  have either : maxEmailSeq tables owner = 0 ∨ maxEmailSeq tables owner ∈
      ((userFeed tables owner).filter fun entry => decide (entry.kind = .email)).map StateChange.seq :=
    reached _ 0
  rcases either with zero | listed
  · exact Or.inl zero
  · obtain ⟨entry, member, same⟩ := List.mem_map.mp listed
    obtain ⟨inFeed, email⟩ := List.mem_filter.mp member
    obtain ⟨row, rowMember, rfl⟩ := List.mem_map.mp inFeed
    obtain ⟨inChanges, mine⟩ := List.mem_filter.mp rowMember
    obtain ⟨cause, own⟩ := of_decide_eq_true mine
    exact Or.inr ⟨row, inChanges, cause, own, of_decide_eq_true email, same⟩

theorem max_email_seq_grows {early now : Tables} {owner : PrincipalID} {entries : List FeedRow}
    (changes : now.changes = logged early.changes entries) :
    maxEmailSeq early owner ≤ maxEmailSeq now owner := by
  rcases max_email_seq_cases early owner with zero | ⟨row, member, cause, own, email, seq⟩
  · rw [zero]
    exact Nat.zero_le _
  · obtain ⟨rows, same, _⟩ := logged_rows early.changes entries
    rw [← seq]
    refine seq_le_max (List.mem_map_of_mem (List.mem_filter.mpr ⟨?_, by simpa using ⟨cause, own⟩⟩))
      email
    rw [changes, same]
    exact List.mem_append_left _ member

theorem mentions_since {early now : Tables} {owner : PrincipalID} {entries : List FeedRow}
    (sorted : FeedSorted now.changes) (changes : now.changes = logged early.changes entries)
    (id : MessageID) (op : ChangeOp) :
    Mentions (emailsSince now owner (maxEmailSeq early owner)) id op ↔
      Mentions (newsOf owner entries) id op := by
  obtain ⟨rows, same, written⟩ := logged_rows early.changes entries
  rw [same] at changes
  rw [mentions_news]
  constructor
  · rintro ⟨entry, member, here, is⟩
    obtain ⟨listed, later, email⟩ := mem_emails_since member
    obtain ⟨row, rowMember, rfl⟩ := List.mem_map.mp listed
    obtain ⟨inChanges, mine⟩ := List.mem_filter.mp rowMember
    obtain ⟨cause, own⟩ := of_decide_eq_true mine
    rw [changes] at inChanges
    rcases List.mem_append.mp inChanges with old | new
    · have inFeed : row.change ∈ userFeed early owner :=
        List.mem_map_of_mem (List.mem_filter.mpr ⟨old, by simpa using ⟨cause, own⟩⟩)
      exact absurd later (Nat.not_lt_of_le (seq_le_max inFeed email))
    · obtain ⟨source, sourceMember, sameCause, sameChange⟩ := forall_across written new
      rw [sameChange] at own email here is
      exact ⟨source, sourceMember, sameCause.symm.trans cause, own, email, here, is⟩
  · rintro ⟨source, sourceMember, cause, own, email, here, is⟩
    obtain ⟨row, rowMember, sameCause, sameChange⟩ := forall_across_left written sourceMember
    have fields : row.change.principalID = owner ∧ row.change.kind = .email ∧ row.change.entityID = id ∧
        row.change.op = op := by
      rw [sameChange]
      exact ⟨own, email, here, is⟩
    refine ⟨row.change, List.mem_filter.mpr ⟨List.mem_filter.mpr ⟨?_, ?_⟩, by simpa using fields.2.1⟩,
      fields.2.2.1, fields.2.2.2⟩
    · refine List.mem_map_of_mem (List.mem_filter.mpr ⟨?_, ?_⟩)
      · rw [changes]
        exact List.mem_append_right _ rowMember
      · simpa using ⟨sameCause.trans cause, fields.1⟩
    · rw [changes] at sorted
      rcases max_email_seq_cases early owner with zero | ⟨old, oldMember, _, oldOwn, _, oldSeq⟩
      · rw [zero]
        simpa using sorted.positive row (List.mem_append_right _ rowMember)
      · rw [← oldSeq]
        simpa using (List.pairwise_append.mp sorted.upwards).2.2 old oldMember row rowMember
          (oldOwn.trans fields.1.symm)

structure Ledger where
  tables : Tables
  labelled : List MessageID := []

def relabelled (labels : List MessageID) : Operation → List MessageID
  | .write (.add message _) => message :: labels
  | _ => labels

theorem relabelled_grows (labels : List MessageID) (operation : Operation) :
    ∀ id ∈ labels, id ∈ relabelled labels operation := by
  intro id member
  unfold relabelled
  split
  · exact List.mem_cons_of_mem _ member
  · exact member

def Ledger.machine : Machine Ledger Operation where
  step ledger operation := some
    { tables := committed ledger.tables (operation.apply ledger.tables)
      labelled := relabelled ledger.labelled operation }

/-- The steps after which the feed of an account still tells its story. -/
def Described (owner : PrincipalID) (ledger : Ledger) : Operation → Prop
  | .write (.insert messages) => ∃ message, messages = [message] ∧
      (message.principalID = owner → ∃ target ∈ message.targets, ∃ box ∈ ledger.tables.mailboxes,
        box.id = target.mailboxID ∧ box.principalID = owner)
  | .write (.add message mailbox) => Has owner ledger.tables message →
      ledger.tables.isTrash mailbox = true ∨
      ∀ filing ∈ ledger.tables.members, filing.messageID = message →
        ledger.tables.isTrash filing.mailboxID = false
  | .write (.remove message mailbox) => Has owner ledger.tables message → message ∉ ledger.labelled ∧
      (∀ filing ∈ ledger.tables.members, filing.messageID = message → filing.mailboxID = mailbox) ∧
      (ledger.tables.isTrash mailbox = true → ∀ place ∈ ledger.tables.snapshotOf message,
        ledger.tables.mailbox? place = none)
  | .write (.move message _ target) => Has owner ledger.tables message →
      ∀ box, ledger.tables.mailbox? target = some box → box.principalID = owner
  | .write (.updateFlags message mailbox _ _ _ _ _) => Has owner ledger.tables message →
      ∀ box, ledger.tables.mailbox? mailbox = some box → box.principalID = owner
  | .write (.expunge mailbox messages) => ∀ box, ledger.tables.mailbox? mailbox = some box →
      ∀ message ∈ messages, Expungeable owner box.principalID ledger.labelled mailbox
        ledger.tables message
  | .deleteMailbox mailbox => ∀ row ∈ ledger.tables.messages, row.principalID = owner →
      ∀ filing ∈ ledger.tables.members, filing.messageID = row.id → filing.mailboxID ≠ mailbox
  -- no other transaction is among those the account is followed through
  | .write _ => False

structure Kept (owner : PrincipalID) (tables : Tables) : Prop where
  known : Known tables
  homed : Homed owner tables
  sorted : FeedSorted tables.changes

theorem described_follows {ledger : Ledger} {operation : Operation} {after : Tables}
    (described : Described owner ledger operation) (kept : Kept owner ledger.tables)
    (ran : operation.apply ledger.tables = .ok after) :
    Follows owner ledger.labelled (relabelled ledger.labelled operation) ledger.tables after := by
  obtain ⟨tables, labels⟩ := ledger
  have known := kept.known
  have homed := kept.homed
  cases operation with
  | deleteMailbox mailbox => exact follows_delete_mailbox ran known homed described
  | write change =>
    cases change with
    | insert messages =>
      obtain ⟨message, rfl, home⟩ := described
      have inserted : tables.insertMessages [message] = .ok after := ran
      unfold insertMessages at inserted
      split at inserted
      · cases inserted
      · rename_i targeted
        obtain ⟨middle, first, ended⟩ := bind_ok inserted
        cases ended
        exact follows_insert first (by simpa using targeted) known homed home
    | add message mailbox => exact follows_add ran known homed described
    | remove message mailbox => exact follows_remove ran known homed described
    | move message source target => exact follows_move ran known homed described
    | updateFlags message mailbox set clear keywordAdd keywordClear unchangedSince =>
      exact follows_flags ran known homed described
    | expunge mailbox messages =>
      have expunged : tables.expungeMessages mailbox messages = .ok after := ran
      unfold expungeMessages at expunged
      split at expunged
      · cases expunged
        exact follows_refl _ known homed fun _ member => member
      · obtain ⟨box, housed, later⟩ := bind_ok expunged
        obtain ⟨charged, _, later⟩ := bind_ok later
        obtain ⟨⟨removed, left⟩, looped, ended⟩ := bind_ok later
        dsimp only at ended
        split at ended
        · cases ended
        · cases ended
          exact follows_expunge_loop looped known homed (described box (require_ok housed))
    | replaceBody message blob size => exact described.elim
    | setSnooze message mailbox until? wake => exact described.elim
    | releaseSnooze message mailbox => exact described.elim
    | consolidateSnooze message => exact described.elim
    | recordArrival message mailbox => exact described.elim

theorem step_follows {ledger next : Ledger} {operation : Operation}
    (described : Described owner ledger operation) (kept : Kept owner ledger.tables)
    (stepped : Ledger.machine.step ledger operation = some next) :
    Follows owner ledger.labelled next.labelled ledger.tables next.tables ∧ Kept owner next.tables := by
  cases outcome : operation.apply ledger.tables with
  | ok after =>
    have follows := described_follows described kept outcome
    cases stepped
    simp only [outcome, committed]
    obtain ⟨entries, changes, _⟩ := follows.told.window
    exact ⟨follows, follows.known, follows.homed, changes ▸ logged_sorted kept.sorted entries⟩
  | error _ =>
    cases stepped
    simp only [outcome, committed]
    exact ⟨follows_refl _ kept.known kept.homed (relabelled_grows _ operation), kept⟩

theorem run_follows {operations : List Operation} {start final : Ledger}
    (meets : Ledger.machine.Meets (Described owner) start operations) (kept : Kept owner start.tables)
    (ran : Ledger.machine.execute start operations = some final) :
    Follows owner start.labelled final.labelled start.tables final.tables ∧
    Kept owner final.tables := by
  induction operations generalizing start with
  | nil =>
    cases ran
    exact ⟨follows_refl _ kept.known kept.homed fun _ member => member, kept⟩
  | cons operation operations ih =>
    obtain ⟨described, later⟩ := meets
    cases stepped : Ledger.machine.step start operation with
    | none => simp [Machine.execute, stepped] at ran
    | some next =>
      simp only [Machine.execute, stepped] at ran
      simp only [stepped] at later
      obtain ⟨follows, nextKept⟩ := step_follows described kept stepped
      obtain ⟨rest, finalKept⟩ := ih later nextKept ran
      exact ⟨follows_trans kept.known follows rest, finalKept⟩

theorem keeps_iff {shares : Shares} {tables : Tables} (homed : Homed owner tables)
    (id : MessageID) : keeps shares tables owner id = true ↔ Has owner tables id := by
  simp only [keeps, Bool.and_eq_true, List.any_eq_true, decide_eq_true_eq]
  constructor
  · exact fun seen => seen.1
  · rintro ⟨row, member, rfl, own⟩
    obtain ⟨filing, filed, here, box, boxMember, place, boxOwn⟩ := homed row member own
    exact ⟨⟨row, member, rfl, own⟩, filing, filed, here, box, boxMember, place, Or.inl boxOwn⟩

end

/-- In a run that the feed describes, a client that held the messages of the account
in an earlier state holds those of the present one when it is done, and was told of
every message that changed. -/
theorem client_follows_account (owner : PrincipalID) (shares : Shares) (start early now : Ledger)
    (first second : List Operation) (maxChanges : Nat) (cache : List MessageID)
    (kept : Kept owner start.tables)
    (meetsFirst : Ledger.machine.Meets (Described owner) start first)
    (ranFirst : Ledger.machine.execute start first = some early)
    (meetsSecond : Ledger.machine.Meets (Described owner) early second)
    (ranSecond : Ledger.machine.execute early second = some now)
    (held : ∀ id, id ∈ cache ↔ Has owner early.tables id) :
    ∃ rounds, ∀ fuel ≥ rounds, ∃ client,
      sync shares now.tables owner maxChanges fuel (maxEmailSeq early.tables owner) { cache } =
        some client ∧
      (∀ id, id ∈ client.cache ↔ Has owner now.tables id) ∧
      ∀ id, Has owner early.tables id → Has owner now.tables id →
        emailProperties early.tables id ≠ emailProperties now.tables id → id ∈ client.told := by
  obtain ⟨_, earlyKept⟩ := run_follows meetsFirst kept ranFirst
  obtain ⟨follows, nowKept⟩ := run_follows meetsSecond earlyKept ranSecond
  obtain ⟨entries, changes, window⟩ := follows.told.window
  set rows := emailsSince now.tables owner (maxEmailSeq early.tables owner) with rowsAre
  have news : ∀ id op, Mentions rows id op ↔ Mentions (newsOf owner entries) id op :=
    mentions_since nowKept.sorted changes
  have visible : ∀ id, keeps shares now.tables owner id = true ↔ Has owner now.tables id :=
    keeps_iff nowKept.homed
  have known : maxEmailSeq early.tables owner ≤ maxEmailSeq now.tables owner :=
    max_email_seq_grows changes
  refine ⟨rows.length + 1, fun fuel enough => ?_⟩
  obtain ⟨client, done, synced⟩ :=
    sync_spec shares maxChanges (user_feed_ordered nowKept.sorted owner) fuel _
    { cache } known enough
  refine ⟨client, done, ?_, ?_⟩
  · intro id
    by_cases there : Has owner now.tables id
    · have alive : ¬Mentions rows id .destroyed :=
        fun stated => window.alive id there ((news id _).mp stated)
      rw [synced.kept id alive]
      refine ⟨fun _ => there, fun _ => ?_⟩
      by_cases here : Has owner early.tables id
      · exact Or.inl ((held id).mpr here)
      · exact Or.inr ⟨(news id _).mpr (window.born id here there).2, (visible id).mpr there⟩
    · have hidden : keeps shares now.tables owner id = false := by
        rw [← Bool.not_eq_true]
        exact fun seen => there ((visible id).mp seen)
      refine ⟨fun inCache => ?_, fun has => absurd has there⟩
      by_cases here : Has owner early.tables id
      · obtain ⟨_, destroyed, uncreated⟩ := window.dies id here there
        have gone := synced.gone id hidden fun stated => uncreated ((news id _).mp stated)
        exact absurd ((news id _).mpr destroyed) (gone.mp inCache).2
      · exact absurd inCache (synced.unseen id hidden fun listed => here ((held id).mp listed))
  · intro id here there differ
    obtain ⟨op, stated⟩ := window.changed id here there differ
    refine synced.told id ((visible id).mpr there)
      (fun stated => window.alive id there ((news id _).mp stated))
        (Or.inr ⟨op, (news id op).mpr stated⟩)

def twoLabels : Ledger where
  tables :=
    { principals := [{ id := 1, usedBytes := 5 }]
      mailboxes := [{ id := 1, principalID := 1, name := [97], uidNext := 2, highestModSeq := 1 },
        { id := 2, principalID := 1, name := [98], uidNext := 2, highestModSeq := 1 }]
      messages := [⟨1, 1, byteBlob 7, 5⟩]
      members := [⟨1, 1, 1, 1, 0, [], none, none⟩, ⟨1, 2, 1, 1, 0, [], none, none⟩]
      nextMessageID := 2 }

theorem two_labels_kept : Kept 1 twoLabels.tables where
  known := ⟨List.pairwise_singleton _ _, by simp [twoLabels], by simp [twoLabels]⟩
  homed := by simp [Homed, twoLabels]
  sorted := ⟨List.Pairwise.nil, fun _ member => by cases member⟩

/-- The message is taken out of the inbox. It is still in the archive, but the
client is told that it was destroyed. -/
theorem unlabelled_message_is_dropped :
    ∃ now client, Ledger.machine.execute twoLabels [.write (.remove 1 1)] = some now ∧
      Has 1 twoLabels.tables 1 ∧ Has 1 now.tables 1 ∧
      sync (fun _ _ => false) now.tables 1 0 2 (maxEmailSeq twoLabels.tables 1) { cache := [1] } =
        some client ∧
      1 ∉ client.cache := by
  refine ⟨_, _, rfl, ?_, ?_, rfl, ?_⟩
  · exact ⟨_, List.mem_singleton_self _, rfl, rfl⟩
  · exact ⟨_, List.mem_singleton_self _, rfl, rfl⟩
  · decide

theorem flagged_message_is_told :
    ∃ now, Ledger.machine.execute twoLabels [.write (.updateFlags 1 1 1 0 [] [] 0)] = some now ∧
      ∃ rounds, ∀ fuel ≥ rounds, ∃ client,
        sync (fun _ _ => false) now.tables 1 1 fuel (maxEmailSeq twoLabels.tables 1) { cache := [1] } =
          some client ∧ 1 ∈ client.cache ∧ 1 ∈ client.told := by
  have here : Has 1 twoLabels.tables 1 := ⟨_, List.mem_singleton_self _, rfl, rfl⟩
  have held : ∀ id, id ∈ [1] ↔ Has 1 twoLabels.tables id := by
    intro id
    simp [Has, twoLabels, eq_comm]
  obtain ⟨rounds, follows⟩ := client_follows_account 1 (fun _ _ => false) twoLabels twoLabels _ []
    [.write (.updateFlags 1 1 1 0 [] [] 0)] 1 [1] two_labels_kept trivial rfl
    ⟨fun _ box found => by cases found; rfl, trivial⟩ rfl held
  refine ⟨_, rfl, rounds, fun fuel enough => ?_⟩
  obtain ⟨client, done, cache, told⟩ := follows fuel enough
  have there : Has 1 _ 1 := (cache 1).mp ((cache 1).mpr ⟨_, List.mem_singleton_self _, rfl, rfl⟩)
  exact ⟨client, done, (cache 1).mpr there, told 1 here there (by decide)⟩

end Herold.Jmap

import Mathlib
import Herold.Store.Reminders

/-!
# Deleting a mailbox

A mailbox takes with it the messages filed nowhere else. The rows to delete are
named by the blob they hold and not by the message, so a message that is filed
elsewhere as well goes too when it shares its blob with one that is not.
-/

namespace Herold.Store

open Herold.Go Herold.Machine

namespace Tables

/-- The rows a mailbox takes with it: those in it whose blob one of `soles` holds. -/
def doomed (tables : Tables) (mailbox : MailboxID) (soles : List MessageRow)
    (row : MessageRow) : Bool :=
  (soles.any fun sole => decide (sole.blob.hash = row.blob.hash)) &&
    tables.members.any fun member => member.messageID = row.id ∧ member.mailboxID = mailbox

def doomedIds (tables : Tables) (mailbox : MailboxID) (soles : List MessageRow) : List MessageID :=
  (tables.messages.filter (tables.doomed mailbox soles)).map MessageRow.id

theorem mem_doomed_ids {tables : Tables} {mailbox : MailboxID} {soles : List MessageRow}
    {id : MessageID} :
    id ∈ tables.doomedIds mailbox soles ↔
      ∃ row ∈ tables.messages, tables.doomed mailbox soles row = true ∧ row.id = id := by
  simp [doomedIds, and_assoc]

theorem credit_again (tables : Tables) (account : PrincipalID) (first second : Int) :
    ((tables.credit account first).credit account second).principals =
      (tables.credit account (first + second)).principals := by
  unfold credit
  simp only [List.map_map]
  refine List.map_congr_left fun principal _ => ?_
  by_cases same : principal.id = account
  · simp [same, Int.add_assoc]
  · simp [same]

structure Dropped (mailbox : MailboxID) (charged : PrincipalID) (soles : List MessageRow)
    (before after : Tables) : Prop where
  messages : after.messages = before.messages.filter fun row => !before.doomed mailbox soles row
  members : after.members =
    before.members.filter fun row => !(before.doomedIds mailbox soles).contains row.messageID
  mailboxes : after.mailboxes = before.mailboxes
  changes : after.changes = before.changes
  nextMessageID : after.nextMessageID = before.nextMessageID
  blobRefs : ∀ hash, after.blobRefs hash =
    before.blobRefs hash - soles.countP fun sole => decide (sole.blob.hash = hash)
  principals : after.principals =
    (before.credit charged (-((soles.map MessageRow.size).sum : Int))).principals

theorem drop_sole_dropped (tables : Tables) (mailbox : MailboxID) (charged : PrincipalID)
    (sole : MessageRow) :
    Dropped mailbox charged [sole] tables (tables.dropSole mailbox charged sole) := by
  have same : (fun row : MessageRow => decide (row.blob.hash = sole.blob.hash ∧
      (tables.members.any fun member =>
        decide (member.messageID = row.id ∧ member.mailboxID = mailbox)) =
        true)) =
        tables.doomed mailbox [sole] := by
    funext row
    unfold doomed
    simp only [List.any_cons, List.any_nil, Bool.or_false, Bool.decide_and, Bool.decide_eq_true,
      eq_comm (a := sole.blob.hash)]
  refine ⟨?_, ?_, rfl, rfl, rfl, ?_, ?_⟩
  · show tables.messages.filter _ = _
    rw [same]
  · show tables.members.filter _ = _
    rw [same]
    rfl
  · intro hash
    show (if hash = sole.blob.hash then tables.blobRefs hash - 1 else tables.blobRefs hash) = _
    by_cases here : hash = sole.blob.hash
    · simp [here]
    · simp [here, Ne.symm here]
  · show (tables.credit charged (-(sole.size : Int))).principals = _
    simp

section

variable {tables after : Tables} {mailbox : MailboxID}

theorem stays_filed {charged : PrincipalID}
    {soles : List MessageRow} (ids : tables.messages.Pairwise fun left right => left.id ≠ right.id)
    (dropped : Dropped mailbox charged soles tables after) {row : MessageRow}
    (member : row ∈ tables.messages)
    (kept : tables.doomed mailbox soles row = false) {filing : Membership}
    (filed : filing ∈ tables.members)
    (here : filing.messageID = row.id) : filing ∈ after.members := by
  rw [dropped.members, List.mem_filter]
  refine ⟨filed, ?_⟩
  have safe : filing.messageID ∉ tables.doomedIds mailbox soles := by
    intro listed
    obtain ⟨other, otherMember, doomed, same⟩ := mem_doomed_ids.mp listed
    have distinct : (tables.messages.map MessageRow.id).Nodup := List.pairwise_map.mpr ids
    have equal := List.inj_on_of_nodup_map distinct otherMember member (same.trans here)
    rw [equal, kept] at doomed
    cases doomed
  simpa using safe

theorem doomed_again {charged : PrincipalID}
    {soles : List MessageRow} (ids : tables.messages.Pairwise fun left right => left.id ≠ right.id)
    (dropped : Dropped mailbox charged soles tables after) (more : List MessageRow) {row : MessageRow}
    (member : row ∈ tables.messages) (kept : tables.doomed mailbox soles row = false) :
    after.doomed mailbox more row = tables.doomed mailbox more row := by
  unfold doomed
  congr 1
  rw [Bool.eq_iff_iff, List.any_eq_true, List.any_eq_true]
  constructor
  · rintro ⟨filing, filed, here⟩
    rw [dropped.members] at filed
    exact ⟨filing, (List.mem_filter.mp filed).1, here⟩
  · rintro ⟨filing, filed, here⟩
    exact ⟨filing, stays_filed ids dropped member kept filed (of_decide_eq_true here).1, here⟩

theorem dropped_trans {first second third : Tables} {mailbox : MailboxID} {charged : PrincipalID}
    {some_ more : List MessageRow} (ids : first.messages.Pairwise fun left right => left.id ≠ right.id)
    (earlier : Dropped mailbox charged some_ first second)
    (later : Dropped mailbox charged more second third) :
    Dropped mailbox charged (some_ ++ more) first third := by
  have either : ∀ row ∈ first.messages, first.doomed mailbox (some_ ++ more) row =
      (first.doomed mailbox some_ row || (!first.doomed mailbox some_ row &&
        second.doomed mailbox more row)) := by
    intro row member
    cases kept : first.doomed mailbox some_ row with
    | true =>
      unfold doomed at kept ⊢
      rw [List.any_append, Bool.and_or_distrib_right, kept]
      rfl
    | false =>
      rw [doomed_again ids earlier more member kept]
      unfold doomed at kept ⊢
      rw [List.any_append, Bool.and_or_distrib_right, kept]
      rfl
  refine ⟨?_, ?_, ?_, ?_, ?_, ?_, ?_⟩
  · rw [later.messages, earlier.messages, List.filter_filter]
    refine List.filter_congr fun row member => ?_
    rw [either row member]
    cases first.doomed mailbox some_ row <;> simp
  · rw [later.members, earlier.members, List.filter_filter]
    refine List.filter_congr fun row _ => ?_
    rw [Bool.eq_iff_iff]
    simp only [Bool.and_eq_true, Bool.not_eq_true', List.contains_eq_mem, decide_eq_false_iff_not,
      mem_doomed_ids, earlier.messages, List.mem_filter]
    constructor
    · rintro ⟨second_, first_⟩ ⟨message, member, doomed, same⟩
      rw [either message member] at doomed
      cases kept : first.doomed mailbox some_ message with
      | true => exact first_ ⟨message, member, kept, same⟩
      | false =>
        rw [kept] at doomed
        exact second_ ⟨message, ⟨member, kept⟩, by simpa using doomed, same⟩
    · intro safe
      constructor
      · rintro ⟨message, ⟨member, kept⟩, doomed, same⟩
        exact safe ⟨message, member, by rw [either message member, kept, doomed]; rfl, same⟩
      · rintro ⟨message, member, doomed, same⟩
        exact safe ⟨message, member, by rw [either message member, doomed]; rfl, same⟩
  · exact later.mailboxes.trans earlier.mailboxes
  · exact later.changes.trans earlier.changes
  · exact later.nextMessageID.trans earlier.nextMessageID
  · intro hash
    rw [later.blobRefs, earlier.blobRefs, List.countP_append, Nat.sub_sub]
  · rw [later.principals]
    have same : ∀ bytes, (second.credit charged bytes).principals =
        ((first.credit charged (-((some_.map MessageRow.size).sum : Int))).credit
          charged bytes).principals := by
      intro bytes
      show second.principals.map _ = _
      rw [earlier.principals]
      rfl
    rw [same, credit_again, List.map_append, List.sum_append]
    congr 2
    push_cast
    omega

theorem drop_all (mailbox : MailboxID) (charged : PrincipalID) (soles : List MessageRow)
    (tables : Tables)
    (ids : tables.messages.Pairwise fun left right => left.id ≠ right.id) :
    Dropped mailbox charged soles tables
      (soles.foldl (fun tables sole => tables.dropSole mailbox charged sole) tables) := by
  induction soles generalizing tables with
  | nil =>
    refine ⟨?_, ?_, rfl, rfl, rfl, fun _ => rfl, ?_⟩
    · simp [doomed]
    · simp [doomedIds, doomed]
    · simp [credit]
  | cons sole soles ih =>
    have one := drop_sole_dropped tables mailbox charged sole
    refine dropped_trans ids one (ih _ ?_)
    rw [one.messages]
    exact ids.sublist List.filter_sublist

theorem forall_filter {Item : Type*} {related : Item → Item → Prop} {wanted : Item → Bool}
    (keeps : ∀ {old new}, related old new → wanted new = wanted old) {before after : List Item}
    (corresponds : List.Forall₂ related before after) :
    List.Forall₂ related (before.filter wanted) (after.filter wanted) := by
  induction corresponds with
  | nil => exact List.Forall₂.nil
  | @cons old new before after here _ ih =>
    rw [List.filter_cons, List.filter_cons, keeps here]
    split
    · exact List.Forall₂.cons here ih
    · exact ih

/-- The row is as it was, or took over a reminder that its message had in the
mailbox. -/
def HandedOver (origin : List Membership) (mailbox : MailboxID) (old new : Membership) : Prop :=
  new = old ∨ (∃ holder ∈ origin, holder.mailboxID = mailbox ∧ holder.messageID = old.messageID ∧
    holder.snoozedUntil.isSome) ∧ SameButReminder old new

theorem handed_over_trans {origin : List Membership} {mailbox : MailboxID}
    {first second third : Membership}
    (earlier : HandedOver origin mailbox first second)
    (later : HandedOver origin mailbox second third) :
    HandedOver origin mailbox first third := by
  rcases earlier with rfl | ⟨holds, same⟩
  · exact later
  · rcases later with rfl | ⟨_, again⟩
    · exact Or.inr ⟨holds, same⟩
    · exact Or.inr ⟨holds, same_but_reminder_trans same again⟩

/-- Besides, a reminder that would wake the message into the mailbox has lost its
destination. -/
def Spared (origin : List Membership) (mailbox : MailboxID) (old new : Membership) : Prop :=
  ∃ kept, HandedOver origin mailbox old kept ∧ new = kept.forgetWake mailbox

def elsewhere (rows : List Membership) (mailbox : MailboxID) : List Membership :=
  rows.filter fun row => row.mailboxID ≠ mailbox

theorem elsewhere_deleted (tables : Tables) (message : MessageID) (mailbox : MailboxID) :
    elsewhere (tables.deleteMember message mailbox).members mailbox =
      elsewhere tables.members mailbox := by
  unfold elsewhere deleteMember
  dsimp only
  rw [List.filter_filter]
  refine List.filter_congr fun row _ => ?_
  by_cases here : row.mailboxID = mailbox
  · simp [here]
  · simp [here]

theorem elsewhere_reminded {message : MessageID} {old new : Membership} (mailbox : MailboxID)
    (reminded : Reminded message old new) :
    decide (new.mailboxID ≠ mailbox) = decide (old.mailboxID ≠ mailbox) := by
  rw [(reminded_key reminded).2.1]

structure Emptied (origin : List Membership) (mailbox : MailboxID) (before after : Tables) : Prop where
  principals : after.principals = before.principals
  messages : after.messages = before.messages
  blobRefs : after.blobRefs = before.blobRefs
  nextMessageID : after.nextMessageID = before.nextMessageID
  members : List.Forall₂ (HandedOver origin mailbox) (elsewhere before.members mailbox)
    (elsewhere after.members mailbox)
  left : (∀ row ∈ before.members, row.mailboxID = mailbox → row ∈ origin) →
    ∀ row ∈ after.members, row.mailboxID = mailbox → row ∈ origin

theorem delete_membership_emptied {origin : List Membership} {tables after : Tables}
    {message : MessageID}
    {mailbox : MailboxID} (ran : tables.deleteMembership message mailbox true = .ok after)
    (known : ∀ row ∈ tables.members, row.mailboxID = mailbox → row ∈ origin) :
    Emptied origin mailbox tables after := by
  have handed := delete_membership_handed ran
  refine ⟨handed.principals, handed.messages, handed.blobRefs, handed.nextMessageID, ?_, ?_⟩
  · rw [← elsewhere_deleted tables message mailbox]
    cases held : (tables.membership? message mailbox).bind Membership.snoozedUntil with
    | none =>
      rw [delete_membership_quiet ran held]
      exact forall_refl (fun row => (Or.inl rfl : HandedOver origin mailbox row row)) _
    | some until_ =>
      obtain ⟨holder, found, reminder⟩ := Option.bind_eq_some_iff.mp held
      obtain ⟨holderMember, holderMessage, holderPlace⟩ := membership_found found
      have rows := forall_filter (fun {old new} reminded => elsewhere_reminded mailbox reminded)
        handed.members
      refine rows.imp fun old new reminded => ?_
      rcases reminded with same | ⟨here, same⟩
      · exact Or.inl same
      · refine Or.inr ⟨⟨holder, known holder holderMember holderPlace, holderPlace, ?_, ?_⟩, same⟩
        · exact holderMessage.trans here.symm
        · rw [reminder]
          rfl
  · intro _ row member place
    obtain ⟨old, oldMember, reminded⟩ := forall_across handed.members member
    obtain ⟨_, samePlace, _⟩ := reminded_key reminded
    obtain ⟨oldRow, away⟩ := List.mem_filter.mp oldMember
    rcases reminded with rfl | ⟨here, _⟩
    · exact known row oldRow place
    · simp [here, samePlace.symm.trans place] at away

theorem delete_memberships_emptied (origin : List Membership) {mailbox : MailboxID}
    {messages : List MessageID} {tables after : Tables}
    (ran : deleteMemberships mailbox messages tables = .ok after)
    (known : ∀ row ∈ tables.members, row.mailboxID = mailbox → row ∈ origin) :
    Emptied origin mailbox tables after := by
  induction messages generalizing tables with
  | nil =>
    cases ran
    exact ⟨rfl, rfl, rfl, rfl,
      forall_refl (fun row => (Or.inl rfl : HandedOver origin mailbox row row)) _, fun known => known⟩
  | cons message messages ih =>
    obtain ⟨middle, first, later⟩ := bind_ok ran
    have one := delete_membership_emptied first known
    have rest := ih later (one.left known)
    refine ⟨rest.principals.trans one.principals, rest.messages.trans one.messages,
      rest.blobRefs.trans one.blobRefs, rest.nextMessageID.trans one.nextMessageID, ?_,
      fun known => rest.left (one.left known)⟩
    refine forall_trans ?_ one.members rest.members
    exact fun earlier later => handed_over_trans earlier later

/-- What the schema and the other transactions promise about the rows: identifiers
and keys are unique, every message is filed, every row holds a reference to its
blob. -/
structure Sound (tables : Tables) : Prop where
  ids : tables.messages.Pairwise fun left right => left.id ≠ right.id
  keys : tables.members.Pairwise fun left right =>
    ¬(left.messageID = right.messageID ∧ left.mailboxID = right.mailboxID)
  filed : ∀ row ∈ tables.messages, ∃ filing ∈ tables.members, filing.messageID = row.id
  referred : ∀ hash, (tables.messages.countP fun row => decide (row.blob.hash = hash)) ≤
    tables.blobRefs hash

/-- A deletion that takes with it what was filed in the mailbox alone, and its
references. -/
structure KeepsElsewhere (mailbox : MailboxID) (before after : Tables) : Prop where
  messages : ∀ row, row ∈ after.messages ↔ row ∈ before.messages ∧
    ∃ filing ∈ before.members, filing.messageID = row.id ∧ filing.mailboxID ≠ mailbox
  members : List.Forall₂ (Spared before.members mailbox) (elsewhere before.members mailbox)
    after.members
  references : ∀ hash, (before.blobRefs hash : Int) - after.blobRefs hash =
    (before.messages.countP fun row => decide (row.blob.hash = hash)) -
      (after.messages.countP fun row => decide (row.blob.hash = hash) : Nat)

def Unshared (tables : Tables) (mailbox : MailboxID) : Prop :=
  ∀ sole ∈ tables.soleMessages mailbox, ∀ row ∈ tables.messages, row.blob.hash = sole.blob.hash →
    (∃ filing ∈ tables.members, filing.messageID = row.id ∧ filing.mailboxID = mailbox) →
      ∀ filing ∈ tables.members, filing.messageID = row.id → filing.mailboxID = mailbox

/-- The messages a deletion looks for are those filed in the mailbox and nowhere
else. -/
theorem mem_sole {tables : Tables} (sound : Sound tables) {mailbox : MailboxID} {row : MessageRow} :
    row ∈ tables.soleMessages mailbox ↔ row ∈ tables.messages ∧
      ∀ filing ∈ tables.members, filing.messageID = row.id → filing.mailboxID = mailbox := by
  unfold soleMessages
  rw [List.mem_filter, decide_eq_true_eq]
  refine and_congr_right fun member => ?_
  set filings := tables.members.filter fun filing => decide (filing.messageID = row.id) with filingsIs
  have mem_filings : ∀ filing, filing ∈ filings ↔ filing ∈ tables.members ∧
    filing.messageID = row.id := by
    intro filing
    rw [filingsIs, List.mem_filter, decide_eq_true_eq]
  constructor
  · intro single filing filed here
    have listed : filing.mailboxID ∈ filings.map Membership.mailboxID :=
      List.mem_map_of_mem ((mem_filings filing).mpr ⟨filed, here⟩)
    rw [single] at listed
    exact List.mem_singleton.mp listed
  · intro only
    have apart : filings.Pairwise fun left right =>
        ¬(left.messageID = right.messageID ∧ left.mailboxID = right.mailboxID) :=
      sound.keys.sublist List.filter_sublist
    obtain ⟨filing, filed, here⟩ := sound.filed row member
    have listed := (mem_filings filing).mpr ⟨filed, here⟩
    match shape : filings with
    | [] =>
      rw [shape] at listed
      cases listed
    | [single] =>
      obtain ⟨singleMember, singleHere⟩ := (mem_filings single).mp
        (by rw [shape]; exact List.mem_singleton_self _)
      rw [List.map_singleton, only single singleMember singleHere]
    | first :: second :: others =>
      rw [shape] at apart
      have firstMember := (mem_filings first).mp (by rw [shape]; simp)
      have secondMember := (mem_filings second).mp (by rw [shape]; simp)
      refine absurd ⟨firstMember.2.trans secondMember.2.symm, ?_⟩
        ((List.pairwise_cons.mp apart).1 second (by simp))
      rw [only first firstMember.1 firstMember.2, only second secondMember.1 secondMember.2]

theorem delete_mailbox_amounts (ids : tables.messages.Pairwise fun left right => left.id ≠ right.id)
    (ran : tables.deleteMailbox mailbox = .ok after) :
    let doomed := tables.doomed mailbox (tables.soleMessages mailbox)
    let doomedIds := tables.doomedIds mailbox (tables.soleMessages mailbox)
    (after.messages = tables.messages.filter fun row => !doomed row) ∧
      List.Forall₂ (Spared tables.members mailbox)
        (elsewhere (tables.members.filter fun row => !doomedIds.contains row.messageID) mailbox)
          after.members ∧
      (∀ hash, after.blobRefs hash = tables.blobRefs hash -
        (tables.soleMessages mailbox).countP fun sole => decide (sole.blob.hash = hash)) ∧
      ∃ box charged, tables.mailbox? mailbox = some box ∧
        tables.quotaPrincipalID box.principalID = .ok charged ∧
        after.principals = (tables.credit charged
          (-(((tables.soleMessages mailbox).map MessageRow.size).sum : Int))).principals ∧
        after.nextMessageID = tables.nextMessageID := by
  intro doomed doomedIds
  obtain ⟨box, housed, later⟩ := bind_ok ran
  obtain ⟨charged, quota, later⟩ := bind_ok later
  obtain ⟨emptied, deleted, ended⟩ := bind_ok later
  cases ended
  have dropped := drop_all mailbox charged (tables.soleMessages mailbox) tables ids
  have known : ∀ row ∈ ((tables.soleMessages mailbox).foldl
      (fun tables sole => tables.dropSole mailbox charged sole) tables).members,
        row.mailboxID = mailbox → row ∈ tables.members := by
    intro row member _
    rw [dropped.members] at member
    exact (List.mem_filter.mp member).1
  have empties := delete_memberships_emptied tables.members deleted known
  refine ⟨empties.messages.trans dropped.messages, ?_, ?_, box, charged, require_ok housed, quota,
    empties.principals.trans dropped.principals, empties.nextMessageID.trans dropped.nextMessageID⟩
  · have rows := empties.members
    rw [dropped.members] at rows
    exact List.forall₂_map_right_iff.mpr (rows.imp fun old kept handed => ⟨kept, handed, rfl⟩)
  · intro hash
    show emptied.blobRefs hash = _
    rw [empties.blobRefs, dropped.blobRefs]

theorem doomed_iff_sole {tables : Tables} {mailbox : MailboxID} (sound : Sound tables)
    (unshared : Unshared tables mailbox) {row : MessageRow} (member : row ∈ tables.messages) :
    tables.doomed mailbox (tables.soleMessages mailbox) row = true ↔
    row ∈ tables.soleMessages mailbox := by
  simp only [doomed, Bool.and_eq_true, List.any_eq_true, decide_eq_true_eq]
  constructor
  · rintro ⟨⟨sole, soleMember, same⟩, filed⟩
    exact (mem_sole sound).mpr ⟨member, unshared sole soleMember row member same.symm filed⟩
  · intro sole
    obtain ⟨filing, filed, here⟩ := sound.filed row member
    exact ⟨⟨row, sole, rfl⟩, filing, filed, here, ((mem_sole sound).mp sole).2 filing filed here⟩

theorem unshared_keeps (sound : Sound tables)
    (ran : tables.deleteMailbox mailbox = .ok after) (unshared : Unshared tables mailbox) :
    KeepsElsewhere mailbox tables after := by
  obtain ⟨messages, members, references, _⟩ := delete_mailbox_amounts sound.ids ran
  have partition : ∀ row ∈ tables.messages, (tables.doomed mailbox (tables.soleMessages mailbox) row) =
      decide ((tables.members.filter fun filing => filing.messageID = row.id).map Membership.mailboxID =
        [mailbox]) := by
    intro row member
    rw [Bool.eq_iff_iff, doomed_iff_sole sound unshared member, decide_eq_true_eq]
    unfold soleMessages
    rw [List.mem_filter, decide_eq_true_eq]
    exact and_iff_right member
  refine ⟨?_, ?_, ?_⟩
  · intro row
    rw [messages, List.mem_filter]
    refine and_congr_right fun member => ?_
    rw [Bool.not_eq_true', ← Bool.not_eq_true, doomed_iff_sole sound unshared member, mem_sole sound]
    simp only [member, true_and, not_forall]
    constructor
    · rintro ⟨filing, filed, here, away⟩
      exact ⟨filing, filed, here, away⟩
    · rintro ⟨filing, filed, here, away⟩
      exact ⟨filing, filed, here, away⟩
  · have rows : elsewhere (tables.members.filter fun row =>
        !(tables.doomedIds mailbox (tables.soleMessages mailbox)).contains row.messageID) mailbox =
          elsewhere tables.members mailbox := by
      unfold elsewhere
      rw [List.filter_filter]
      refine List.filter_congr fun filing filed => ?_
      by_cases here : filing.mailboxID = mailbox
      · simp [here]
      · have safe : filing.messageID ∉ tables.doomedIds mailbox (tables.soleMessages mailbox) := by
          intro listed
          obtain ⟨row, member, doomed, same⟩ := mem_doomed_ids.mp listed
          have sole := (doomed_iff_sole sound unshared member).mp doomed
          exact here (((mem_sole sound).mp sole).2 filing filed same.symm)
        simp [here, safe]
    rw [rows] at members
    exact members
  · intro hash
    have counts : (tables.soleMessages mailbox).countP (fun sole => decide (sole.blob.hash = hash)) +
        after.messages.countP (fun row => decide (row.blob.hash = hash)) =
          tables.messages.countP fun row => decide (row.blob.hash = hash) := by
      rw [messages, List.filter_congr fun row member => congrArg not (partition row member)]
      unfold soleMessages
      exact (List.countP_eq_countP_filter_add _ _ _).symm
    have enough := sound.referred hash
    rw [references]
    omega

end

/-- Deleting a mailbox keeps what is filed elsewhere exactly when no such message
of the mailbox shares its blob with one that is in it alone. -/
theorem delete_keeps_elsewhere_iff (tables after : Tables) (mailbox : MailboxID) (sound : Sound tables)
    (ran : tables.deleteMailbox mailbox = .ok after) :
    KeepsElsewhere mailbox tables after ↔ Unshared tables mailbox := by
  refine ⟨?_, unshared_keeps sound ran⟩
  intro keeps sole soleMember row member same filed filing filing_ here
  by_contra away
  obtain ⟨messages, _⟩ := delete_mailbox_amounts sound.ids ran
  have stays : row ∈ after.messages := (keeps.messages row).mpr ⟨member, filing, filing_, here, away⟩
  rw [messages, List.mem_filter] at stays
  have doomed : tables.doomed mailbox (tables.soleMessages mailbox) row = true := by
    simp only [doomed, Bool.and_eq_true, List.any_eq_true, decide_eq_true_eq]
    exact ⟨⟨sole, soleMember, same.symm⟩, filed⟩
  rw [doomed] at stays
  cases stays.2

def oneFiledTwice (blob : BlobName) : Tables where
  principals := [{ id := 1, usedBytes := 10 }]
  mailboxes := [{ id := 1, principalID := 1, name := [97], uidNext := 3, highestModSeq := 2 },
    { id := 2, principalID := 1, name := [98], uidNext := 2, highestModSeq := 1 }]
  messages := [⟨1, 1, ⟨[7], by decide⟩, 5⟩, ⟨2, 1, blob, 5⟩]
  members := [⟨1, 1, 1, 1, 0, [], none, none⟩, ⟨2, 1, 2, 2, 0, [], none, none⟩,
    ⟨2, 2, 1, 1, 0, [], none, none⟩]
  blobRefs := fun _ => 2
  nextMessageID := 3

theorem one_filed_twice_sound (blob : BlobName) : Sound (oneFiledTwice blob) where
  ids := by simp [oneFiledTwice]
  keys := by simp [oneFiledTwice]
  filed := by simp [oneFiledTwice]
  referred := fun hash => by
    show List.countP _ [_, _] ≤ 2
    exact List.countP_le_length

/-- A copy shares its blob with the message it was made of. The mailbox of the
original takes the copy with it, although it is filed elsewhere. -/
theorem copy_goes_with_mailbox :
    ∃ after, Sound (oneFiledTwice ⟨[7], by decide⟩) ∧
      (oneFiledTwice ⟨[7], by decide⟩).deleteMailbox 1 = .ok after ∧
      ¬KeepsElsewhere 1 (oneFiledTwice ⟨[7], by decide⟩) after := by
  refine ⟨_, one_filed_twice_sound _, rfl, ?_⟩
  intro keeps
  have stays := (keeps.messages ⟨2, 1, ⟨[7], by decide⟩, 5⟩).mpr
    ⟨by simp [oneFiledTwice], ⟨2, 2, 1, 1, 0, [], none, none⟩, by simp [oneFiledTwice], rfl, by decide⟩
  revert stays
  decide

theorem other_blob_stays :
    ∃ after, (oneFiledTwice ⟨[8], by decide⟩).deleteMailbox 1 = .ok after ∧
      KeepsElsewhere 1 (oneFiledTwice ⟨[8], by decide⟩) after := by
  refine ⟨_, rfl, (delete_keeps_elsewhere_iff _ _ 1 (one_filed_twice_sound _) rfl).mpr ?_⟩
  unfold Unshared
  decide

end Tables

end Herold.Store

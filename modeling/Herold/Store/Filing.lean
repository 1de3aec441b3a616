import Herold.Store.Mailbox

/-!
# What the mail store operations leave in a mailbox

Each operation is described twice: by the row it leaves for one message in one
mailbox, and by the list of rows it leaves in one mailbox.
-/

namespace Herold.Store.MailStore

open Herold.Go Herold.Store

section

variable (store : MailStore) (mailbox : MailboxID)

theorem rows_ascend : (store.rows mailbox).Pairwise fun left right => left.uid < right.uid := by
  refine List.Pairwise.imp_of_mem ?_ (store.uidsAscend.filter _)
  intro left right leftMember rightMember ascend
  have leftPlace := of_decide_eq_true (List.mem_filter.mp leftMember).2
  have rightPlace := of_decide_eq_true (List.mem_filter.mp rightMember).2
  exact ascend (leftPlace.trans rightPlace.symm)

theorem rows_distinct :
    (store.rows mailbox).Pairwise fun left right => left.messageID ≠ right.messageID := by
  refine List.Pairwise.imp_of_mem ?_ (store.membersDistinct.filter _)
  intro left right leftMember rightMember differ same
  have leftPlace := of_decide_eq_true (List.mem_filter.mp leftMember).2
  have rightPlace := of_decide_eq_true (List.mem_filter.mp rightMember).2
  exact differ same (leftPlace.trans rightPlace.symm)

theorem mem_rows (row : MessageMailbox) :
    row ∈ store.rows mailbox ↔ row ∈ store.members ∧ row.mailboxID = mailbox := by
  simp [rows]

theorem filter_after_last {Item : Type*} (key : Item → Nat) (front back : List Item) (final : Item)
    (ascend : (front ++ final :: back).Pairwise fun left right => key left < key right) :
    (front ++ final :: back).filter (fun item => decide (key final < key item)) = back := by
  rw [List.pairwise_append, List.pairwise_cons] at ascend
  obtain ⟨-, ⟨later, -⟩, earlier⟩ := ascend
  have noneBefore : front.filter (fun item => decide (key final < key item)) = [] := by
    rw [List.filter_eq_nil_iff]
    intro item member
    have before := earlier item member final List.mem_cons_self
    simp only [decide_eq_true_eq]
    omega
  have allAfter : back.filter (fun item => decide (key final < key item)) = back := by
    rw [List.filter_eq_self]
    intro item member
    exact decide_eq_true (later item member)
  rw [List.filter_append, noneBefore, List.filter_cons_of_neg (by simp), allAfter]
  rfl

theorem list_pages_eq (fuel : Nat) (last : Nat)
    (enough : ((store.rows mailbox).filter fun row => last < row.uid).length < fuel) :
    store.listPages mailbox fuel last = (store.rows mailbox).filter fun row => last < row.uid := by
  induction fuel generalizing last with
  | zero => simp at enough
  | succ fuel ih =>
    let rest := (store.rows mailbox).filter fun row => last < row.uid
    change rest.length < fuel + 1 at enough
    have pageEq : store.listMessages mailbox last listAllPageSize = rest.take listAllPageSize := rfl
    rw [listPages, pageEq]
    change _ = rest
    cases final : (rest.take listAllPageSize).getLast? with
    | none =>
      have noPage := List.getLast?_eq_none_iff.mp final
      rw [List.take_eq_nil_iff] at noPage
      rcases noPage with impossible | empty
      · exact absurd impossible (by decide)
      · simp [empty]
    | some lastRow =>
      by_cases short : (rest.take listAllPageSize).length < listAllPageSize
      · have whole : rest.length ≤ listAllPageSize := by
          rw [List.length_take] at short
          omega
        simp only [short, if_true]
        exact List.take_of_length_le whole
      · have full : listAllPageSize ≤ rest.length := by
          rw [List.length_take] at short
          omega
        -- the rows after the page are those with a UID above the last one of the page
        obtain ⟨front, pageSplit⟩ : ∃ front, rest.take listAllPageSize = front ++ [lastRow] :=
          List.getLast?_eq_some_iff.mp final
        have restSplit : rest = front ++ lastRow :: rest.drop listAllPageSize := by
          conv_lhs => rw [← List.take_append_drop listAllPageSize rest, pageSplit]
          simp
        have ascend : rest.Pairwise fun left right => left.uid < right.uid :=
          (store.rows_ascend mailbox).filter _
        have lastAfter : last < lastRow.uid := by
          have member : lastRow ∈ rest := by
            rw [restSplit]
            simp
          exact of_decide_eq_true (List.mem_filter.mp member).2
        have dropEq : rest.drop listAllPageSize =
            (store.rows mailbox).filter fun row => lastRow.uid < row.uid := by
          rw [restSplit] at ascend
          have after := filter_after_last MessageMailbox.uid front (rest.drop listAllPageSize) lastRow
            ascend
          rw [← restSplit, List.filter_filter] at after
          rw [← after]
          refine List.filter_congr ?_
          intro row _
          by_cases above : lastRow.uid < row.uid
          · simp [above, Nat.lt_trans lastAfter above]
          · simp [above]
        have shorter : ((store.rows mailbox).filter fun row => lastRow.uid < row.uid).length <
          fuel := by
          rw [← dropEq, List.length_drop]
          have positive : 0 < listAllPageSize := by decide
          omega
        simp only [short, if_false]
        rw [ih lastRow.uid shorter, ← dropEq, List.take_append_drop]

theorem list_all_messages_eq : store.listAllMessages mailbox = store.rows mailbox := by
  have everything : (store.rows mailbox).filter (fun row => decide (0 < row.uid)) =
      store.rows mailbox := by
    rw [List.filter_eq_self]
    intro row member
    exact decide_eq_true (store.uidsPositive row ((mem_rows store mailbox row).mp member).1)
  rw [listAllMessages, list_pages_eq, everything]
  rw [everything]
  exact Nat.lt_succ_self _

end

section

variable (store : MailStore) (message : MessageID) (mailbox : MailboxID)

theorem member_some_iff (row : MessageMailbox) : store.member? message mailbox = some row ↔
      row ∈ store.members ∧ row.messageID = message ∧ row.mailboxID = mailbox := by
  constructor
  · intro found
    exact ⟨List.mem_of_find?_eq_some found, by simpa using List.find?_some found⟩
  · rintro ⟨member, rfl, rfl⟩
    cases found : store.member? row.messageID row.mailboxID with
    | none =>
      rw [member?, List.find?_eq_none] at found
      exact absurd (found row member) (by simp)
    | some other =>
      have otherMember : other ∈ store.members := List.mem_of_find?_eq_some found
      have same : other.messageID = row.messageID ∧ other.mailboxID = row.mailboxID := by
        simpa using List.find?_some found
      have keysDistinct : (store.members.map fun row => (row.messageID, row.mailboxID)).Nodup := by
        rw [List.Nodup, List.pairwise_map]
        refine store.membersDistinct.imp ?_
        intro left right differ equal
        rw [Prod.mk.injEq] at equal
        exact differ equal.1 equal.2
      rw [List.inj_on_of_nodup_map keysDistinct otherMember member (by rw [same.1, same.2])]

theorem member_update (change : MemberUpdate) (target : MessageID)
    (place : MailboxID) (message : MessageID) (mailbox : MailboxID) :
    (store.updateMember change target place).member? message mailbox =
      if message = target ∧ mailbox = place then (store.member? message mailbox).map change.apply
      else store.member? message mailbox := by
  have mapped : (store.updateMember change target place).member? message mailbox =
      (store.member? message mailbox).map (updateRow change target place) := by
    simp only [member?, updateMember, List.find?_map, Function.comp_def, update_row_message,
      update_row_mailbox]
  rw [mapped]
  cases found : store.member? message mailbox with
  | none => simp
  | some row =>
    obtain ⟨_, rfl, rfl⟩ := (member_some_iff store message mailbox row).mp found
    by_cases hit : row.messageID = target ∧ row.mailboxID = place
    · simp [updateRow, hit]
    · simp [updateRow, hit]

theorem member_remove (gone : MessageMailbox → Bool) (message : MessageID) (mailbox : MailboxID) :
    (store.removeMembers gone).member? message mailbox =
      (store.member? message mailbox).filter fun row => !gone row := by
  refine Option.ext fun row => ?_
  rw [member_some_iff, Option.filter_eq_some_iff, member_some_iff]
  simp only [removeMembers, List.mem_filter]
  exact ⟨fun ⟨⟨member, kept⟩, same⟩ => ⟨⟨member, same⟩, kept⟩,
    fun ⟨⟨member, same⟩, kept⟩ => ⟨⟨member, kept⟩, same⟩⟩

theorem member_remove_key (target : MessageID) (place : MailboxID)
    (message : MessageID) (mailbox : MailboxID) :
    (store.removeMembers fun row => row.messageID = target ∧ row.mailboxID = place).member?
        message mailbox =
      if message = target ∧ mailbox = place then none else store.member? message mailbox := by
  rw [member_remove]
  cases found : store.member? message mailbox with
  | none => simp
  | some row =>
    obtain ⟨_, rfl, rfl⟩ := (member_some_iff store message mailbox row).mp found
    by_cases hit : row.messageID = target ∧ row.mailboxID = place
    · simp [hit]
    · simp [Option.filter, hit]

theorem rows_member (row : MessageMailbox)
    (member : row ∈ store.rows mailbox) : store.member? row.messageID mailbox = some row := by
  obtain ⟨filed, place⟩ := (mem_rows store mailbox row).mp member
  exact (member_some_iff store row.messageID mailbox row).mpr ⟨filed, rfl, place⟩

theorem mem_message_rows (row : MessageMailbox) :
    row ∈ store.messageRows message ↔ row ∈ store.members ∧ row.messageID = message := by
  simp [messageRows, List.mem_insertionSort]

/-- `GetMessage` reads the membership in the mailbox with the lowest identifier. -/
theorem get_message_first (found : MessageMailbox) (read : store.getMessage message = some found) :
    found ∈ store.members ∧ found.messageID = message ∧
      ∀ row ∈ store.members, row.messageID = message → found.mailboxID ≤ row.mailboxID := by
  have sorted : (store.messageRows message).Pairwise fun left right =>
      left.mailboxID ≤ right.mailboxID := List.pairwise_insertionSort _ _
  obtain ⟨rest, rows⟩ := List.head?_eq_some_iff.mp read
  have first : found ∈ store.messageRows message := by
    rw [rows]
    exact List.mem_cons_self
  obtain ⟨filed, same⟩ := (mem_message_rows store message found).mp first
  refine ⟨filed, same, ?_⟩
  intro row member rowSame
  have listed := (mem_message_rows store message row).mpr ⟨member, rowSame⟩
  rw [rows] at listed sorted
  rcases List.mem_cons.mp listed with rfl | later
  · exact Nat.le_refl _
  · exact (List.pairwise_cons.mp sorted).1 row later

theorem get_message_filed (row : MessageMailbox) (filed : store.member? message mailbox = some row) :
    ∃ found, store.getMessage message = some found := by
  obtain ⟨member, same, _⟩ := (member_some_iff store message mailbox row).mp filed
  have listed := (mem_message_rows store message row).mpr ⟨member, same⟩
  cases read : store.getMessage message with
  | none =>
    rw [getMessage, List.head?_eq_none_iff] at read
    rw [read] at listed
    simp at listed
  | some found => exact ⟨found, rfl⟩

end

/-! ## Reminders

Setting, ending and handing over a reminder changes rows of its message only,
and leaves their UIDs and flags alone. -/

structure Mark where
  messageID : MessageID
  mailboxID : MailboxID
  uid : Nat
  flags : MessageFlags
  deriving DecidableEq

def mark (row : MessageMailbox) : Mark := ⟨row.messageID, row.mailboxID, row.uid, row.flags⟩

def marks (store : MailStore) : List Mark := store.members.map mark

theorem marks_update (store : MailStore) (change : MemberUpdate) (message : MessageID)
    (mailbox : MailboxID) (keepsFlags : ∀ row, (change.apply row).flags = row.flags) :
    (store.updateMember change message mailbox).marks = store.marks := by
  rw [marks, updateMember, List.map_map, marks]
  refine List.map_congr_left ?_
  intro row _
  unfold Function.comp mark
  rw [update_row_message, update_row_mailbox, update_row_uid]
  congr 1
  unfold updateRow
  split
  · exact keepsFlags row
  · rfl

theorem member_of_marks (before after : MailStore) (message : MessageID) (mailbox : MailboxID)
    (row : MessageMailbox) (known : ∀ seen ∈ after.marks, seen ∈ before.marks)
    (filed : after.member? message mailbox = some row) :
    ∃ old, before.member? message mailbox = some old ∧ mark old = mark row := by
  obtain ⟨member, same, place⟩ := (member_some_iff after message mailbox row).mp filed
  obtain ⟨old, oldMember, equal⟩ := List.mem_map.mp (known (mark row) (List.mem_map_of_mem member))
  have oldSame : old.messageID = row.messageID := congrArg Mark.messageID equal
  have oldPlace : old.mailboxID = row.mailboxID := congrArg Mark.mailboxID equal
  refine ⟨old, (member_some_iff before message mailbox old).mpr ⟨oldMember, ?_, ?_⟩, equal⟩
  · rw [oldSame, same]
  · rw [oldPlace, place]

structure Reminded (message : MessageID) (before after : MailStore) : Prop where
  marks : after.marks = before.marks
  others : ∀ other mailbox, other ≠ message → after.member? other mailbox = before.member? other mailbox
  filed : ∀ mailbox, before.member? message mailbox = none → after.member? message mailbox = none
  mailboxes : after.mailboxes.map Mailbox.id = before.mailboxes.map Mailbox.id
  grants : after.grants = before.grants
  superadmins : after.superadmins = before.superadmins
  nextMessageID : after.nextMessageID = before.nextMessageID

theorem reminded_refl (message : MessageID) (store : MailStore) : Reminded message store store :=
  ⟨rfl, fun _ _ _ => rfl, fun _ absent => absent, rfl, rfl, rfl, rfl⟩

theorem reminded_trans (message : MessageID) (first second third : MailStore)
    (early : Reminded message first second) (late : Reminded message second third) :
    Reminded message first third where
  marks := late.marks.trans early.marks
  others other mailbox differ :=
    (late.others other mailbox differ).trans (early.others other mailbox differ)
  filed mailbox absent := late.filed mailbox (early.filed mailbox absent)
  mailboxes := late.mailboxes.trans early.mailboxes
  grants := late.grants.trans early.grants
  superadmins := late.superadmins.trans early.superadmins
  nextMessageID := late.nextMessageID.trans early.nextMessageID

theorem set_snooze_reminded (store after : MailStore) (message : MessageID) (mailbox : MailboxID)
    (until? : Option Micros) (wake : Option MailboxID)
    (set : store.setSnooze message mailbox until? wake = .ok after) : Reminded message store after := by
  unfold setSnooze at set
  split at set
  case h_1 row box foundRow foundBox =>
    rw [Except.ok.injEq] at set
    subst set
    let change := snoozeUpdate until? wake (box.highestModSeq + 1)
    refine ⟨marks_update store change message mailbox fun _ => rfl, ?_, ?_, ?_, rfl, rfl, rfl⟩
    · intro other place differ
      change ((store.updateMember change message mailbox).member? other place) = _
      rw [member_update, if_neg fun hit => differ hit.1]
    · intro place absent
      change ((store.updateMember change message mailbox).member? message place) = _
      rw [member_update, absent]
      simp
    · change ((store.mailboxes.map (raiseModSeq mailbox (box.highestModSeq + 1))).map Mailbox.id) = _
      rw [List.map_map]
      refine List.map_congr_left ?_
      intro other _
      exact raise_mod_seq_id _ _ _
  case h_2 => simp at set

theorem end_snoozes_reminded (message : MessageID) (rows : List MessageMailbox)
    (store after : MailStore) (ended : endSnoozes message rows store = .ok after) :
    Reminded message store after := by
  induction rows generalizing store with
  | nil =>
    rw [endSnoozes, Except.ok.injEq] at ended
    rw [ended]
    exact reminded_refl message after
  | cons row rows ih =>
    rw [endSnoozes] at ended
    by_cases held : row.snoozedUntil.isSome = true
    · rw [if_pos held] at ended
      cases set : store.setSnooze message row.mailboxID none none with
      | error cause => simp [set, bind, Except.bind] at ended
      | ok next =>
        simp only [set, bind, Except.bind] at ended
        exact reminded_trans message store next after
          (set_snooze_reminded store next message row.mailboxID none none set) (ih next ended)
    · rw [if_neg held] at ended
      exact ih store ended

theorem transfer_snooze_reminded (store after : MailStore) (message : MessageID)
    (until? : Option Micros) (wake : Option MailboxID)
    (transferred : store.transferSnooze message until? wake = .ok after) :
    Reminded message store after := by
  unfold transferSnooze at transferred
  simp only at transferred
  split at transferred
  · exact end_snoozes_reminded message _ store after transferred
  · rename_i target _
    split at transferred
    · rw [Except.ok.injEq] at transferred
      rw [transferred]
      exact reminded_refl message after
    · split at transferred
      · rw [Except.ok.injEq] at transferred
        rw [transferred]
        exact reminded_refl message after
      · exact set_snooze_reminded store after message target.mailboxID until? wake transferred

/-- Identifiers the removal from a mailbox takes out of the list of marks. -/
def outside (mailbox : MailboxID) (messages : List MessageID) (row : Mark) : Bool :=
  !(row.mailboxID = mailbox ∧ row.messageID ∈ messages)

structure Expunged (mailbox : MailboxID) (messages : List MessageID) (before after : MailStore) :
    Prop where
  marks : after.marks = before.marks.filter (outside mailbox messages)
  others : ∀ other place, other ∉ messages → after.member? other place = before.member? other place
  gone : ∀ message ∈ messages, after.member? message mailbox = none
  /-- In another mailbox a row is touched only to take a reminder over. -/
  elsewhere : ∀ message place, place ≠ mailbox →
    (∀ row, before.member? message mailbox = some row → row.snoozedUntil = none) ∨
      before.member? message place = none →
    after.member? message place = before.member? message place
  mailboxes : after.mailboxes.map Mailbox.id = before.mailboxes.map Mailbox.id
  grants : after.grants = before.grants
  superadmins : after.superadmins = before.superadmins
  nextMessageID : after.nextMessageID = before.nextMessageID

theorem marks_remove_key (store : MailStore) (message : MessageID) (mailbox : MailboxID) :
    (store.removeMembers fun row => row.messageID = message ∧ row.mailboxID = mailbox).marks =
      store.marks.filter (outside mailbox [message]) := by
  rw [marks, removeMembers, marks, List.filter_map]
  congr 1
  refine List.filter_congr ?_
  intro row _
  simp only [outside, Function.comp, mark, List.mem_singleton]
  by_cases hit : row.messageID = message ∧ row.mailboxID = mailbox
  · simp [hit]
  · simp [hit, and_comm]

section

variable (mailbox : MailboxID) (store after : MailStore) (messages : List MessageID)

theorem delete_membership_expunged (message : MessageID)
    (mailbox : MailboxID) (deleted : store.deleteMembership message mailbox = .ok after) :
    Expunged mailbox [message] store after := by
  let removed := store.removeMembers fun row => row.messageID = message ∧ row.mailboxID = mailbox
  have memberRemoved : ∀ other place, removed.member? other place =
      if other = message ∧ place = mailbox then none else store.member? other place :=
    fun other place => member_remove_key store message mailbox other place
  -- whatever is done about the reminder, it is done on the store without the row
  have remindedAfter : Reminded message removed after := by
    unfold deleteMembership at deleted
    simp only at deleted
    split at deleted
    · rw [Except.ok.injEq] at deleted
      rw [← deleted]
      exact reminded_refl message removed
    · exact transfer_snooze_reminded removed after message _ _ deleted
  refine ⟨?_, ?_, ?_, ?_, remindedAfter.mailboxes, remindedAfter.grants, remindedAfter.superadmins,
    remindedAfter.nextMessageID⟩
  · rw [remindedAfter.marks]
    exact marks_remove_key store message mailbox
  · intro other place absent
    have differ : other ≠ message := fun same => absent (by simp [same])
    rw [remindedAfter.others other place differ, memberRemoved, if_neg fun hit => differ hit.1]
  · intro other same
    rw [List.mem_singleton] at same
    subst same
    refine remindedAfter.filed mailbox ?_
    rw [memberRemoved, if_pos ⟨rfl, rfl⟩]
  · intro other place away spared
    by_cases same : other = message
    · subst same
      rcases spared with quiet | absent
      · have untouched : after = removed := by
          unfold deleteMembership at deleted
          have silent : (store.member? other mailbox).bind MessageMailbox.snoozedUntil = none := by
            cases found : store.member? other mailbox with
            | none => rfl
            | some row => exact quiet row found
          simp only [silent, Except.ok.injEq] at deleted
          exact deleted.symm
        rw [untouched, memberRemoved, if_neg fun hit => away hit.2]
      · rw [absent]
        refine remindedAfter.filed place ?_
        rw [memberRemoved, if_neg fun hit => away hit.2, absent]
    · rw [remindedAfter.others other place same, memberRemoved, if_neg fun hit => same hit.1]

theorem expunged_refl (store : MailStore)
    (absent : ∀ message ∈ messages, store.member? message mailbox = none) :
    Expunged mailbox messages store store := by
  refine ⟨?_, fun _ _ _ => rfl, absent, fun _ _ _ _ => rfl, rfl, rfl, rfl, rfl⟩
  symm
  rw [List.filter_eq_self]
  intro row member
  obtain ⟨source, sourceMember, rfl⟩ := List.mem_map.mp member
  rw [outside, Bool.not_eq_true', decide_eq_false_iff_not]
  rintro ⟨place, listed⟩
  have found := (member_some_iff store source.messageID mailbox source).mpr ⟨sourceMember, rfl, place⟩
  rw [absent source.messageID listed] at found
  simp at found

theorem expunged_trans (first second : List MessageID)
    (before between after : MailStore) (early : Expunged mailbox first before between)
    (late : Expunged mailbox second between after) :
      Expunged mailbox (first ++ second) before after where
  marks := by
    rw [late.marks, early.marks, List.filter_filter]
    refine List.filter_congr ?_
    intro row _
    simp only [outside, List.mem_append]
    by_cases place : row.mailboxID = mailbox
    · by_cases inFirst : row.messageID ∈ first
      · simp [place, inFirst]
      · simp [place, inFirst]
    · simp [place]
  others other place absent := by
    rw [List.mem_append, not_or] at absent
    rw [late.others other place absent.2, early.others other place absent.1]
  gone message listed := by
    by_cases again : message ∈ second
    · exact late.gone message again
    · rw [late.others message mailbox again]
      exact early.gone message ((List.mem_append.mp listed).resolve_right again)
  elsewhere message place away spared := by
    have earlySame := early.elsewhere message place away spared
    rw [← earlySame]
    refine late.elsewhere message place away ?_
    by_cases listed : message ∈ first
    · refine Or.inl ?_
      intro row found
      rw [early.gone message listed] at found
      simp at found
    · rw [early.others message mailbox listed, early.others message place listed]
      exact spared
  mailboxes := late.mailboxes.trans early.mailboxes
  grants := late.grants.trans early.grants
  superadmins := late.superadmins.trans early.superadmins
  nextMessageID := late.nextMessageID.trans early.nextMessageID

theorem expunged_logged (before after : MailStore)
    (owner : PrincipalID) (message : MessageID) (highest : Nat)
    (expunged : Expunged mailbox messages before after) :
    Expunged mailbox messages before
      ((after.setHighestModSeq mailbox highest).appendStateChange owner message mailbox .destroyed)
      where
  marks := expunged.marks
  others := expunged.others
  gone := expunged.gone
  elsewhere := expunged.elsewhere
  mailboxes := by
    rw [← expunged.mailboxes]
    change ((after.mailboxes.map (raiseModSeq mailbox highest)).map Mailbox.id) = _
    rw [List.map_map]
    refine List.map_congr_left ?_
    intro other _
    exact raise_mod_seq_id _ _ _
  grants := expunged.grants
  superadmins := expunged.superadmins
  nextMessageID := expunged.nextMessageID

theorem expunge_loop_expunged (owner : PrincipalID) (mailbox : MailboxID) (messages : List MessageID)
    (highest removed count : Nat) (store after : MailStore)
    (looped : expungeLoop owner mailbox messages highest removed store = .ok (count, after)) :
    Expunged mailbox messages store after := by
  induction messages generalizing highest removed store with
  | nil =>
    simp only [expungeLoop, Except.ok.injEq, Prod.mk.injEq] at looped
    rw [looped.2]
    exact expunged_refl mailbox [] after (by simp)
  | cons message messages ih =>
    rw [expungeLoop] at looped
    by_cases absent : (store.member? message mailbox).isNone = true
    · rw [if_pos absent] at looped
      refine expunged_trans mailbox [message] messages store store after ?_
        (ih highest removed store looped)
      refine expunged_refl mailbox [message] store ?_
      intro other same
      rw [List.mem_singleton] at same
      rw [same]
      exact Option.isNone_iff_eq_none.mp absent
    · rw [if_neg absent] at looped
      cases deleted : store.deleteMembership message mailbox with
      | error cause => simp [deleted, bind, Except.bind] at looped
      | ok next =>
        simp only [deleted, bind, Except.bind] at looped
        have first := expunged_logged mailbox [message] store next owner message (highest + 1)
          (delete_membership_expunged store next message mailbox deleted)
        exact expunged_trans mailbox [message] messages store _ after first (ih _ _ _ looped)

/-- What a successful `ExpungeMessages` does. -/
theorem expunge_messages_expunged (mailbox : MailboxID)
    (messages : List MessageID) (ok : store.expungeMessages mailbox messages = .ok after) :
    Expunged mailbox messages store after := by
  unfold expungeMessages at ok
  split at ok
  case isTrue empty =>
    rw [Except.ok.injEq] at ok
    rw [empty, ok]
    exact expunged_refl mailbox [] after (by simp)
  case isFalse =>
    split at ok
    · simp at ok
    · rename_i box _
      cases looped : expungeLoop box.principalID mailbox messages box.highestModSeq 0 store with
      | error cause => simp [looped, bind, Except.bind] at ok
      | ok result =>
        obtain ⟨count, final⟩ := result
        simp only [looped, bind, Except.bind] at ok
        split at ok
        · simp at ok
        · rw [Except.ok.injEq] at ok
          rw [← ok]
          exact expunge_loop_expunged _ mailbox messages _ _ count store final looped

theorem Expunged.kept {mailbox : MailboxID} {messages : List MessageID} {before after : MailStore}
    (expunged : Expunged mailbox messages before after) (message : MessageID) (place : MailboxID)
    (away : place ≠ mailbox) (old : MessageMailbox)
    (filed : before.member? message place = some old) :
    ∃ new, after.member? message place = some new ∧ mark new = mark old := by
  obtain ⟨member, same, oldPlace⟩ := (member_some_iff before message place old).mp filed
  have listed : mark old ∈ after.marks := by
    rw [expunged.marks, List.mem_filter]
    refine ⟨List.mem_map_of_mem member, ?_⟩
    rw [outside, Bool.not_eq_true', decide_eq_false_iff_not]
    rintro ⟨gone, _⟩
    exact away (oldPlace.symm.trans gone)
  obtain ⟨new, newMember, equal⟩ := List.mem_map.mp listed
  refine ⟨new, (member_some_iff after message place new).mpr ⟨newMember, ?_, ?_⟩, equal⟩
  · exact (congrArg Mark.messageID equal).trans same
  · exact (congrArg Mark.mailboxID equal).trans oldPlace

theorem delete_memberships_expunged (store after : MailStore)
    (ok : deleteMemberships mailbox messages store = .ok after) :
    Expunged mailbox messages store after := by
  induction messages generalizing store with
  | nil =>
    rw [deleteMemberships, Except.ok.injEq] at ok
    rw [ok]
    exact expunged_refl mailbox [] after (by simp)
  | cons message messages ih =>
    rw [deleteMemberships] at ok
    cases deleted : store.deleteMembership message mailbox with
    | error cause => simp [deleted, bind, Except.bind] at ok
    | ok next =>
      simp only [deleted, bind, Except.bind] at ok
      exact expunged_trans mailbox [message] messages store next after
        (delete_membership_expunged store next message mailbox deleted) (ih next ok)

theorem delete_mailbox_elsewhere (id place : MailboxID) (away : place ≠ id)
    (apart : ∀ row ∈ store.rows id, store.member? row.messageID place = none)
    (ok : store.deleteMailbox id = .ok after) (message : MessageID) :
    after.member? message place = store.member? message place := by
  unfold deleteMailbox at ok
  split at ok
  case h_1 => simp at ok
  case h_2 box _ =>
    let doomed := ((store.rows id).filter fun row => (store.soleHashes id).contains row.blobHash).map
      MessageMailbox.messageID
    let kept := store.removeMembers fun row => row.messageID ∈ doomed
    have keptSame : kept.member? message place = store.member? message place := by
      change (store.removeMembers _).member? message place = _
      rw [member_remove]
      cases found : store.member? message place with
      | none => rfl
      | some row =>
        rw [Option.filter_some, if_pos]
        rw [Bool.not_eq_true', decide_eq_false_iff_not]
        intro listed
        obtain ⟨source, sourceMember, same⟩ := List.mem_map.mp listed
        have absent := apart source (List.mem_filter.mp sourceMember).1
        rw [same, ((member_some_iff store message place row).mp found).2.1, found] at absent
        simp at absent
    cases emptied : deleteMemberships id ((kept.rows id).map MessageMailbox.messageID) kept with
    | error cause => simp [kept, doomed, emptied, bind, Except.bind] at ok
    | ok final =>
      have expunged := delete_memberships_expunged id _ kept final emptied
      have same : after.member? message place = final.member? message place := by
        simp only [kept, doomed] at emptied
        simp only [emptied, bind, Except.bind, Except.ok.injEq] at ok
        rw [← ok]
        rfl
      rw [same, ← keptSame]
      by_cases listed : message ∈ (kept.rows id).map MessageMailbox.messageID
      · refine expunged.elsewhere message place away (Or.inr ?_)
        rw [keptSame]
        obtain ⟨row, rowMember, rfl⟩ := List.mem_map.mp listed
        refine apart row ?_
        obtain ⟨filed, placed⟩ := (mem_rows kept id row).mp rowMember
        exact (mem_rows store id row).mpr ⟨(List.mem_filter.mp filed).1, placed⟩
      · exact expunged.others message place listed

end

def bare (row : Mark) : MessageID × MailboxID × Nat := (row.messageID, row.mailboxID, row.uid)

structure Flagged (message : MessageID) (mailbox : MailboxID) (change : MemberUpdate)
    (before after : MailStore) : Prop where
  found : ∃ row, before.member? message mailbox = some row
  member : ∀ other place, after.member? other place =
    if other = message ∧ place = mailbox then (before.member? other place).map change.apply
    else before.member? other place
  marks : after.marks.map bare = before.marks.map bare
  mailboxes : after.mailboxes.map Mailbox.id = before.mailboxes.map Mailbox.id
  grants : after.grants = before.grants
  superadmins : after.superadmins = before.superadmins
  nextMessageID : after.nextMessageID = before.nextMessageID

section

variable (store : MailStore) (message : MessageID) (mailbox : MailboxID)

theorem update_member_flagged (change : MemberUpdate) (message : MessageID)
    (mailbox : MailboxID) (owner : PrincipalID) (modSeq : Nat) (op : ChangeOp) (row : MessageMailbox)
    (found : store.member? message mailbox = some row) :
    Flagged message mailbox change store
      (((store.updateMember change message mailbox).setHighestModSeq mailbox modSeq).appendStateChange
        owner message mailbox op) := by
  refine ⟨⟨row, found⟩, ?_, ?_, ?_, rfl, rfl, rfl⟩
  · intro other place
    exact member_update store change message mailbox other place
  · change ((store.members.map (updateRow change message mailbox)).map mark).map bare =
      (store.members.map mark).map bare
    rw [List.map_map, List.map_map, List.map_map]
    refine List.map_congr_left ?_
    intro other _
    simp only [Function.comp, bare, mark, update_row_message, update_row_mailbox, update_row_uid]
  · change ((store.mailboxes.map (raiseModSeq mailbox modSeq)).map Mailbox.id) = _
    rw [List.map_map]
    refine List.map_congr_left ?_
    intro other _
    exact raise_mod_seq_id _ _ _

theorem update_message_flags_flagged (store after : MailStore) (message : MessageID)
    (mailbox : MailboxID) (add clear : MessageFlags) (keywordAdd keywordClear : List Bytes)
    (unchangedSince : Nat)
    (ok : store.updateMessageFlags message mailbox add clear keywordAdd keywordClear unchangedSince =
      .ok after) :
    ∃ modSeq, Flagged message mailbox (flagUpdate add clear keywordAdd keywordClear modSeq) store
      after := by
  unfold updateMessageFlags at ok
  split at ok
  case h_1 => simp at ok
  case h_2 row found =>
    split at ok
    case isTrue => simp at ok
    case isFalse =>
      split at ok
      case h_1 => simp at ok
      case h_2 box _ =>
        rw [Except.ok.injEq] at ok
        rw [← ok]
        exact ⟨_, update_member_flagged store _ message mailbox _ _ _ row found⟩

theorem set_snooze_flagged (store after : MailStore) (message : MessageID) (mailbox : MailboxID)
    (until? : Option Micros) (wake : Option MailboxID)
    (set : store.setSnooze message mailbox until? wake = .ok after) :
    ∃ modSeq, Flagged message mailbox (snoozeUpdate until? wake modSeq) store after := by
  unfold setSnooze at set
  split at set
  case h_1 row box foundRow foundBox =>
    rw [Except.ok.injEq] at set
    rw [← set]
    exact ⟨_, update_member_flagged store _ message mailbox _ _ _ row foundRow⟩
  case h_2 => simp at set

structure Filed (message : MessageID) (places : List MailboxID) (before after : MailStore) : Prop where
  marks : ∃ added, after.marks = before.marks ++ added ∧
    ∀ row ∈ added, row.messageID = message ∧ row.mailboxID ∈ places
  member : ∀ other place, ¬(other = message ∧ place ∈ places) →
    after.member? other place = before.member? other place
  mailboxes : after.mailboxes.map Mailbox.id = before.mailboxes.map Mailbox.id
  grants : after.grants = before.grants
  superadmins : after.superadmins = before.superadmins
  nextMessageID : after.nextMessageID = before.nextMessageID

theorem filed_refl (store : MailStore) : Filed message [] store store :=
  ⟨⟨[], by simp, by simp⟩, fun _ _ _ => rfl, rfl, rfl, rfl, rfl⟩

theorem filed_trans (first second : List MailboxID)
    (before between after : MailStore) (early : Filed message first before between)
    (late : Filed message second between after) : Filed message (first ++ second) before after where
  marks := by
    obtain ⟨earlyRows, earlyMarks, earlyPlaces⟩ := early.marks
    obtain ⟨lateRows, lateMarks, latePlaces⟩ := late.marks
    refine ⟨earlyRows ++ lateRows, by rw [lateMarks, earlyMarks, List.append_assoc], ?_⟩
    intro row member
    rcases List.mem_append.mp member with inEarly | inLate
    · exact ⟨(earlyPlaces row inEarly).1, List.mem_append_left _ (earlyPlaces row inEarly).2⟩
    · exact ⟨(latePlaces row inLate).1, List.mem_append_right _ (latePlaces row inLate).2⟩
  member other place away := by
    rw [late.member other place fun hit => away ⟨hit.1, List.mem_append_right _ hit.2⟩,
      early.member other place fun hit => away ⟨hit.1, List.mem_append_left _ hit.2⟩]
  mailboxes := late.mailboxes.trans early.mailboxes
  grants := late.grants.trans early.grants
  superadmins := late.superadmins.trans early.superadmins
  nextMessageID := late.nextMessageID.trans early.nextMessageID

theorem add_member_filed (store after : MailStore) (message : MessageID) (blobHash : Bytes)
    (target : Target) (ok : store.addMember message blobHash target = .ok after) :
    Filed message [target.mailboxID] store after := by
  unfold addMember at ok
  split at ok
  case h_1 => simp at ok
  case h_2 mailbox found =>
    have place : mailbox.id = target.mailboxID := by simpa using List.find?_some found
    simp only at ok
    split at ok
    case isFalse => simp at ok
    case isTrue checked =>
      rw [Except.ok.injEq] at ok
      subst ok
      let row := newRow message blobHash target mailbox
      refine ⟨⟨[mark row], ?_, ?_⟩, ?_, ?_, rfl, rfl, rfl⟩
      · change (store.members ++ [row]).map mark = store.members.map mark ++ [mark row]
        rw [List.map_append]
        rfl
      · intro added member
        rw [List.mem_singleton] at member
        rw [member]
        exact ⟨rfl, by simp [mark, row, newRow, place]⟩
      · intro other box away
        change (store.members ++ [row]).find? _ = store.members.find? _
        rw [List.find?_append]
        have skipped : [row].find? (fun row => row.messageID = other ∧ row.mailboxID = box) = none := by
          rw [List.find?_eq_none]
          intro added member hit
          rw [List.mem_singleton] at member
          rw [member] at hit
          obtain ⟨sameMessage, sameBox⟩ := of_decide_eq_true hit
          refine away ⟨sameMessage.symm, ?_⟩
          rw [List.mem_singleton, ← sameBox]
          exact place
        rw [skipped, Option.or_none]
      · change ((store.mailboxes.map (takeUID mailbox.id)).map Mailbox.id) = _
        rw [List.map_map]
        refine List.map_congr_left ?_
        intro other _
        exact take_uid_id _ _

theorem file_targets_filed (principal : PrincipalID) (message : MessageID) (blobHash : Bytes)
    (targets : List Target) (store after : MailStore)
    (ok : fileTargets principal message blobHash targets store = .ok after) :
    Filed message (targets.map Target.mailboxID) store after := by
  induction targets generalizing store with
  | nil =>
    rw [fileTargets, Except.ok.injEq] at ok
    rw [ok]
    exact filed_refl message after
  | cons target targets ih =>
    rw [fileTargets] at ok
    cases added : store.addMember message blobHash target with
    | error cause => simp [added, bind, Except.bind] at ok
    | ok next =>
      simp only [added, bind, Except.bind] at ok
      have first := add_member_filed store next message blobHash target added
      have logged : Filed message [target.mailboxID] store
          (next.appendStateChange principal message target.mailboxID .created) :=
        ⟨first.marks, first.member, first.mailboxes, first.grants, first.superadmins,
          first.nextMessageID⟩
      exact filed_trans message [target.mailboxID] (targets.map Target.mailboxID) store _ after
        logged (ih _ ok)

theorem inherit_mailbox (flags : MessageFlags) (keywords : List Bytes) (target : Target) :
    (target.inherit flags keywords).mailboxID = target.mailboxID := by
  unfold Target.inherit
  split <;> rfl

/-- What a successful `InsertMessage` does; the identifier is new. -/
theorem insert_message_filed (store after : MailStore) (principal : PrincipalID)
    (flags : MessageFlags) (keywords : List Bytes) (blobHash : Bytes) (targets : List Target)
    (uid : Nat)
    (ok : store.insertMessage principal flags keywords blobHash targets = .ok (uid, after)) :
    Filed store.nextMessageID (targets.map Target.mailboxID) store.drawMessageID after := by
  unfold insertMessage at ok
  split at ok
  case h_1 => simp at ok
  case h_2 first rest =>
    cases filed : fileTargets principal store.nextMessageID blobHash
        ((first :: rest).map (Target.inherit flags keywords)) store.drawMessageID with
    | error cause => simp only [filed, bind, Except.bind, reduceCtorEq] at ok
    | ok final =>
      simp only [filed, bind, Except.bind] at ok
      split at ok
      case h_2 => simp at ok
      case h_1 =>
        rw [Except.ok.injEq, Prod.mk.injEq] at ok
        rw [← ok.2]
        have result := file_targets_filed principal store.nextMessageID blobHash _ _ final filed
        rw [List.map_map] at result
        have places : Target.mailboxID ∘ Target.inherit flags keywords = Target.mailboxID := by
          funext target
          exact inherit_mailbox flags keywords target
        rwa [places] at result

theorem fresh_message_absent (unissued : store.nextMessageID ≤ message) :
    store.member? message mailbox = none := by
  cases found : store.member? message mailbox with
  | none => rfl
  | some row =>
    obtain ⟨member, same, _⟩ := (member_some_iff store message mailbox row).mp found
    have issued := store.messagesIssued row member
    exact absurd (same ▸ issued) (Nat.not_lt.mpr unissued)

structure Grown (mailbox : MailboxID) (before after : MailStore) : Prop where
  marks : ∃ added, after.marks = before.marks ++ added ∧ ∀ row ∈ added, row.mailboxID = mailbox
  elsewhere : ∀ message place, place ≠ mailbox →
    after.member? message place = before.member? message place
  known : ∀ message place, message < before.nextMessageID →
    after.member? message place = before.member? message place
  issued : before.nextMessageID ≤ after.nextMessageID

theorem grown_refl (store : MailStore) : Grown mailbox store store :=
  ⟨⟨[], by simp, by simp⟩, fun _ _ _ => rfl, fun _ _ _ => rfl, Nat.le_refl _⟩

theorem grown_trans (first second third : MailStore)
    (early : Grown mailbox first second) (late : Grown mailbox second third) :
    Grown mailbox first third where
  marks := by
    obtain ⟨earlyRows, earlyMarks, earlyPlaces⟩ := early.marks
    obtain ⟨lateRows, lateMarks, latePlaces⟩ := late.marks
    refine ⟨earlyRows ++ lateRows, by rw [lateMarks, earlyMarks, List.append_assoc], ?_⟩
    intro row member
    rcases List.mem_append.mp member with inEarly | inLate
    · exact earlyPlaces row inEarly
    · exact latePlaces row inLate
  elsewhere message place away :=
    (late.elsewhere message place away).trans (early.elsewhere message place away)
  known message place old :=
    (late.known message place (Nat.lt_of_lt_of_le old early.issued)).trans
      (early.known message place old)
  issued := Nat.le_trans early.issued late.issued

theorem insert_message_grown (store after : MailStore) (principal : PrincipalID)
    (flags : MessageFlags) (keywords : List Bytes) (blobHash : Bytes) (target : Target) (uid : Nat)
    (ok : store.insertMessage principal flags keywords blobHash [target] = .ok (uid, after)) :
    Grown target.mailboxID store after := by
  have filed := insert_message_filed store after principal flags keywords blobHash [target] uid ok
  refine ⟨?_, ?_, ?_, ?_⟩
  · obtain ⟨added, appended, places⟩ := filed.marks
    exact ⟨added, appended, fun row member => List.mem_singleton.mp (places row member).2⟩
  · intro message place away
    exact filed.member message place fun hit => away (List.mem_singleton.mp hit.2)
  · intro message place old
    exact filed.member message place fun hit => absurd hit.1 (Nat.ne_of_lt old)
  · rw [filed.nextMessageID]
    exact Nat.le_succ _

theorem rows_marks :
    (store.rows mailbox).map mark = store.marks.filter fun row => row.mailboxID = mailbox := by
  rw [rows, marks, List.filter_map]
  rfl

theorem Expunged.rows {mailbox : MailboxID} {messages : List MessageID} {before after : MailStore}
    (expunged : Expunged mailbox messages before after) :
    (after.rows mailbox).map mark =
      ((before.rows mailbox).filter fun row => row.messageID ∉ messages).map mark := by
  have filtered : ((before.rows mailbox).filter fun row => row.messageID ∉ messages).map mark =
      ((before.rows mailbox).map mark).filter fun row => row.messageID ∉ messages := by
    rw [List.filter_map]
    rfl
  rw [filtered, rows_marks, rows_marks, expunged.marks, List.filter_filter, List.filter_filter]
  refine List.filter_congr ?_
  intro row _
  by_cases place : row.mailboxID = mailbox
  · simp [outside, place]
  · simp [place]

theorem Grown.rows {mailbox : MailboxID} {before after : MailStore} (grown : Grown mailbox before after)
    (place : MailboxID) (away : place ≠ mailbox) :
    (after.rows place).map mark = (before.rows place).map mark := by
  obtain ⟨added, appended, places⟩ := grown.marks
  rw [rows_marks, rows_marks, appended, List.filter_append]
  have none : added.filter (fun row => decide (row.mailboxID = place)) = [] := by
    rw [List.filter_eq_nil_iff]
    intro row member
    rw [decide_eq_true_eq, places row member]
    exact fun same => away same.symm
  rw [none, List.append_nil]

/-- `GetMessage` depends on the keys of the rows only. -/
theorem get_message_bare : (store.getMessage message).map (fun row => bare (mark row)) =
      (((store.marks.map bare).filter fun key => key.1 = message).insertionSort
        fun left right => left.2.1 ≤ right.2.1).head? := by
  have sorted := List.map_insertionSort
    (fun left right : MessageMailbox => left.mailboxID ≤ right.mailboxID)
    (fun left right : MessageID × MailboxID × Nat => left.2.1 ≤ right.2.1)
    (fun row => bare (mark row)) (store.members.filter fun row => row.messageID = message)
    (fun _ _ _ _ => Iff.rfl)
  rw [getMessage, messageRows, ← List.head?_map, sorted, marks, List.map_map, List.filter_map]
  rfl

end

theorem member_of_bare (before after : MailStore) (message : MessageID) (mailbox : MailboxID)
    (row : MessageMailbox) (same : after.marks.map bare = before.marks.map bare)
    (filed : after.member? message mailbox = some row) :
    ∃ old, before.member? message mailbox = some old ∧ old.uid = row.uid := by
  obtain ⟨member, sameMessage, place⟩ := (member_some_iff after message mailbox row).mp filed
  have listed : bare (mark row) ∈ before.marks.map bare := by
    rw [← same]
    exact List.mem_map_of_mem (List.mem_map_of_mem member)
  obtain ⟨seen, seenMember, equal⟩ := List.mem_map.mp listed
  obtain ⟨old, oldMember, rfl⟩ := List.mem_map.mp seenMember
  simp only [bare, mark, Prod.mk.injEq] at equal
  refine ⟨old, (member_some_iff before message mailbox old).mpr ⟨oldMember, ?_, ?_⟩, equal.2.2⟩
  · exact equal.1.trans sameMessage
  · exact equal.2.1.trans place

end Herold.Store.MailStore

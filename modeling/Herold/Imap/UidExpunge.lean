import Herold.Imap.Commands

/-!
# What UID EXPUNGE removes

`UID EXPUNGE` is to remove the messages that are marked deleted and that the set
denotes. The handler reads a range forward only, from the number written first
to the number written last, and takes an empty selection for the absence of one.
-/

namespace Herold.Imap

open Herold.Go Herold.Store

def highestUID (msgs : List MessageMailbox) : Nat := (msgs.map MessageMailbox.uid).foldr max 0

/-- The messages `UID EXPUNGE` is asked to remove. -/
def namedDeleted (text : Bytes) (sel : Selected) : List MessageID :=
  (sel.msgs.filter fun row =>
    isDeleted row ∧ Denotes text (highestUID sel.msgs) row.uid).map MessageMailbox.messageID

def MayExpunge (faults : Faults) (store : MailStore) (session : Session) (sel : Selected) : Prop :=
  faults .getMailboxByID = false ∧ ∃ mailbox, store.mailboxByID sel.id = some mailbox ∧
    requireRights faults store session.pid mailbox ACLRights.expunge = true

instance (faults : Faults) (store : MailStore) (session : Session) (sel : Selected) :
    Decidable (MayExpunge faults store session sel) :=
  inferInstanceAs (Decidable (faults .getMailboxByID = false ∧
    ∃ mailbox ∈ store.mailboxByID sel.id,
      requireRights faults store session.pid mailbox ACLRights.expunge = true))

/-- A range of the set, read forward, contains the UID of the message. -/
def ReadsForward (sel : Selected) (set : NumSet) (row : MessageMailbox) : Prop :=
  ∃ range ∈ set, uidInRange sel.uidNext range row = true

/-- Either some message lies in a range read forward, and so does every deleted
message the set denotes; or none does, and every deleted message is denoted. -/
def ForwardSetSuffices (text : Bytes) (set : NumSet) (sel : Selected) : Prop :=
  ((∃ row ∈ sel.msgs, ReadsForward sel set row) ∧
    ∀ row ∈ sel.msgs, isDeleted row = true → Denotes text (highestUID sel.msgs) row.uid →
      ReadsForward sel set row) ∨
  ((∀ row ∈ sel.msgs, ¬ReadsForward sel set row) ∧
    ∀ row ∈ sel.msgs, isDeleted row = true → Denotes text (highestUID sel.msgs) row.uid)

theorem uid_le_highest (msgs : List MessageMailbox) (row : MessageMailbox) (member : row ∈ msgs) :
    row.uid ≤ highestUID msgs := by
  induction msgs with
  | nil => simp at member
  | cons first msgs ih =>
    simp only [highestUID, List.map_cons, List.foldr_cons] at ih ⊢
    rcases List.mem_cons.mp member with rfl | later
    · exact Nat.le_max_left _ _
    · exact Nat.le_trans (ih later) (Nat.le_max_right _ _)

theorem highest_narrow (msgs : List MessageMailbox) (narrow : ∀ row ∈ msgs, row.uid ≤ maxNumber) :
    highestUID msgs ≤ maxNumber := by
  induction msgs with
  | nil => exact Nat.zero_le _
  | cons first msgs ih =>
    have here := narrow first List.mem_cons_self
    have later := ih fun row member => narrow row (List.mem_cons_of_mem _ member)
    simp only [highestUID, List.map_cons, List.foldr_cons] at later ⊢
    omega

theorem highest_issued_le (uidNext : Nat) : highestIssued uidNext ≤ maxNumber := by
  have small := Nat.mod_lt (uidNext + 0xFFFFFFFF) (show 0 < 0x100000000 by decide)
  unfold highestIssued maxNumber
  omega

theorem uid_in_range_iff (uidNext : Nat) (range : NumRange) (row : MessageMailbox) :
    uidInRange uidNext range row = true ↔
      range.start ≤ row.uid ∧ (range.stop = maxNumber → row.uid ≤ highestIssued uidNext) ∧
        (range.stop ≠ maxNumber → row.uid ≤ range.stop) := by
  unfold uidInRange
  by_cases wide : range.stop = maxNumber
  · simp [wide]
  · simp [wide]

theorem forward_range_denotes (sel : Selected) (range : SetRange) (row : MessageMailbox)
    (member : row ∈ sel.msgs) (narrow : ∀ row ∈ sel.msgs, row.uid ≤ maxNumber)
    (inside : uidInRange sel.uidNext range.encoded row = true) :
    range.Denotes (highestUID sel.msgs) row.uid := by
  have below := uid_le_highest sel.msgs row member
  have top := highest_narrow sel.msgs narrow
  have issued := highest_issued_le sel.uidNext
  obtain ⟨first, last⟩ := range
  obtain ⟨low, wide, bounded⟩ := (uid_in_range_iff _ _ row).mp inside
  unfold SetRange.Denotes
  cases first with
  | star =>
    -- the range starts at the largest number, so the message can only be the highest one
    have highest : row.uid = highestUID sel.msgs := by
      have start : maxNumber ≤ row.uid := low
      omega
    simp only [SetTerm.value]
    omega
  | number start =>
    cases last with
    | star =>
      simp only [SetRange.encoded, SetTerm.encoded, SetTerm.value] at low ⊢
      omega
    | number stop =>
      simp only [SetRange.encoded, SetTerm.encoded, SetTerm.value] at low wide bounded ⊢
      by_cases large : stop = maxNumber
      · have reach := wide large
        omega
      · have reach := bounded large
        omega

theorem reads_forward_denotes (sel : Selected) (text : Bytes) (set : NumSet) (row : MessageMailbox)
    (accepted : parseNumSetString text = some set) (member : row ∈ sel.msgs)
    (narrow : ∀ row ∈ sel.msgs, row.uid ≤ maxNumber) (forward : ReadsForward sel set row) :
    Denotes text (highestUID sel.msgs) row.uid := by
  rw [parse_num_set_encodes, Option.map_eq_some_iff] at accepted
  obtain ⟨ranges, read, rfl⟩ := accepted
  obtain ⟨encoded, encodedMember, inside⟩ := forward
  obtain ⟨range, rangeMember, rfl⟩ := List.mem_map.mp encodedMember
  exact ⟨ranges, read, range, rangeMember, forward_range_denotes sel range row member narrow inside⟩

theorem mem_uid_filter (sel : Selected) (set : NumSet) (row : MessageMailbox)
    (member : row ∈ sel.msgs) :
    row.uid ∈ uidFilter sel true (some set) ↔ ReadsForward sel set row := by
  simp only [uidFilter, List.mem_flatMap, List.mem_map, List.mem_filter]
  constructor
  · rintro ⟨range, rangeMember, other, ⟨_, inside⟩, same⟩
    refine ⟨range, rangeMember, ?_⟩
    unfold uidInRange at inside ⊢
    rwa [← same]
  · rintro ⟨range, rangeMember, inside⟩
    exact ⟨range, rangeMember, row, ⟨member, inside⟩, rfl⟩

theorem uid_filter_nil (sel : Selected) (set : NumSet) :
    uidFilter sel true (some set) = [] ↔ ∀ row ∈ sel.msgs, ¬ReadsForward sel set row := by
  constructor
  · intro empty row member forward
    have inside := (mem_uid_filter sel set row member).mpr forward
    rw [empty] at inside
    simp at inside
  · intro none
    rw [List.eq_nil_iff_forall_not_mem]
    intro uid member
    simp only [uidFilter, List.mem_flatMap, List.mem_map, List.mem_filter] at member
    obtain ⟨range, rangeMember, row, ⟨rowMember, inside⟩, _⟩ := member
    exact none row rowMember ⟨range, rangeMember, inside⟩

theorem messages_where_from (chosen : MessageMailbox → Bool) (msgs : List MessageMailbox)
    (start : Nat) :
    ((msgs.zipIdx start).filterMap fun (row, seq) => if chosen row then some (seq, row) else none).map
      Prod.snd = msgs.filter chosen := by
  induction msgs generalizing start with
  | nil => rfl
  | cons row msgs ih =>
    rw [List.zipIdx_cons, List.filterMap_cons]
    by_cases taken : chosen row = true
    · simp [taken, ih (start + 1)]
    · simp [taken, ih (start + 1)]

theorem messages_where_rows (chosen : MessageMailbox → Bool) (msgs : List MessageMailbox) :
    (messagesWhere chosen msgs).map Prod.snd = msgs.filter chosen :=
  messages_where_from chosen msgs 1

theorem expunge_hands_chosen (faults : Faults) (store : MailStore) (session : Session)
    (sel : Selected) (isUID : Bool) (set : Option NumSet) (selected : session.sel = some sel)
    (may : MayExpunge faults store session sel) :
    (handleEXPUNGE faults store session isUID set).handed =
      (sel.msgs.filter (expungeChosen (uidFilter sel isUID set))).map MessageMailbox.messageID := by
  obtain ⟨readable, mailbox, found, permitted⟩ := may
  rw [← messages_where_rows, List.map_map]
  simp only [handleEXPUNGE, selected, readable, found, permitted]
  simp only [Bool.false_eq_true, if_false, Bool.true_eq_false]
  split <;> rfl

theorem filter_ids_eq_iff (msgs : List MessageMailbox) (left right : MessageMailbox → Bool)
    (distinct : msgs.Pairwise fun left right => left.messageID ≠ right.messageID) :
    (msgs.filter left).map MessageMailbox.messageID = (msgs.filter right).map MessageMailbox.messageID ↔
      ∀ row ∈ msgs, left row = right row := by
  have nodup : (msgs.map MessageMailbox.messageID).Nodup := by
    rw [List.Nodup, List.pairwise_map]
    exact distinct
  have taken : ∀ (chosen : MessageMailbox → Bool) (row : MessageMailbox), row ∈ msgs →
      (row.messageID ∈ (msgs.filter chosen).map MessageMailbox.messageID ↔ chosen row = true) := by
    intro chosen row member
    rw [List.mem_map]
    constructor
    · rintro ⟨other, otherMember, same⟩
      rw [List.mem_filter] at otherMember
      rw [← List.inj_on_of_nodup_map nodup otherMember.1 member same]
      exact otherMember.2
    · intro chose
      exact ⟨row, List.mem_filter.mpr ⟨member, chose⟩, rfl⟩
  constructor
  · intro same row member
    rw [Bool.eq_iff_iff, ← taken left row member, ← taken right row member, same]
  · intro agree
    rw [List.filter_congr agree]

/-- `UID EXPUNGE` hands over exactly the deleted messages the set denotes in
just the mailboxes where reading the set forward is enough. -/
theorem uid_expunge_exact_iff_forward_set_suffices (faults : Faults) (store : MailStore)
    (session : Session) (sel : Selected) (text : Bytes) (set : NumSet)
    (selected : session.sel = some sel) (may : MayExpunge faults store session sel)
    (narrow : ∀ row ∈ sel.msgs, row.uid ≤ maxNumber)
    (accepted : parseNumSetString text = some set) :
    (handleEXPUNGE faults store session true (some set)).handed = namedDeleted text sel ↔
      ForwardSetSuffices text set sel := by
  rw [expunge_hands_chosen faults store session sel true (some set) selected may, namedDeleted,
    filter_ids_eq_iff _ _ _ sel.distinct]
  have sound : ∀ row ∈ sel.msgs, ReadsForward sel set row →
      Denotes text (highestUID sel.msgs) row.uid := fun row member =>
    reads_forward_denotes sel text set row accepted member narrow
  have pointwise : ∀ row ∈ sel.msgs,
      (expungeChosen (uidFilter sel true (some set)) row =
        decide (isDeleted row ∧ Denotes text (highestUID sel.msgs) row.uid)) ↔
      (isDeleted row = true →
        (((∀ row ∈ sel.msgs, ¬ReadsForward sel set row) ∨ ReadsForward sel set row) ↔
          Denotes text (highestUID sel.msgs) row.uid)) := by
    intro row member
    rw [expungeChosen, decide_eq_decide, uid_filter_nil, mem_uid_filter sel set row member]
    exact and_congr_right_iff
  rw [forall₂_congr pointwise]
  constructor
  · intro agree
    by_cases reached : ∃ row ∈ sel.msgs, ReadsForward sel set row
    · refine Or.inl ⟨reached, ?_⟩
      intro row member deleted denoted
      rcases (agree row member deleted).mpr denoted with none | forward
      · obtain ⟨other, otherMember, forward⟩ := reached
        exact absurd forward (none other otherMember)
      · exact forward
    · have none : ∀ row ∈ sel.msgs, ¬ReadsForward sel set row := by
        intro row member forward
        exact reached ⟨row, member, forward⟩
      refine Or.inr ⟨none, ?_⟩
      intro row member deleted
      exact (agree row member deleted).mp (Or.inl none)
  · rintro (⟨⟨some, someMember, someForward⟩, covers⟩ | ⟨none, denoted⟩) row member deleted
    · constructor
      · rintro (none | forward)
        · exact absurd someForward (none some someMember)
        · exact sound row member forward
      · intro named
        exact Or.inr (covers row member deleted named)
    · constructor
      · intro _
        exact denoted row member deleted
      · intro _
        exact Or.inl none

def twoMessages : MailStore where
  mailboxes := [{ id := 1, principalID := 7, name := ascii "INBOX", uidNext := 3 }]
  members :=
    [{ messageID := 1, mailboxID := 1, uid := 1, flags := MessageFlags.deleted },
      { messageID := 2, mailboxID := 1, uid := 2 }]
  nextMessageID := 3
  mailboxesDistinct := by decide
  membersDistinct := by decide
  uidsAscend := by decide
  uidsIssued := by decide
  uidsPositive := by decide
  countersPositive := by decide
  messagesIssued := by decide

def noFaults : Faults := fun _ => false

def twoSelected : Selected where
  id := 1
  uidValidity := 1
  uidNext := 3
  msgs := twoMessages.members
  readOnly := false
  distinct := by decide

def twoSession : Session := { pid := 7, sel := some twoSelected }

/-- A set past the last message denotes nothing, and the deleted message goes. -/
theorem uid_expunge_of_missing_uid_removes_deleted :
    parseNumSetString (ascii "99") = some [⟨99, 99⟩] ∧ namedDeleted (ascii "99") twoSelected = [] ∧
      (handleEXPUNGE noFaults twoMessages twoSession true (some [⟨99, 99⟩])).handed = [1] := by
  decide +kernel

/-- The set `1:2` reads the same forward, and exactly the deleted message goes. -/
theorem uid_expunge_exact_for_ascending_range :
    (handleEXPUNGE noFaults twoMessages twoSession true (some [⟨1, 2⟩])).handed =
      namedDeleted (ascii "1:2") twoSelected := by
  refine (uid_expunge_exact_iff_forward_set_suffices noFaults twoMessages twoSession twoSelected
    (ascii "1:2") [⟨1, 2⟩] rfl ?_ ?_ ?_).mpr ?_
  · exact ⟨rfl, { id := 1, principalID := 7, name := ascii "INBOX",
                  uidNext := 3 }, by decide, by decide⟩
  · decide
  · decide +kernel
  · refine Or.inl ⟨⟨{ messageID := 2, mailboxID := 1, uid := 2 }, by decide, ?_⟩, ?_⟩
    · exact ⟨⟨1, 2⟩, by decide, by decide⟩
    · intro row member _ _
      simp only [twoSelected, twoMessages, List.mem_cons, List.not_mem_nil, or_false] at member
      rcases member with rfl | rfl
      · exact ⟨⟨1, 2⟩, by decide, by decide⟩
      · exact ⟨⟨1, 2⟩, by decide, by decide⟩

end Herold.Imap

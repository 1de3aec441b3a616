import Herold.Imap.SeqNumbers

/-!
# What a message set resolves to

`expandSet` turns a set into positions of the session's list. A range is read
from its first number up to its second, and `*` counts as the end of the mailbox
only in second place. So a range that is not written upwards names no message,
although the grammar gives it the messages between its ends.
-/

namespace Herold.Imap

open Herold.Go Herold.Store

/-- A list as the store hands it out: UIDs ascend, start at one and are below the
counter, which has 32 bits. -/
structure Snapshot (sel : Selected) : Prop where
  ascend : sel.msgs.Pairwise fun left right => left.uid < right.uid
  positive : ∀ row ∈ sel.msgs, 0 < row.uid
  issued : ∀ row ∈ sel.msgs, row.uid < sel.uidNext
  narrow : sel.uidNext ≤ maxNumber

theorem snapshot_length (sel : Selected) (snapshot : Snapshot sel) : sel.msgs.length < maxNumber := by
  -- the UIDs are distinct numbers from one to below the counter
  have distinct : (sel.msgs.map MessageMailbox.uid).Nodup := by
    rw [List.Nodup, List.pairwise_map]
    exact snapshot.ascend.imp Nat.ne_of_lt
  have inside : (sel.msgs.map MessageMailbox.uid) ⊆ List.range' 1 (maxNumber - 1) := by
    intro uid member
    obtain ⟨row, here, rfl⟩ := List.mem_map.mp member
    have low := snapshot.positive row here
    have high := snapshot.issued row here
    have narrow := snapshot.narrow
    rw [List.mem_range'_1]
    omega
  have bounded := (List.subperm_of_subset distinct inside).length_le
  rw [List.length_map, List.length_range'] at bounded
  have wide : 0 < maxNumber := by decide
  omega

def numberOf (byUID : Bool) (seq : Nat) (row : MessageMailbox) : Nat := if byUID then row.uid else seq

def largestNumber (byUID : Bool) (sel : Selected) : Nat :=
  if byUID then highestUID sel.msgs else sel.msgs.length

def DenotesPosition (text : Bytes) (sel : Selected) (byUID : Bool) (seq : Nat) : Prop :=
  ∃ row, messageAt sel seq = some row ∧
    Denotes text (largestNumber byUID sel) (numberOf byUID seq row)

def ResolvesText (text : Bytes) (sel : Selected) (byUID : Bool) (seqs : List Nat) : Prop :=
  seqs.Nodup ∧ ∀ seq, seq ∈ seqs ↔ DenotesPosition text sel byUID seq

/-- The range starts with a number, and that number is not above its end. -/
def SetRange.Upward (highest : Nat) (range : SetRange) : Prop :=
  ∃ start, range.first = .number start ∧ start ≤ range.last.value highest

/-- Every message that a range not written upwards denotes is also denoted by a
range of the set that is. -/
def UpwardSuffices (text : Bytes) (sel : Selected) (byUID : Bool) : Prop :=
  ∀ ranges, readSet text = some ranges → ∀ range ∈ ranges,
    ¬range.Upward (largestNumber byUID sel) → ∀ seq row, messageAt sel seq = some row →
      range.Denotes (largestNumber byUID sel) (numberOf byUID seq row) →
        ∃ other ∈ ranges, other.Upward (largestNumber byUID sel) ∧
          other.Denotes (largestNumber byUID sel) (numberOf byUID seq row)

theorem mem_expand_ranges_iff (positions : NumRange → List Nat) (set : NumSet) (out : List Nat)
    (seq : Nat) :
    seq ∈ expandRanges positions set out ↔ seq ∈ out ∨ ∃ range ∈ set, seq ∈ positions range := by
  refine ⟨mem_expand_ranges positions set out seq, ?_⟩
  induction set generalizing out with
  | nil =>
    rintro (before | ⟨range, member, _⟩)
    · exact before
    · simp at member
  | cons range set ih =>
    intro named
    apply ih
    by_cases before : seq ∈ out
    · exact Or.inl (List.mem_append_left _ before)
    rcases named with here | ⟨other, member, inside⟩
    · exact absurd here before
    rcases List.mem_cons.mp member with rfl | later
    · refine Or.inl (List.mem_append_right _ ?_)
      simp [inside, before]
    · exact Or.inr ⟨other, later, inside⟩

theorem message_at_bounds (sel : Selected) (seq : Nat) (row : MessageMailbox)
    (here : messageAt sel seq = some row) : 0 < seq ∧ seq ≤ sel.msgs.length ∧ row ∈ sel.msgs := by
  unfold messageAt at here
  split at here
  · simp at here
  · obtain ⟨inside, at_⟩ := List.getElem?_eq_some_iff.mp here
    refine ⟨by omega, by omega, ?_⟩
    rw [← at_]
    exact List.getElem_mem inside

theorem mem_seqs_in_range (count : Nat) (range : NumRange) (seq : Nat) :
    seq ∈ seqsInRange count range ↔
      0 < seq ∧ seq ≤ count ∧ range.start ≤ seq ∧ (range.stop = maxNumber ∨ seq ≤ range.stop) := by
  rw [seqsInRange, List.mem_range'_1]
  by_cases wide : range.stop = maxNumber
  · by_cases zero : range.start = 0
    · simp only [wide, zero, if_true, true_or, and_true]
      omega
    · simp only [wide, zero, if_true, if_false, true_or, and_true]
      omega
  · by_cases zero : range.start = 0
    · simp only [wide, zero, if_true, if_false, false_or]
      omega
    · simp only [wide, zero, if_false, false_or]
      omega

theorem mem_positions_where (sel : Selected) (chosen : MessageMailbox → Bool) (seq : Nat) :
    seq ∈ positionsWhere chosen sel.msgs ↔
      ∃ row, messageAt sel seq = some row ∧ chosen row = true := by
  rw [positionsWhere, List.mem_filterMap]
  constructor
  · rintro ⟨⟨row, place⟩, indexed, kept⟩
    simp only [Option.ite_none_right_eq_some, Option.some.injEq] at kept
    rw [← kept.2]
    exact ⟨row, message_at_indexed sel row place indexed, kept.1⟩
  · rintro ⟨row, here, kept⟩
    refine ⟨(row, seq), ?_, by simp [kept]⟩
    unfold messageAt at here
    split at here
    · simp at here
    · exact List.mk_mem_zipIdx_iff_le_and_getElem?_sub.mpr ⟨by omega, here⟩

/-- The range, as the loop of `expandSet` reads it, contains the number. -/
def RangeReads (byUID : Bool) (sel : Selected) (range : SetRange) (number : Nat) : Prop :=
  range.first.encoded ≤ number ∧
    (range.last.encoded = maxNumber →
      number ≤ (if byUID then highestIssued sel.uidNext else sel.msgs.length)) ∧
    (range.last.encoded ≠ maxNumber → number ≤ range.last.encoded)

theorem mem_expand_set (sel : Selected) (ranges : List SetRange) (byUID : Bool) (seq : Nat) :
    seq ∈ expandSet sel (ranges.map SetRange.encoded) byUID ↔
      ∃ row, messageAt sel seq = some row ∧
        ∃ range ∈ ranges, RangeReads byUID sel range (numberOf byUID seq row) := by
  cases byUID with
  | true =>
    simp only [expandSet, if_true, mem_expand_ranges_iff, List.not_mem_nil, false_or,
      List.mem_map, mem_positions_where, RangeReads, numberOf]
    constructor
    · rintro ⟨_, ⟨range, member, rfl⟩, row, here, inside⟩
      exact ⟨row, here, range, member, (uid_in_range_iff sel.uidNext range.encoded row).mp inside⟩
    · rintro ⟨row, here, range, member, inside⟩
      exact ⟨_, ⟨range, member, rfl⟩, row, here,
        (uid_in_range_iff sel.uidNext range.encoded row).mpr inside⟩
  | false =>
    simp only [expandSet, Bool.false_eq_true, if_false, mem_expand_ranges_iff, List.not_mem_nil,
      false_or, List.mem_map, mem_seqs_in_range, RangeReads, numberOf, SetRange.encoded]
    constructor
    · rintro ⟨_, ⟨range, member, rfl⟩, low, high, start, stop⟩
      refine ⟨sel.msgs[seq - 1], ?_, range, member, start, ?_⟩
      · rw [messageAt, if_neg (by omega)]
        exact List.getElem?_eq_getElem (by omega)
      · exact ⟨fun _ => high, stop.resolve_left⟩
    · rintro ⟨row, here, range, member, start, _, stop⟩
      obtain ⟨low, high, _⟩ := message_at_bounds sel seq row here
      refine ⟨_, ⟨range, member, rfl⟩, low, high, start, ?_⟩
      by_cases wide : range.last.encoded = maxNumber
      · exact Or.inl wide
      · exact Or.inr (stop wide)

/-- The numbers of a listed message, beside the ends the loop puts for `*`. -/
theorem number_bounds (sel : Selected) (snapshot : Snapshot sel) (byUID : Bool) (seq : Nat)
    (row : MessageMailbox) (here : messageAt sel seq = some row) :
    numberOf byUID seq row ≤ largestNumber byUID sel ∧ numberOf byUID seq row < maxNumber ∧
      numberOf byUID seq row ≤ (if byUID then highestIssued sel.uidNext else sel.msgs.length) := by
  obtain ⟨low, high, member⟩ := message_at_bounds sel seq row here
  cases byUID with
  | true =>
    have top := uid_le_highest sel.msgs row member
    have issued := snapshot.issued row member
    have narrow := snapshot.narrow
    have wide : maxNumber = 4294967295 := rfl
    simp only [numberOf, largestNumber, highestIssued, if_true]
    omega
  | false =>
    have count := snapshot_length sel snapshot
    simp only [numberOf, largestNumber, Bool.false_eq_true, if_false]
    omega

/-- The loop reads from a range the messages it denotes if it is written upwards,
and otherwise none. -/
theorem range_reads_iff (sel : Selected) (snapshot : Snapshot sel) (byUID : Bool) (seq : Nat)
    (row : MessageMailbox) (here : messageAt sel seq = some row) (range : SetRange) :
    RangeReads byUID sel range (numberOf byUID seq row) ↔
      range.Upward (largestNumber byUID sel) ∧
        range.Denotes (largestNumber byUID sel) (numberOf byUID seq row) := by
  obtain ⟨below, narrow, ends⟩ := number_bounds sel snapshot byUID seq row here
  obtain ⟨first, last⟩ := range
  unfold RangeReads SetRange.Upward SetRange.Denotes
  cases first with
  | star =>
    simp only [SetTerm.encoded, reduceCtorEq, false_and, exists_false, iff_false]
    omega
  | number start =>
    cases last with
    | star =>
      simp only [SetTerm.encoded, SetTerm.value, SetTerm.number.injEq]
      constructor
      · rintro ⟨low, _⟩
        exact ⟨⟨start, rfl, by omega⟩, by omega⟩
      · rintro ⟨⟨_, rfl, _⟩, low, _⟩
        exact ⟨by omega, fun _ => ends, fun wide => absurd rfl wide⟩
    | number stop =>
      simp only [SetTerm.encoded, SetTerm.value, SetTerm.number.injEq]
      constructor
      · rintro ⟨low, _, high⟩
        have top : numberOf byUID seq row ≤ stop := by
          by_cases wide : stop = maxNumber
          · omega
          · exact high wide
        exact ⟨⟨start, rfl, by omega⟩, by omega⟩
      · rintro ⟨⟨_, rfl, _⟩, low, high⟩
        exact ⟨by omega, fun _ => ends, fun _ => by omega⟩

theorem mem_expand_set_upward (sel : Selected) (snapshot : Snapshot sel) (ranges : List SetRange)
    (byUID : Bool) (seq : Nat) :
    seq ∈ expandSet sel (ranges.map SetRange.encoded) byUID ↔
      ∃ row, messageAt sel seq = some row ∧ ∃ range ∈ ranges,
        range.Upward (largestNumber byUID sel) ∧
          range.Denotes (largestNumber byUID sel) (numberOf byUID seq row) := by
  rw [mem_expand_set]
  constructor
  · rintro ⟨row, here, range, member, reads⟩
    exact ⟨row, here, range, member, (range_reads_iff sel snapshot byUID seq row here range).mp reads⟩
  · rintro ⟨row, here, range, member, named⟩
    exact ⟨row, here, range, member, (range_reads_iff sel snapshot byUID seq row here range).mpr named⟩

/-- A set resolves to the messages its text denotes exactly when the ranges that
are written upwards denote them all. -/
theorem expand_set_resolves_iff (sel : Selected) (snapshot : Snapshot sel) (text : Bytes)
    (set : NumSet) (byUID : Bool) (parsed : parseNumSetString text = some set) :
    ResolvesText text sel byUID (expandSet sel set byUID) ↔ UpwardSuffices text sel byUID := by
  rw [parse_num_set_encodes] at parsed
  obtain ⟨ranges, readable, rfl⟩ := Option.map_eq_some_iff.mp parsed
  have onlyRanges : ∀ others, readSet text = some others → others = ranges := by
    intro others again
    rw [readable, Option.some.injEq] at again
    exact again.symm
  constructor
  · rintro ⟨_, exact⟩ others again range member _ seq row here denoted
    obtain rfl := onlyRanges others again
    have named := (exact seq).mpr ⟨row, here, others, readable, range, member, denoted⟩
    obtain ⟨found, there, other, listed, upward⟩ :=
      (mem_expand_set_upward sel snapshot others byUID seq).mp named
    rw [here, Option.some.injEq] at there
    subst there
    exact ⟨other, listed, upward⟩
  · intro suffices_
    refine ⟨expand_set_nodup sel _ byUID, ?_⟩
    intro seq
    rw [mem_expand_set_upward sel snapshot]
    constructor
    · rintro ⟨row, here, range, member, _, denoted⟩
      exact ⟨row, here, ranges, readable, range, member, denoted⟩
    · rintro ⟨row, here, others, again, range, member, denoted⟩
      obtain rfl := onlyRanges others again
      refine ⟨row, here, ?_⟩
      by_cases upward : range.Upward (largestNumber byUID sel)
      · exact ⟨range, member, upward, denoted⟩
      · exact suffices_ others readable range member upward seq row here denoted

theorem two_selected_snapshot : Snapshot twoSelected where
  ascend := by decide
  positive := by decide
  issued := by decide
  narrow := by decide

theorem ascending_set_resolves :
    ResolvesText (ascii "1:*") twoSelected true (expandSet twoSelected [⟨1, maxNumber⟩] true) := by
  refine (expand_set_resolves_iff twoSelected two_selected_snapshot (ascii "1:*") [⟨1, maxNumber⟩]
    true (by decide +kernel)).mpr ?_
  intro ranges readable range member backward
  have only : readSet (ascii "1:*") = some [⟨.number 1, .star⟩] := by decide +kernel
  rw [only, Option.some.injEq] at readable
  rw [← readable, List.mem_singleton] at member
  subst member
  exact absurd ⟨1, rfl, by decide⟩ backward

/-- Both `*` and `2:1` denote the last message and resolve to nothing. -/
theorem lone_star_and_reversed_range_resolve_to_nothing :
    (parseNumSetString (ascii "*") = some [⟨maxNumber, maxNumber⟩] ∧
      ¬ResolvesText (ascii "*") twoSelected false
        (expandSet twoSelected [⟨maxNumber, maxNumber⟩] false)) ∧
    (parseNumSetString (ascii "2:1") = some [⟨2, 1⟩] ∧
      ¬ResolvesText (ascii "2:1") twoSelected true (expandSet twoSelected [⟨2, 1⟩] true)) := by
  have lone : Denotes (ascii "*") 2 2 := by decide +kernel
  have reversed : Denotes (ascii "2:1") 2 2 := by decide +kernel
  refine ⟨⟨by decide +kernel, ?_⟩, by decide +kernel, ?_⟩
  · rintro ⟨_, exact⟩
    have named := (exact 2).mpr ⟨{ messageID := 2, mailboxID := 1, uid := 2 }, by decide, lone⟩
    exact absurd named (by decide)
  · rintro ⟨_, exact⟩
    have named := (exact 2).mpr ⟨{ messageID := 2, mailboxID := 1, uid := 2 }, by decide, reversed⟩
    exact absurd named (by decide)

end Herold.Imap

import Herold.Imap.Search

/-!
# Sets under the binary search

The library's `Contains` searches a set as if its ranges were sorted; the parser of
the session keeps them as they are written. A number of the set is found when the
ranges before one that holds it end below it and those after it do not.
-/

namespace Herold.Imap

open Herold.Go

def EndsBefore (set : NumSet) (number place : Nat) : Prop :=
  ((set[place]?).map fun range => range.less number).getD false = true

/-- The search ends at a place before which every range ends before the number, and
from which on none does, the last one aside. -/
theorem search_between_finds (set : NumSet) (number top place : Nat)
    (before : ∀ other < place, EndsBefore set number other)
    (after : ∀ other, place ≤ other → other < top → ¬EndsBefore set number other)
    (fuel low high : Nat) (enough : high - low ≤ fuel) (left : low ≤ place) (right : place ≤ high)
    (inside : high ≤ top) : searchBetween set number fuel low high = place := by
  induction fuel generalizing low high with
  | zero =>
    show low = place
    omega
  | succ fuel ih =>
    unfold searchBetween
    by_cases active : low < high
    · rw [if_pos active]
      by_cases ends : EndsBefore set number ((low + high) / 2)
      · have further : (low + high) / 2 < place := by
          by_contra behind
          exact after _ (Nat.le_of_not_lt behind) (by omega) ends
        unfold EndsBefore at ends
        simp only [ends, if_true]
        exact ih _ high (by omega) further right inside
      · have nearer : place ≤ (low + high) / 2 := by
          by_contra ahead
          exact ends (before _ (Nat.lt_of_not_le ahead))
        unfold EndsBefore at ends
        simp only [ends]
        exact ih low _ (by omega) left nearer (by omega)
    · rw [if_neg active]
      omega

/-- The range ends below the number; an end of zero is no number. -/
def SetRange.EndsBelow (highest number : Nat) (range : SetRange) : Prop :=
  0 < range.last.value highest ∧ range.last.value highest < number

instance (highest number : Nat) (range : SetRange) : Decidable (range.EndsBelow highest number) :=
  inferInstanceAs (Decidable (_ ∧ _))

/-- A number that the set denotes lies in a range that is written upwards from a positive
number, the ranges before it end below the number and those after it do not, the last one
aside. For a number it does not denote, no range ends in zero but zero itself. -/
structure SetInOrder (highest number : Nat) (ranges : List SetRange) : Prop where
  inside : (∃ range ∈ ranges, range.Denotes highest number) → ∃ before start last after,
    ranges = before ++ ⟨.number start, last⟩ :: after ∧ 1 ≤ start ∧ start ≤ number ∧
      number ≤ last.value highest ∧ (∀ range ∈ before, range.EndsBelow highest number) ∧
        ∀ range ∈ after.dropLast, ¬range.EndsBelow highest number
  outside : (¬∃ range ∈ ranges, range.Denotes highest number) →
    ∀ range ∈ ranges, range.last = .number 0 → range.first = .number 0

def encodedSet (ranges : List SetRange) : NumSet := ranges.map SetRange.encoded

section
variable (highest number : Nat) (ranges : List SetRange)

theorem encoded_at (place : Nat) :
    (encodedSet ranges)[place]? = (ranges[place]?).map SetRange.encoded := by
  simp [encodedSet]

theorem encoded_less_iff (narrow : highest ≤ maxNumber) (inUse : number ≤ highest)
    (positive : 0 < number)
    (range : SetRange) : range.encoded.less number = true ↔ range.EndsBelow highest number := by
  have wide : maxNumber = 4294967295 := rfl
  simp only [NumRange.less, Bool.and_eq_true, Bool.or_eq_true, decide_eq_true_eq]
  obtain ⟨first, last⟩ := range
  cases last with
  | star =>
    simp only [SetRange.encoded, SetTerm.encoded, SetRange.EndsBelow, SetTerm.value]
    omega
  | number stop =>
    simp only [SetRange.encoded, SetTerm.encoded, SetRange.EndsBelow, SetTerm.value]
    omega

theorem ends_before_iff (narrow : highest ≤ maxNumber) (inUse : number ≤ highest)
    (positive : 0 < number)
    (place : Nat) : EndsBefore (encodedSet ranges) number place ↔
      ∃ range, ranges[place]? = some range ∧ range.EndsBelow highest number := by
  unfold EndsBefore
  rw [encoded_at]
  cases found : ranges[place]? with
  | none => simp
  | some range =>
    simp only [Option.map_some, Option.getD_some, Option.some.injEq, exists_eq_left']
    exact encoded_less_iff highest number narrow inUse positive range

/-- What the code finds in a range it denotes, unless the range ends in zero. -/
theorem encoded_denotes (narrow : highest ≤ maxNumber) (inUse : number ≤ highest) (range : SetRange)
    (holds : range.encoded.contains number = true) (positive : 0 < number) :
    range.Denotes highest number ∨ range.last = .number 0 ∧ range.first ≠ .number 0 := by
  have wide : maxNumber = 4294967295 := rfl
  rw [NumRange.contains, if_neg (by omega)] at holds
  simp only [Bool.and_eq_true, Bool.or_eq_true, decide_eq_true_eq] at holds
  obtain ⟨⟨filled, low⟩, high⟩ := holds
  obtain ⟨first, last⟩ := range
  simp only [SetRange.encoded] at filled low high
  simp only [SetRange.Denotes, min_le_iff, le_max_iff]
  cases first with
  | star =>
    cases last with
    | star =>
      simp only [SetTerm.encoded, SetTerm.value] at low high ⊢
      omega
    | number stop =>
      simp only [SetTerm.encoded, SetTerm.value, SetTerm.number.injEq] at low high ⊢
      omega
  | number start =>
    cases last with
    | star =>
      simp only [SetTerm.encoded, SetTerm.value] at low high ⊢
      omega
    | number stop =>
      simp only [SetTerm.encoded, SetTerm.value, ne_eq, SetTerm.number.injEq] at filled low high ⊢
      omega

theorem set_contains_iff (narrow : highest ≤ maxNumber) (inUse : number ≤ highest)
    (sorted : SetInOrder highest number ranges) :
    setContains (encodedSet ranges) number = true ↔
      ∃ range ∈ ranges, range.Denotes highest number := by
  constructor
  · intro found
    by_contra never
    unfold setContains at found
    split at found
    case h_2 => cases found
    case h_1 encoded here =>
      simp only [Bool.and_eq_true, decide_eq_true_eq] at found
      rw [encoded_at, Option.map_eq_some_iff] at here
      obtain ⟨range, here, rfl⟩ := here
      have member := List.mem_of_getElem? here
      rcases encoded_denotes highest number narrow inUse range found.1.2
        (Nat.pos_of_ne_zero found.2) with
        denotes | ⟨ends, begins⟩
      · exact never ⟨range, member, denotes⟩
      · exact begins (sorted.outside never range member ends)
  · intro denoted
    obtain ⟨before, start, last, after, rfl, filled, low, high, earlier, later⟩ := sorted.inside denoted
    have positive : 0 < number := by omega
    have ends := ends_before_iff highest number (before ++ ⟨.number start, last⟩ :: after) narrow
      inUse positive
    have place := search_between_finds (encodedSet (before ++ ⟨.number start, last⟩ :: after)) number
      (before.length + after.length) before.length
      (fun other less => (ends other).mpr ⟨before[other], by
        rw [List.getElem?_append_left less, List.getElem?_eq_getElem less],
          earlier _ (List.getElem_mem less)⟩)
      (fun other behind less below => by
        obtain ⟨range, found, under⟩ := (ends other).mp below
        rw [List.getElem?_append_right behind] at found
        rcases Nat.eq_zero_or_pos (other - before.length) with here | further
        · rw [here, List.getElem?_cons_zero, Option.some.injEq] at found
          subst found
          exact absurd under.2 (Nat.not_lt.mpr high)
        · obtain ⟨next, spot⟩ := Nat.exists_eq_succ_of_ne_zero (Nat.pos_iff_ne_zero.mp further)
          rw [spot, Nat.succ_eq_add_one, List.getElem?_cons_succ] at found
          have kept : after.dropLast[next]? = some range := by
            rw [List.getElem?_dropLast, if_pos (by omega), found]
          exact later range (List.mem_of_getElem? kept) under)
      (encodedSet (before ++ ⟨.number start, last⟩ :: after)).length 0
      ((encodedSet (before ++ ⟨.number start, last⟩ :: after)).length - 1) (by omega) (Nat.zero_le _)
      (by simp [encodedSet]) (by simp [encodedSet])
    unfold setContains
    have reach : number ≤ last.encoded ∨ last.encoded = 0 := by
      have wide : maxNumber = 4294967295 := rfl
      cases last with
      | star => exact Or.inl (by simp only [SetTerm.encoded]; omega)
      | number stop => exact Or.inl high
    have stays : (⟨.number start, last⟩ : SetRange).encoded.less number = false := by
      rw [← Bool.not_eq_true, encoded_less_iff highest number narrow inUse positive]
      exact fun under => absurd under.2 (Nat.not_lt.mpr high)
    rw [place, encoded_at, List.getElem?_append_right (Nat.le_refl _), Nat.sub_self,
      List.getElem?_cons_zero]
    have begun : start ≠ 0 := by omega
    have holds : (⟨.number start, last⟩ : SetRange).encoded.contains number = true := by
      rw [NumRange.contains, if_neg (Nat.pos_iff_ne_zero.mp positive)]
      simp only [Bool.and_eq_true, Bool.or_eq_true, decide_eq_true_eq]
      exact ⟨⟨begun, low⟩, reach⟩
    simp [stays, holds, Nat.pos_iff_ne_zero.mp positive]

end

end Herold.Imap

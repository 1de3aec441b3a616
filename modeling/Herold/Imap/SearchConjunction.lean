import Herold.Imap.SearchKeys
import Herold.Imap.SearchIndex

/-!
# A list of keys is a conjunction

Every key has a meaning of its own, and a message should be found when it
satisfies each key of the list. `And` merges the criteria of the keys field by
field: it forgets `MODSEQ`, takes zero for the absence of a size or a date, puts
several sets into one list of alternatives and lets a later key undo `SMALLER`.
-/

namespace Herold.Imap

open Herold.Go Herold.Store

def topUID (mailbox : List SearchMessage) : Nat := (mailbox.map SearchMessage.uid).foldr max 0

def denotedBy (ranges : List SetRange) (highest number : Nat) : Bool :=
  ranges.any fun range => range.Denotes highest number

section
variable (mailbox : List SearchMessage) (message : SearchMessage) (seq : Nat)

mutual

def satisfies : SearchKey → Bool
  | .flags have_ lack => have_.all (hasFlag message) && lack.all fun flag => !hasFlag message flag
  | .text key => heldInMemory message key
  | .larger number => number < (message.size : Int)
  | .smaller number => (message.size : Int) < number
  | .since date => date ≤ message.internalDate
  | .before date => message.internalDate < date
  | .on date => date ≤ message.internalDate && message.internalDate < date + 86400
  | .sentSince date => date ≤ message.envelope.date
  | .sentBefore date => message.envelope.date < date
  | .uid ranges => denotedBy ranges (topUID mailbox) message.uid
  | .seq ranges => denotedBy ranges mailbox.length seq
  | .modSeq number => number ≤ message.modSeq
  | .not key => !satisfies key
  | .or left right => satisfies left || satisfies right
  | .group keys => satisfiesAll keys

def satisfiesAll : List SearchKey → Bool
  | [] => true
  | key :: keys => satisfies key && satisfiesAll keys

end

end

mutual

def seqSets : SearchKey → Nat
  | .seq _ => 1
  | .group keys => seqSetsAll keys
  | _ => 0

def seqSetsAll : List SearchKey → Nat
  | [] => 0
  | key :: keys => seqSets key + seqSetsAll keys

end

mutual

def uidSets : SearchKey → Nat
  | .uid _ => 1
  | .group keys => uidSetsAll keys
  | _ => 0

def uidSetsAll : List SearchKey → Nat
  | [] => 0
  | key :: keys => uidSets key + uidSetsAll keys

end

mutual

/-- The key is `SMALLER`, or a group whose last key is. -/
def endsInSmaller : SearchKey → Bool
  | .smaller _ => true
  | .group keys => lastIsSmaller keys
  | _ => false

def lastIsSmaller : List SearchKey → Bool
  | [] => false
  | [key] => endsInSmaller key
  | _ :: keys => lastIsSmaller keys

end

def SearchKey.isModSeq : SearchKey → Bool
  | .modSeq _ => true
  | _ => false

/-- A list of keys that `And` does not lose anything of: no `MODSEQ`, one set of each
kind at most, and nothing but `SMALLER` after a `SMALLER`. -/
structure MergesWell (keys : List SearchKey) : Prop where
  modSeq : ∀ key ∈ keys, key.isModSeq = false
  seqSets : seqSetsAll keys ≤ 1
  uidSets : uidSetsAll keys ≤ 1
  smaller : keys.Pairwise fun left right => endsInSmaller left = true → endsInSmaller right = true

section
variable (mailbox : List SearchMessage)

mutual

/-- Sizes are positive, dates are not the zero time, sets are in order, and the keys
of each group merge well. -/
def Orderly : SearchKey → Prop
  | .flags _ _ | .text _ | .modSeq _ => True
  | .larger number | .smaller number => 0 < number
  | .since date | .before date | .sentSince date | .sentBefore date => date ≠ 0
  | .on date => date ≠ 0 ∧ date + 86400 ≠ 0
  | .uid ranges => ∀ message ∈ mailbox, SetInOrder (topUID mailbox) message.uid ranges
  | .seq ranges => ∀ seq, 1 ≤ seq → seq ≤ mailbox.length → SetInOrder mailbox.length seq ranges
  | .not key => Orderly key
  | .or left right => Orderly left ∧ Orderly right
  | .group keys => MergesWell keys ∧ EachOrderly keys

def EachOrderly : List SearchKey → Prop
  | [] => True
  | key :: keys => Orderly key ∧ EachOrderly keys

end

end

/-- What the criteria of a list have collected, beside what is still to come. -/
structure Collected (criteria : SearchCriteria) (seqCount uidCount : Nat) (bounded : Bool) : Prop where
  seqNum : criteria.own.seqNum.length = seqCount
  uid : criteria.own.uid.length = uidCount
  larger : 0 ≤ criteria.own.larger
  smaller : 0 ≤ criteria.own.smaller
  bounded : criteria.own.smaller ≠ 0 ↔ bounded = true

theorem any_or_empty_append {Item : Type} (test : Item → Bool) (left right : List Item)
    (one : left = [] ∨ right = []) :
    ((left ++ right).isEmpty || (left ++ right).any test) =
      ((left.isEmpty || left.any test) && (right.isEmpty || right.any test)) := by
  rcases one with rfl | rfl
  · simp
  · simp

theorem since_merges (date left right : Int) :
    (!(decide (intersectSince left right ≠ 0) && decide (date < intersectSince left right))) =
      ((!(decide (left ≠ 0) && decide (date < left))) &&
        !(decide (right ≠ 0) && decide (date < right))) := by
  unfold intersectSince
  rw [Bool.eq_iff_iff]
  split
  · simp_all
  · split
    · simp_all
    · split <;> simp only [Bool.and_eq_true, Bool.not_eq_true', Bool.and_eq_false_iff,
        decide_eq_false_iff_not] <;> omega

theorem before_merges (date left right : Int) :
    (!(decide (intersectBefore left right ≠ 0) && !decide (date < intersectBefore left right))) =
      ((!(decide (left ≠ 0) && !decide (date < left))) &&
        !(decide (right ≠ 0) && !decide (date < right))) := by
  unfold intersectBefore
  rw [Bool.eq_iff_iff]
  split
  · simp_all
  · split
    · simp_all
    · split <;> simp only [Bool.and_eq_true, Bool.not_eq_true', Bool.and_eq_false_iff,
        Bool.not_eq_false', decide_eq_true_eq, decide_eq_false_iff_not] <;> omega

theorem larger_merges (size left right : Int) (leftSign : 0 ≤ left) (rightSign : 0 ≤ right) :
    (!(decide (0 < (if left = 0 ∨ left < right then right else left)) &&
        decide (size ≤ (if left = 0 ∨ left < right then right else left)))) =
      ((!(decide (0 < left) && decide (size ≤ left))) &&
        !(decide (0 < right) && decide (size ≤ right))) := by
  rw [Bool.eq_iff_iff]
  split <;> simp only [Bool.and_eq_true, Bool.not_eq_true', Bool.and_eq_false_iff,
    decide_eq_false_iff_not] <;> omega

theorem smaller_merges (size left right : Int) (leftSign : 0 ≤ left) (rightSign : 0 ≤ right)
    (kept : left ≠ 0 → right ≠ 0) :
    (!(decide (0 < (if left = 0 ∨ right < left then right else left)) &&
        decide ((if left = 0 ∨ right < left then right else left) ≤ size))) =
      ((!(decide (0 < left) && decide (left ≤ size))) &&
        !(decide (0 < right) && decide (right ≤ size))) := by
  rw [Bool.eq_iff_iff]
  split <;> simp only [Bool.and_eq_true, Bool.not_eq_true', Bool.and_eq_false_iff,
    decide_eq_false_iff_not] <;> omega

theorem text_keys_merge (test : TextKey → Bool) (left right : SearchFields) :
    (left.and right).textKeys.all test = (left.textKeys.all test && right.textKeys.all test) := by
  simp only [SearchFields.textKeys, SearchFields.and, List.map_append, List.all_append]
  ac_rfl

structure Compatible (left right : SearchFields) : Prop where
  seqNum : left.seqNum = [] ∨ right.seqNum = []
  uid : left.uid = [] ∨ right.uid = []
  largerLeft : 0 ≤ left.larger
  largerRight : 0 ≤ right.larger
  smallerLeft : 0 ≤ left.smaller
  smallerRight : 0 ≤ right.smaller
  smaller : left.smaller ≠ 0 → right.smaller ≠ 0
  modSeq : right.modSeq = none

section
variable (held : SearchMessage → TextKey → Bool) (message : SearchMessage) (seq : Nat)

theorem fields_merge (left right : SearchFields) (compatible : Compatible left right) :
    (left.and right).holds held message seq =
      (left.holds held message seq && right.holds held message seq) := by
  have seqNum : ((left.and right).seqNum.isEmpty ||
      (left.and right).seqNum.any fun set => setContains set seq) = _ :=
    any_or_empty_append (fun set => setContains set seq) left.seqNum right.seqNum compatible.seqNum
  have uid : ((left.and right).uid.isEmpty ||
      (left.and right).uid.any fun set => setContains set message.uid) = _ :=
    any_or_empty_append (fun set => setContains set message.uid) left.uid right.uid compatible.uid
  have since : (!((left.and right).since ≠ 0 && message.internalDate < (left.and right).since)) = _ :=
    since_merges message.internalDate left.since right.since
  have before : (!((left.and right).before ≠ 0 &&
    !(message.internalDate < (left.and right).before))) = _ :=
    before_merges message.internalDate left.before right.before
  have sentSince :
      (!((left.and right).sentSince ≠ 0 && message.envelope.date < (left.and right).sentSince)) = _ :=
    since_merges message.envelope.date left.sentSince right.sentSince
  have sentBefore :
      (!((left.and right).sentBefore ≠ 0 &&
        !(message.envelope.date < (left.and right).sentBefore))) = _ :=
    before_merges message.envelope.date left.sentBefore right.sentBefore
  have larger :
      (!(0 < (left.and right).larger && (message.size : Int) ≤ (left.and right).larger)) = _ :=
    larger_merges message.size left.larger right.larger compatible.largerLeft compatible.largerRight
  have smaller :
      (!(0 < (left.and right).smaller && (left.and right).smaller ≤ (message.size : Int))) = _ :=
    smaller_merges message.size left.smaller right.smaller compatible.smallerLeft
      compatible.smallerRight compatible.smaller
  have flag : (left.and right).flag.all (hasFlag message) = _ := List.all_append
  have notFlag : (left.and right).notFlag.all (fun flag => !hasFlag message flag) = _ := List.all_append
  have modSeq : (left.and right).modSeq = left.modSeq := rfl
  have text := text_keys_merge (held message) left right
  unfold SearchFields.holds
  rw [seqNum, uid, since, before, sentSince, sentBefore, larger, smaller, flag, notFlag, modSeq, text,
    compatible.modSeq, Option.all_none, Bool.and_true]
  ac_rfl

theorem none_holds_append (left right : List SearchCriteria) :
    noneHolds held message seq (left ++ right) =
      (noneHolds held message seq left && noneHolds held message seq right) := by
  induction left with
  | nil => rfl
  | cons criteria left ih => rw [List.cons_append, noneHolds, noneHolds, ih, Bool.and_assoc]

theorem each_holds_append (left right : List (SearchCriteria × SearchCriteria)) :
    eachHolds held message seq (left ++ right) =
      (eachHolds held message seq left && eachHolds held message seq right) := by
  induction left with
  | nil => rfl
  | cons pair left ih =>
    obtain ⟨one, two⟩ := pair
    rw [List.cons_append, eachHolds, eachHolds, ih, Bool.and_assoc]

theorem eval_merge (left right : SearchCriteria) (compatible : Compatible left.own right.own) :
    evalBy held message seq (left.and right) =
      (evalBy held message seq left && evalBy held message seq right) := by
  obtain ⟨leftOwn, leftNot, leftOr⟩ := left
  obtain ⟨rightOwn, rightNot, rightOr⟩ := right
  simp only [SearchCriteria.own] at compatible
  simp only [SearchCriteria.and, SearchCriteria.own, SearchCriteria.not, SearchCriteria.or, evalBy,
    fields_merge held message seq leftOwn rightOwn compatible, none_holds_append, each_holds_append]
  ac_rfl

end

theorem and_own (left right : SearchCriteria) : (left.and right).own = left.own.and right.own := rfl

theorem collected_and (left right : SearchCriteria) (leftSeq leftUid rightSeq rightUid : Nat)
    (leftBounded rightBounded : Bool) (first : Collected left leftSeq leftUid leftBounded)
    (second : Collected right rightSeq rightUid rightBounded) :
    Collected (left.and right) (leftSeq + rightSeq) (leftUid + rightUid) rightBounded where
  seqNum := by
    rw [← first.seqNum, ← second.seqNum]
    exact List.length_append
  uid := by
    rw [← first.uid, ← second.uid]
    exact List.length_append
  larger := by
    have one := first.larger
    have two := second.larger
    simp only [and_own, SearchFields.and]
    split
    · exact two
    · exact one
  smaller := by
    have one := first.smaller
    have two := second.smaller
    simp only [and_own, SearchFields.and]
    split
    · exact two
    · exact one
  bounded := by
    rw [← second.bounded]
    have one := first.smaller
    have two := second.smaller
    simp only [and_own, SearchFields.and]
    split <;> omega

theorem collected_nothing : Collected (.mk {} [] []) 0 0 false where
  seqNum := rfl
  uid := rfl
  larger := Int.le_refl 0
  smaller := Int.le_refl 0
  bounded := by simp [SearchCriteria.own]

section

variable (mailbox : List SearchMessage) (keys : List SearchKey) (key : SearchKey)

theorem collected_merge (start : SearchCriteria) (seqCount uidCount : Nat)
    (bounded : Bool) (begun : Collected start seqCount uidCount bounded)
    (each : ∀ key ∈ keys, Collected key.criteria (seqSets key) (uidSets key) (endsInSmaller key)) :
    Collected ((allCriteria keys).foldl SearchCriteria.and start) (seqCount + seqSetsAll keys)
      (uidCount + uidSetsAll keys) (if keys = [] then bounded else lastIsSmaller keys) := by
  induction keys generalizing start seqCount uidCount bounded with
  | nil => exact begun
  | cons key keys ih =>
    have here := each key List.mem_cons_self
    have next := ih _ _ _ _ (collected_and start key.criteria seqCount uidCount (seqSets key)
      (uidSets key) bounded (endsInSmaller key) begun here)
      fun other member => each other (List.mem_cons_of_mem _ member)
    have last : (if keys = [] then endsInSmaller key else lastIsSmaller keys) =
        (if key :: keys = [] then bounded else lastIsSmaller (key :: keys)) := by
      cases keys with
      | nil => simp [lastIsSmaller]
      | cons second keys => simp [lastIsSmaller]
    rw [← last, seqSetsAll, uidSetsAll, ← Nat.add_assoc, ← Nat.add_assoc]
    exact next

theorem merged_modseq (criteria : List SearchCriteria) (start : SearchCriteria)
    (empty : start.own.modSeq = none) :
      (criteria.foldl SearchCriteria.and start).own.modSeq = none := by
  induction criteria generalizing start with
  | nil => exact empty
  | cons first criteria ih => exact ih _ empty

/-- A key that is not `MODSEQ` leaves the field empty. -/
theorem key_modseq (other : key.isModSeq = false) : key.criteria.own.modSeq = none := by
  cases key with
  | modSeq number => simp [SearchKey.isModSeq] at other
  | group keys =>
    rw [SearchKey.criteria]
    exact merged_modseq _ _ rfl
  | text found =>
    cases found <;> (rw [SearchKey.criteria]; rfl)
  | _ => (rw [SearchKey.criteria]; rfl)

theorem collected_leaf (own : SearchFields) (not : List SearchCriteria)
    (or : List (SearchCriteria × SearchCriteria)) (larger : 0 ≤ own.larger) (smaller : 0 ≤ own.smaller)
    (bounded : Bool) (bound : own.smaller ≠ 0 ↔ bounded = true) :
    Collected (.mk own not or) own.seqNum.length own.uid.length bounded :=
  ⟨rfl, rfl, larger, smaller, bound⟩

theorem single_collected (orderly : Orderly mailbox key) (single : ∀ keys, key ≠ .group keys) :
    Collected key.criteria (seqSets key) (uidSets key) (endsInSmaller key) := by
  have zero : (0 : Int) ≤ 0 := Int.le_refl 0
  have unbounded : (0 : Int) ≠ 0 ↔ false = true := by simp
  cases key with
  | group keys => exact absurd rfl (single keys)
  | larger number => exact collected_leaf { larger := number } [] [] (Int.le_of_lt orderly) zero _ unbounded
  | smaller number =>
    have positive : 0 < number := orderly
    exact collected_leaf { smaller := number } [] [] zero (Int.le_of_lt positive) true
      (by simp only [iff_true]; omega)
  | text key =>
    cases key with
    | header name value =>
      exact collected_leaf { header := [(name, value)] } [] [] zero zero _ unbounded
    | body value => exact collected_leaf { body := [value] } [] [] zero zero _ unbounded
    | text value => exact collected_leaf { text := [value] } [] [] zero zero _ unbounded
  | flags have_ lack =>
    exact collected_leaf { flag := have_, notFlag := lack } [] [] zero zero _ unbounded
  | since date => exact collected_leaf { since := date } [] [] zero zero _ unbounded
  | before date => exact collected_leaf { before := date } [] [] zero zero _ unbounded
  | on date =>
    exact collected_leaf { since := date, before := date + 86400 } [] [] zero zero _ unbounded
  | sentSince date => exact collected_leaf { sentSince := date } [] [] zero zero _ unbounded
  | sentBefore date => exact collected_leaf { sentBefore := date } [] [] zero zero _ unbounded
  | uid ranges => exact collected_leaf { uid := [encodedSet ranges] } [] [] zero zero _ unbounded
  | seq ranges => exact collected_leaf { seqNum := [encodedSet ranges] } [] [] zero zero _ unbounded
  | modSeq number => exact collected_leaf { modSeq := some number } [] [] zero zero _ unbounded
  | not key => exact collected_leaf {} [key.criteria] [] zero zero _ unbounded
  | or left right => exact collected_leaf {} [] [(left.criteria, right.criteria)] zero zero _ unbounded

theorem group_collected (each : ∀ key ∈ keys,
    Collected key.criteria (seqSets key) (uidSets key) (endsInSmaller key)) :
    Collected (SearchKey.group keys).criteria (seqSets (.group keys)) (uidSets (.group keys))
      (endsInSmaller (.group keys)) := by
  have merged := collected_merge keys _ 0 0 false collected_nothing each
  rw [Nat.zero_add, Nat.zero_add] at merged
  have last : (if keys = [] then false else lastIsSmaller keys) = endsInSmaller (.group keys) := by
    cases keys with
    | nil => rfl
    | cons key keys => rfl
  rw [last] at merged
  exact merged

def SearchKey.isLeaf : SearchKey → Bool
  | .not _ | .or _ _ | .group _ => false
  | _ => true

theorem SearchKey.induction {motive : SearchKey → Prop} (leaf : ∀ key, key.isLeaf = true → motive key)
    (not : ∀ key, motive key → motive (.not key))
    (or : ∀ left right, motive left → motive right → motive (.or left right))
    (group : ∀ keys, (∀ key ∈ keys, motive key) → motive (.group keys)) (key : SearchKey) :
    motive key := by
  refine @SearchKey.rec motive (fun keys => ∀ key ∈ keys, motive key) (fun _ _ => leaf _ rfl)
    (fun _ => leaf _ rfl) (fun _ => leaf _ rfl) (fun _ => leaf _ rfl) (fun _ => leaf _ rfl)
    (fun _ => leaf _ rfl) (fun _ => leaf _ rfl) (fun _ => leaf _ rfl) (fun _ => leaf _ rfl)
    (fun _ => leaf _ rfl) (fun _ => leaf _ rfl) (fun _ => leaf _ rfl) not or group ?_ ?_ key
  · intro key member
    exact absurd member List.not_mem_nil
  · intro first keys here later key member
    rcases List.mem_cons.mp member with rfl | among
    · exact here
    · exact later key among

theorem each_orderly (orderly : EachOrderly mailbox keys) : ∀ key ∈ keys, Orderly mailbox key := by
  induction keys with
  | nil => simp
  | cons first keys ih =>
    intro key member
    rcases List.mem_cons.mp member with rfl | later
    · exact orderly.1
    · exact ih orderly.2 key later

theorem key_collected (orderly : Orderly mailbox key) :
    Collected key.criteria (seqSets key) (uidSets key) (endsInSmaller key) := by
  induction key using SearchKey.induction with
  | leaf key isLeaf =>
    apply single_collected mailbox key orderly
    rintro keys rfl
    simp [SearchKey.isLeaf] at isLeaf
  | not key _ =>
    apply single_collected mailbox _ orderly
    intro keys same
    simp at same
  | or left right _ _ =>
    apply single_collected mailbox _ orderly
    intro keys same
    simp at same
  | group keys each =>
    apply group_collected keys
    intro key member
    exact each key member (each_orderly mailbox keys orderly.2 key member)

end

section
variable (held : SearchMessage → TextKey → Bool) (mailbox : List SearchMessage)
  (message : SearchMessage) (seq : Nat)

/-- Merged criteria hold when what was merged before does and every key is
satisfied. -/
theorem merge_eval (keys : List SearchKey) (start : SearchCriteria) (seqCount uidCount : Nat)
    (bounded : Bool) (begun : Collected start seqCount uidCount bounded)
    (seqFits : seqCount + seqSetsAll keys ≤ 1) (uidFits : uidCount + uidSetsAll keys ≤ 1)
    (tail : bounded = true → ∀ key ∈ keys, endsInSmaller key = true)
    (smaller : keys.Pairwise fun left right => endsInSmaller left = true → endsInSmaller right = true)
    (modSeq : ∀ key ∈ keys, key.isModSeq = false)
    (collected : ∀ key ∈ keys, Collected key.criteria (seqSets key) (uidSets key) (endsInSmaller key))
    (each : ∀ key ∈ keys, evalBy held message seq key.criteria = satisfies mailbox message seq key) :
    evalBy held message seq ((allCriteria keys).foldl SearchCriteria.and start) =
      (evalBy held message seq start && satisfiesAll mailbox message seq keys) := by
  induction keys generalizing start seqCount uidCount bounded with
  | nil => simp [allCriteria, satisfiesAll]
  | cons key keys ih =>
    have here := collected key List.mem_cons_self
    rw [seqSetsAll] at seqFits
    rw [uidSetsAll] at uidFits
    have oneOf : ∀ (left right : List NumSet) (bound : left.length + right.length ≤ 1),
        left = [] ∨ right = [] := by
      intro left right bound
      rcases left with _ | ⟨set, left⟩
      · exact Or.inl rfl
      · refine Or.inr (List.length_eq_zero_iff.mp ?_)
        simp only [List.length_cons] at bound
        omega
    have compatible : Compatible start.own key.criteria.own := by
      refine ⟨oneOf _ _ ?_, oneOf _ _ ?_, begun.larger, here.larger, begun.smaller, here.smaller, ?_,
        key_modseq key (modSeq key List.mem_cons_self)⟩
      · rw [begun.seqNum, here.seqNum]
        omega
      · rw [begun.uid, here.uid]
        omega
      · intro filled
        exact here.bounded.mpr (tail (begun.bounded.mp filled) key List.mem_cons_self)
    obtain ⟨follows, apart⟩ := List.pairwise_cons.mp smaller
    have merged := collected_and start key.criteria _ _ _ _ bounded _ begun here
    have next := ih (start.and key.criteria) _ _ _ merged (by omega) (by omega)
      (fun ends other member => follows other member ends) apart
      (fun other member => modSeq other (List.mem_cons_of_mem _ member))
      (fun other member => collected other (List.mem_cons_of_mem _ member))
      fun other member => each other (List.mem_cons_of_mem _ member)
    rw [allCriteria, List.foldl_cons, next, eval_merge held message seq start _ compatible,
      each key List.mem_cons_self, satisfiesAll, Bool.and_assoc]

theorem empty_criteria_hold : evalBy held message seq (.mk {} [] []) = true := by
  simp [evalBy, noneHolds, eachHolds, SearchFields.holds, SearchFields.textKeys]

theorem list_eval (keys : List SearchKey) (well : MergesWell keys)
    (collected : ∀ key ∈ keys, Collected key.criteria (seqSets key) (uidSets key) (endsInSmaller key))
    (each : ∀ key ∈ keys, evalBy held message seq key.criteria = satisfies mailbox message seq key) :
    evalBy held message seq (searchCriteria keys) = satisfiesAll mailbox message seq keys := by
  have merged := merge_eval held mailbox message seq keys (.mk {} [] []) 0 0 false collected_nothing
    (by simpa using well.seqSets) (by simpa using well.uidSets) (by simp) well.smaller well.modSeq
    collected each
  rw [empty_criteria_hold, Bool.true_and] at merged
  exact merged

end

/-- A message of the mailbox with its sequence number, where both numbers have 32
bits. -/
structure Listed (mailbox : List SearchMessage) (message : SearchMessage) (seq : Nat) : Prop where
  member : message ∈ mailbox
  first : 1 ≤ seq
  seq : seq ≤ mailbox.length
  uid : message.uid ≤ topUID mailbox
  seqNarrow : mailbox.length ≤ maxNumber
  uidNarrow : topUID mailbox ≤ maxNumber

theorem uid_le_top (mailbox : List SearchMessage) (message : SearchMessage)
    (member : message ∈ mailbox) : message.uid ≤ topUID mailbox := by
  induction mailbox with
  | nil => simp at member
  | cons first mailbox ih =>
    have top : topUID (first :: mailbox) = max first.uid (topUID mailbox) := rfl
    rw [top]
    rcases List.mem_cons.mp member with rfl | among
    · exact Nat.le_max_left _ _
    · exact Nat.le_trans (ih among) (Nat.le_max_right _ _)

theorem top_uid_narrow (mailbox : List SearchMessage)
    (narrow : ∀ message ∈ mailbox, message.uid ≤ maxNumber) : topUID mailbox ≤ maxNumber := by
  induction mailbox with
  | nil => exact Nat.zero_le _
  | cons first mailbox ih =>
    have top : topUID (first :: mailbox) = max first.uid (topUID mailbox) := rfl
    rw [top]
    exact Nat.max_le.mpr ⟨narrow first List.mem_cons_self,
      ih fun message among => narrow message (List.mem_cons_of_mem first among)⟩

theorem decide_lt_eq (left right : Int) : decide (left < right) = !decide (right ≤ left) := by
  rw [Bool.eq_iff_iff]
  simp

section
variable (mailbox : List SearchMessage) (message : SearchMessage) (seq : Nat)

theorem set_key_eval (ranges : List SetRange) (highest number : Nat) (narrow : highest ≤ maxNumber)
    (inUse : number ≤ highest) (sorted : SetInOrder highest number ranges) :
    setContains (encodedSet ranges) number = denotedBy ranges highest number := by
  rw [Bool.eq_iff_iff, set_contains_iff highest number ranges narrow inUse sorted]
  simp [denotedBy]

theorem of_fields_eval (held : SearchMessage → TextKey → Bool) (own : SearchFields) :
    evalBy held message seq (ofFields own) = own.holds held message seq := by
  simp [ofFields, evalBy, noneHolds, eachHolds]

theorem leaf_eval (listed : Listed mailbox message seq) (key : SearchKey) (leaf : key.isLeaf = true)
    (orderly : Orderly mailbox key) :
    evalBy heldInMemory message seq key.criteria = satisfies mailbox message seq key := by
  cases key with
  | not key => simp [SearchKey.isLeaf] at leaf
  | or left right => simp [SearchKey.isLeaf] at leaf
  | group keys => simp [SearchKey.isLeaf] at leaf
  | uid ranges =>
    have same := set_key_eval ranges _ _ listed.uidNarrow listed.uid (orderly message listed.member)
    rw [SearchKey.criteria, of_fields_eval]
    simp [SearchFields.holds, SearchFields.textKeys, satisfies, same]
  | seq ranges =>
    have same := set_key_eval ranges _ _ listed.seqNarrow listed.seq
      (orderly seq listed.first listed.seq)
    rw [SearchKey.criteria, of_fields_eval]
    simp [SearchFields.holds, SearchFields.textKeys, satisfies, same]
  | text key =>
    cases key with
    | header name value =>
      rw [SearchKey.criteria, of_fields_eval]
      simp [SearchFields.holds, SearchFields.textKeys, satisfies]
    | body value =>
      rw [SearchKey.criteria, of_fields_eval]
      simp [SearchFields.holds, SearchFields.textKeys, satisfies]
    | text value =>
      rw [SearchKey.criteria, of_fields_eval]
      simp [SearchFields.holds, SearchFields.textKeys, satisfies]
  | larger number =>
    have positive : 0 < number := orderly
    rw [SearchKey.criteria, of_fields_eval]
    simp [SearchFields.holds, SearchFields.textKeys, satisfies, positive, decide_lt_eq]
  | smaller number =>
    have positive : 0 < number := orderly
    rw [SearchKey.criteria, of_fields_eval]
    simp [SearchFields.holds, SearchFields.textKeys, satisfies, positive, decide_lt_eq]
  | on date =>
    have given : date ≠ 0 ∧ date + 86400 ≠ 0 := orderly
    rw [SearchKey.criteria, of_fields_eval]
    simp [SearchFields.holds, SearchFields.textKeys, satisfies, given, decide_lt_eq]
  | since date =>
    have given : date ≠ 0 := orderly
    rw [SearchKey.criteria, of_fields_eval]
    simp [SearchFields.holds, SearchFields.textKeys, satisfies, given, decide_lt_eq]
  | before date =>
    have given : date ≠ 0 := orderly
    rw [SearchKey.criteria, of_fields_eval]
    simp [SearchFields.holds, SearchFields.textKeys, satisfies, given, decide_lt_eq]
  | sentSince date =>
    have given : date ≠ 0 := orderly
    rw [SearchKey.criteria, of_fields_eval]
    simp [SearchFields.holds, SearchFields.textKeys, satisfies, given, decide_lt_eq]
  | sentBefore date =>
    have given : date ≠ 0 := orderly
    rw [SearchKey.criteria, of_fields_eval]
    simp [SearchFields.holds, SearchFields.textKeys, satisfies, given, decide_lt_eq]
  | flags have_ lack =>
    rw [SearchKey.criteria, of_fields_eval]
    simp [SearchFields.holds, SearchFields.textKeys, satisfies]
  | modSeq number =>
    rw [SearchKey.criteria, of_fields_eval]
    simp [SearchFields.holds, SearchFields.textKeys, satisfies]

theorem key_eval (listed : Listed mailbox message seq) (key : SearchKey)
    (orderly : Orderly mailbox key) :
    evalBy heldInMemory message seq key.criteria = satisfies mailbox message seq key := by
  have blank := empty_criteria_hold heldInMemory message seq
  rw [evalBy, noneHolds, eachHolds, Bool.and_true, Bool.and_true] at blank
  induction key using SearchKey.induction with
  | leaf key isLeaf => exact leaf_eval mailbox message seq listed key isLeaf orderly
  | not key ih =>
    rw [SearchKey.criteria, evalBy, noneHolds, noneHolds, eachHolds, ih orderly, blank, satisfies]
    simp
  | or left right leftEval rightEval =>
    rw [SearchKey.criteria, evalBy, noneHolds, eachHolds, eachHolds, leftEval orderly.1,
      rightEval orderly.2, blank, satisfies]
    simp
  | group keys each =>
    have orderlyKeys := each_orderly mailbox keys orderly.2
    have merged := list_eval heldInMemory mailbox message seq keys orderly.1
      (fun key member => key_collected mailbox key (orderlyKeys key member))
      fun key member => each key member (orderlyKeys key member)
    rw [SearchKey.criteria, satisfies]
    exact merged

end

mutual

def textFree : SearchKey → Bool
  | .text _ => false
  | .not key => textFree key
  | .or left right => textFree left && textFree right
  | .group keys => allTextFree keys
  | _ => true

def allTextFree : List SearchKey → Bool
  | [] => true
  | key :: keys => textFree key && allTextFree keys

end

theorem any_has_text_append (left right : List SearchCriteria) :
    anyHasText (left ++ right) = (anyHasText left || anyHasText right) := by
  induction left with
  | nil => simp [anyHasText]
  | cons criteria left ih => rw [List.cons_append, anyHasText, anyHasText, ih, Bool.or_assoc]

theorem any_pair_has_text_append (left right : List (SearchCriteria × SearchCriteria)) :
    anyPairHasText (left ++ right) = (anyPairHasText left || anyPairHasText right) := by
  induction left with
  | nil => simp [anyPairHasText]
  | cons pair left ih =>
    obtain ⟨one, two⟩ := pair
    simp only [List.cons_append, anyPairHasText, ih, Bool.or_assoc]

theorem merged_text_free (left right : SearchCriteria) (first : hasTextPredicate left = false)
    (second : hasTextPredicate right = false) : hasTextPredicate (left.and right) = false := by
  obtain ⟨leftOwn, leftNot, leftOr⟩ := left
  obtain ⟨rightOwn, rightNot, rightOr⟩ := right
  rw [hasTextPredicate, Bool.or_eq_false_iff, Bool.or_eq_false_iff] at first second
  have own : (leftOwn.and rightOwn).hasText = false := by
    have one := first.1.1
    have two := second.1.1
    simp only [SearchFields.hasText, SearchFields.and, Bool.or_eq_false_iff, List.any_append,
      Bool.not_eq_false', List.isEmpty_iff] at one two ⊢
    simp only [one, two, List.append_nil, and_self]
  rw [SearchCriteria.and, hasTextPredicate]
  simp [SearchCriteria.own, SearchCriteria.not, SearchCriteria.or, own, any_has_text_append,
    any_pair_has_text_append, first, second]

theorem merged_list_text_free (criteria : List SearchCriteria) (start : SearchCriteria)
    (begun : hasTextPredicate start = false)
    (each : ∀ other ∈ criteria, hasTextPredicate other = false) :
    hasTextPredicate (criteria.foldl SearchCriteria.and start) = false := by
  induction criteria generalizing start with
  | nil => exact begun
  | cons first criteria ih =>
    apply ih (start.and first)
    · exact merged_text_free start first begun (each first List.mem_cons_self)
    · intro other among
      exact each other (List.mem_cons_of_mem first among)

theorem all_criteria_eq (keys : List SearchKey) : allCriteria keys = keys.map SearchKey.criteria := by
  induction keys with
  | nil => rfl
  | cons key keys ih => rw [allCriteria, ih, List.map_cons]

theorem all_text_free (keys : List SearchKey) (free : allTextFree keys = true) :
    ∀ key ∈ keys, textFree key = true := by
  induction keys with
  | nil => simp
  | cons first keys ih =>
    intro key member
    rw [allTextFree, Bool.and_eq_true] at free
    rcases List.mem_cons.mp member with rfl | later
    · exact free.1
    · exact ih free.2 key later

theorem empty_has_no_text : hasTextPredicate (.mk {} [] []) = false := by
  simp [hasTextPredicate, SearchFields.hasText, anyHasText, anyPairHasText]

theorem list_has_no_text (keys : List SearchKey)
    (each : ∀ key ∈ keys, hasTextPredicate key.criteria = false) :
    hasTextPredicate (searchCriteria keys) = false := by
  apply merged_list_text_free _ _ empty_has_no_text
  rw [all_criteria_eq]
  intro other among
  obtain ⟨key, member, rfl⟩ := List.mem_map.mp among
  exact each key member

theorem key_has_no_text (key : SearchKey) (free : textFree key = true) :
    hasTextPredicate key.criteria = false := by
  induction key using SearchKey.induction with
  | leaf key isLeaf =>
    cases key with
    | text key => simp [textFree] at free
    | not key => simp [SearchKey.isLeaf] at isLeaf
    | or left right => simp [SearchKey.isLeaf] at isLeaf
    | group keys => simp [SearchKey.isLeaf] at isLeaf
    | _ =>
      rw [SearchKey.criteria]
      exact empty_has_no_text
  | not key ih =>
    rw [textFree] at free
    rw [SearchKey.criteria, hasTextPredicate, anyHasText, ih free]
    simp [SearchFields.hasText, anyHasText, anyPairHasText]
  | or left right leftFree rightFree =>
    rw [textFree, Bool.and_eq_true] at free
    rw [SearchKey.criteria, hasTextPredicate, anyPairHasText, leftFree free.1, rightFree free.2]
    simp [SearchFields.hasText, anyHasText, anyPairHasText]
  | group keys each =>
    rw [textFree] at free
    rw [SearchKey.criteria]
    apply list_has_no_text
    intro key member
    exact each key member (all_text_free keys free key member)

theorem satisfies_all_iff (mailbox : List SearchMessage) (message : SearchMessage) (seq : Nat)
    (keys : List SearchKey) :
    satisfiesAll mailbox message seq keys = true ↔
      ∀ key ∈ keys, satisfies mailbox message seq key = true := by
  induction keys with
  | nil => simp [satisfiesAll]
  | cons key keys ih =>
    rw [satisfiesAll, Bool.and_eq_true, ih]
    simp

theorem mem_search_iff (index : Index) (fails : Bool) (mailbox : List SearchMessage)
    (criteria : SearchCriteria) (plain : hasTextPredicate criteria = false) (message : SearchMessage)
    (seq : Nat) (member : (message, seq) ∈ mailbox.zipIdx 1) :
    seq ∈ handleSEARCH index fails mailbox criteria ↔ evalSearch criteria message seq = true := by
  have all : candidates index fails mailbox criteria = none := by simp [candidates, plain]
  simp only [handleSEARCH, all, Option.all_none, Bool.true_and, List.mem_map]
  constructor
  · rintro ⟨⟨other, place⟩, kept, rfl⟩
    obtain ⟨inside, holds⟩ := List.mem_filter.mp kept
    rwa [zip_index_unique mailbox message other place member inside]
  · intro holds
    exact ⟨(message, seq), List.mem_filter.mpr ⟨member, holds⟩, rfl⟩

/-- The command with its line: what is parsed and merged is searched for. -/
def searchLine (index : Index) (fails : Bool) (mailbox : List SearchMessage) (line : Parser) :
    Option (List Nat) :=
  match parseSearchCriteriaList line with
  | .ok (keys, _) => some (handleSEARCH index fails mailbox (searchCriteria keys))
  | .error _ => none

/-- `SEARCH` finds the messages that satisfy every key, if the keys merge well. -/
theorem search_is_conjunction (index : Index) (fails : Bool) (mailbox : List SearchMessage)
    (line rest : Parser) (keys : List SearchKey)
    (accepted : parseSearchCriteriaList line = .ok (keys, rest)) (free : allTextFree keys = true)
    (count : mailbox.length ≤ maxNumber) (narrow : ∀ message ∈ mailbox, message.uid ≤ maxNumber)
    (well : MergesWell keys) (orderly : EachOrderly mailbox keys) :
    ∃ found, searchLine index fails mailbox line = some found ∧
      ∀ message seq, (message, seq) ∈ mailbox.zipIdx 1 →
        (seq ∈ found ↔ ∀ key ∈ keys, satisfies mailbox message seq key = true) := by
  refine ⟨handleSEARCH index fails mailbox (searchCriteria keys), by rw [searchLine, accepted], ?_⟩
  intro message seq member
  have place := List.mk_mem_zipIdx_iff_le_and_getElem?_sub.mp member
  have inside : message ∈ mailbox := List.mem_of_getElem? place.2
  have behind := (List.getElem?_eq_some_iff.mp place.2).1
  have listed : Listed mailbox message seq :=
    ⟨inside, by omega, by omega, uid_le_top mailbox message inside, count,
    top_uid_narrow mailbox narrow⟩
  have plain := list_has_no_text keys fun key given =>
    key_has_no_text key (all_text_free keys free key given)
  have each := each_orderly mailbox keys orderly
  rw [mem_search_iff index fails mailbox _ plain message seq member, ← satisfies_all_iff, evalSearch,
    list_eval heldInMemory mailbox message seq keys well
      (fun key given => key_collected mailbox key (each key given))
      fun key given => key_eval mailbox message seq listed key (each key given)]

def noIndex : Index := fun _ _ => false

def threeMessages : List SearchMessage :=
  [{ id := 1, uid := 1, size := 10, flags := MessageFlags.seen, modSeq := 1 },
    { id := 2, uid := 2, size := 20, modSeq := 2 },
    { id := 3, uid := 3, size := 900, flags := MessageFlags.seen, modSeq := 3 }]

theorem seen_and_smaller_found :
    ∃ found, searchLine noIndex false threeMessages { src := ascii "SEEN 1,1:2 SMALLER 100" } =
      some found ∧
      1 ∈ found := by
  have inOrder : ∀ seq, 1 ≤ seq → seq ≤ threeMessages.length →
      SetInOrder threeMessages.length seq [⟨.number 1, .number 1⟩, ⟨.number 1, .number 2⟩] := by
    intro seq low high
    refine ⟨fun denoted => ?_, fun _ => by decide⟩
    by_cases first : seq = 1
    · exact ⟨[], 1, .number 1, _, rfl, by decide, low, Nat.le_of_eq first, by simp, by simp⟩
    · have second : seq = 2 := by simp [SetRange.Denotes, SetTerm.value] at denoted; omega
      subst second
      exact ⟨[_], 1, .number 2, [], rfl, by decide, by decide, by decide, by decide, by simp⟩
  obtain ⟨found, ran, exact_⟩ := search_is_conjunction noIndex false threeMessages
    { src := ascii "SEEN 1,1:2 SMALLER 100" } { src := [] }
    [.flags [ascii "\\Seen"] [], .seq [⟨.number 1, .number 1⟩, ⟨.number 1, .number 2⟩], .smaller 100]
    rfl rfl (by decide) (by decide) ⟨by decide, by decide, by decide, by decide⟩
    ⟨trivial, inOrder, by show (0 : Int) < 100; decide, trivial⟩
  refine ⟨found, ran, (exact_
    { id := 1, uid := 1, size := 10, flags := MessageFlags.seen, modSeq := 1 } 1
    (by decide)).mpr (by decide)⟩

/-- `MODSEQ` is forgotten, `SMALLER` is undone by a key after it, two sets are
alternatives, and `*` names no message. -/
theorem merged_keys_lose_conditions :
    (parseSearchCriteriaList { src := ascii "MODSEQ 3" } = .ok ([.modSeq 3], { src := [] }) ∧
      handleSEARCH noIndex false threeMessages (searchCriteria [.modSeq 3]) = [1, 2, 3] ∧
      satisfies threeMessages { id := 1, uid := 1, size := 10,
                                flags := MessageFlags.seen, modSeq := 1 } 1
        (.modSeq 3) = false) ∧
    (handleSEARCH noIndex false threeMessages
        (searchCriteria [.smaller 100, .flags [ascii "\\Seen"] []]) = [1, 3]) ∧
    (handleSEARCH noIndex false threeMessages
        (searchCriteria [.seq [⟨.number 1, .number 1⟩], .seq [⟨.number 2, .number 2⟩]]) = [1, 2]) ∧
    (handleSEARCH noIndex false threeMessages (searchCriteria [.seq [⟨.star, .star⟩]]) = []) := by
  refine ⟨⟨rfl, by decide, by decide⟩, by decide, by decide, by decide⟩

end Herold.Imap

import Herold.Store.Footprint

/-!
# The ranks of labels

The `priority` column beside the message tables. Reordering a label and deleting one
share the loop that renumbers the ranked mailboxes of a principal.
-/

namespace Herold.Store

open Herold.Machine Tables

structure RankedTables where
  tables : Tables
  /-- The `priority` column of `mailboxes`. -/
  priority : MailboxID → Option Int := fun _ => none

namespace RankedTables

abbrev Entry := MailboxID × Int

/-- `ORDER BY priority ASC, id ASC`. -/
def Before (left right : Entry) : Prop := left.2 < right.2 ∨ left.2 = right.2 ∧ left.1 ≤ right.1

instance : DecidableRel Before := fun left right =>
  inferInstanceAs (Decidable (left.2 < right.2 ∨ left.2 = right.2 ∧ left.1 ≤ right.1))

def rankedMailboxPriorities (state : RankedTables) (principal : PrincipalID) (exclude : MailboxID) :
    List Entry :=
  ((state.tables.mailboxes.filter fun box => box.principalID = principal ∧ box.id ≠ exclude).filterMap
    fun box => (state.priority box.id).map fun priority => (box.id, priority)).insertionSort Before

def announce (principal : PrincipalID) (ids : List MailboxID) (tables : Tables) : Tables :=
  ids.foldl (fun tables id => tables.appendChange principal .mailbox id 0 .updated .user) tables

/-- The feed rows that say of each mailbox in turn that it was updated, numbered on
from the last row of the principal. -/
def updatedRows (principal : PrincipalID) (last : Nat) (ids : List MailboxID) : List FeedRow :=
  ids.mapIdx fun index id => ⟨⟨last + 1 + index, principal, .mailbox, id, 0, .updated⟩, .user⟩

def lastSeq (changes : List FeedRow) (principal : PrincipalID) : Nat :=
  ((changes.filter fun row => row.change.principalID = principal).map fun row =>
    row.change.seq).foldl max 0

/-- Nothing but the feed differs, which has one more row for each of the mailboxes. -/
def Announced (principal : PrincipalID) (ids : List MailboxID) (before after : Tables) : Prop :=
  after = { before with
    changes := before.changes ++ updatedRows principal (lastSeq before.changes principal) ids }

def setPriority (state : RankedTables) (principal : PrincipalID) (id : MailboxID)
    (priority : Option Int) :
    RankedTables where
  tables := announce principal [id] state.tables
  priority := Function.update state.priority id priority

/-- The loop over `ids` from the index it has reached. -/
def applyDenseMailboxPriorities (principal : PrincipalID) (oldOf : MailboxID → Option Int) :
    Nat → List MailboxID → RankedTables → RankedTables
  | _, [], state => state
  | index, id :: ids, state =>
    applyDenseMailboxPriorities principal oldOf (index + 1) ids
      (if oldOf id = some (index : Int) then state else state.setPriority principal id (some index))

def entryOf (entries : List Entry) (id : MailboxID) : Option Int :=
  (entries.find? fun entry => entry.1 = id).map Prod.snd

def clampRank (rank : Int) (others : Nat) : Nat :=
  let pos := if rank < 0 then 0 else rank
  (if (others : Int) < pos then (others : Int) else pos).toNat

def finalOrder (mailbox : MailboxID) (newRank : Option Int) (others : List MailboxID) :
    List MailboxID :=
  match newRank with
  | none => others
  | some rank =>
    let pos := clampRank rank others.length
    others.take pos ++ mailbox :: others.drop pos

def reorderMailboxPriority (state : RankedTables) (principal : PrincipalID) (mailbox : MailboxID)
    (newRank : Option Int) : Except MailError RankedTables := do
  let box ← require (state.tables.mailbox? mailbox)
  if box.principalID ≠ principal then .error .notFound
  else
    let others := state.rankedMailboxPriorities principal mailbox
    let current := state.priority mailbox
    let oldOf := fun id => if id = mailbox then current else entryOf others id
    let applied := applyDenseMailboxPriorities principal oldOf 0
      (finalOrder mailbox newRank (others.map Prod.fst)) state
    if newRank.isNone && current.isSome then .ok (applied.setPriority principal mailbox none)
    else .ok applied

/-- The state of a deletion before the labels that are left are renumbered. -/
def removed (state : RankedTables) (mailbox : MailboxID) (deleted : Tables) : RankedTables where
  tables := deleted
  priority := Function.update state.priority mailbox none

/-- `DeleteMailbox` with the renumbering of the labels that are left. -/
def deleteMailbox (state : RankedTables) (id : MailboxID) : Except MailError RankedTables := do
  let box ← require (state.tables.mailbox? id)
  let deleted ← state.tables.deleteMailbox id
  let removed := state.removed id deleted
  if (state.priority id).isSome then
    let others := removed.rankedMailboxPriorities box.principalID id
    .ok (applyDenseMailboxPriorities box.principalID (entryOf others) 0 (others.map Prod.fst) removed)
  else .ok removed

inductive RankCall where
  | reorder (principal : PrincipalID) (mailbox : MailboxID) (newRank : Option Int)
  | delete (mailbox : MailboxID)

def RankCall.apply (state : RankedTables) : RankCall → Except MailError RankedTables
  | .reorder principal mailbox newRank => state.reorderMailboxPriority principal mailbox newRank
  | .delete mailbox => state.deleteMailbox mailbox

end RankedTables

/-- A transaction on the tables and the ranks. -/
inductive RankedOperation where
  | write (write : Write)
  | label (call : RankedTables.RankCall)

def RankedOperation.apply (state : RankedTables) : RankedOperation → Except MailError RankedTables
  | .write change => do
      let tables ← change.apply state.tables
      .ok { state with tables }
  | .label call => call.apply state

/-- A transaction that fails is rolled back. -/
def RankedOperation.machine : Machine RankedTables RankedOperation where
  step state operation := some (match operation.apply state with
    | .ok after => after
    | .error _ => state)

namespace RankedTables

def owners (tables : Tables) : List (MailboxID × PrincipalID) :=
  tables.mailboxes.map fun box => (box.id, box.principalID)

def rank (state : RankedTables) (principal : PrincipalID) (id : MailboxID) : Option Int :=
  if (id, principal) ∈ owners state.tables then state.priority id else none

def position (order : List MailboxID) (id : MailboxID) : Option Int :=
  if id ∈ order then some (order.idxOf id : Int) else none

/-- The ranked mailboxes of a principal are those of the list, each at its place. -/
def Dense (state : RankedTables) (principal : PrincipalID) (order : List MailboxID) : Prop :=
  order.Nodup ∧ ∀ id, state.rank principal id = position order id

/-- The identifiers whose old value differs from their place in the list. -/
def moved (oldOf : MailboxID → Option Int) : Nat → List MailboxID → List MailboxID
  | _, [] => []
  | index, id :: ids => (if oldOf id = some (index : Int) then [] else [id]) ++
    moved oldOf (index + 1) ids

theorem moved_sublist (oldOf : MailboxID → Option Int) (index : Nat) (ids : List MailboxID) :
    (moved oldOf index ids).Sublist ids := by
  induction ids generalizing index with
  | nil => exact List.Sublist.refl []
  | cons id ids ih =>
    rw [moved]
    split
    · exact (ih (index + 1)).cons id
    · exact (ih (index + 1)).cons_cons id

theorem mem_moved (oldOf : MailboxID → Option Int) (index : Nat) (ids : List MailboxID)
    (distinct : ids.Nodup) (id : MailboxID) :
    id ∈ moved oldOf index ids ↔ id ∈ ids ∧ oldOf id ≠ some ((index + ids.idxOf id : Nat) : Int) := by
  induction ids generalizing index with
  | nil => simp [moved]
  | cons first ids ih =>
    obtain ⟨fresh, rest⟩ := List.nodup_cons.mp distinct
    rw [moved, List.mem_append, ih (index + 1) rest]
    by_cases same : id = first
    · subst same
      have absent : ¬id ∈ ids := fresh
      by_cases kept : oldOf id = some (index : Int)
      · simp [kept, absent]
      · simp [kept, absent]
    · have other : first ≠ id := fun equal => same equal.symm
      have shifted : index + 1 + ids.idxOf id = index + (first :: ids).idxOf id := by
        rw [List.idxOf_cons_ne _ other]
        omega
      rw [shifted]
      by_cases kept : oldOf first = some (index : Int)
      · simp [kept, same]
      · simp [kept, same]

/-- The loop gives every listed mailbox its place and announces those it moved. -/
theorem apply_dense (principal : PrincipalID) (oldOf : MailboxID → Option Int) (index : Nat)
    (ids : List MailboxID) (state : RankedTables) (distinct : ids.Nodup)
    (known : ∀ id ∈ ids, oldOf id = state.priority id) :
    (applyDenseMailboxPriorities principal oldOf index ids state).tables =
        announce principal (moved oldOf index ids) state.tables ∧
      ∀ id, (applyDenseMailboxPriorities principal oldOf index ids state).priority id =
        if id ∈ ids then some ((index + ids.idxOf id : Nat) : Int) else state.priority id := by
  induction ids generalizing index state with
  | nil => exact ⟨rfl, fun _ => by simp [applyDenseMailboxPriorities]⟩
  | cons first ids ih =>
    obtain ⟨fresh, rest⟩ := List.nodup_cons.mp distinct
    rw [applyDenseMailboxPriorities, moved]
    set next := if oldOf first = some (index : Int) then state
      else state.setPriority principal first (some index) with nextIs
    have here : next.priority first = some (index : Int) := by
      rw [nextIs]
      split
      case isTrue kept => rw [← known first List.mem_cons_self, kept]
      case isFalse => exact Function.update_self ..
    have elsewhere : ∀ id, id ≠ first → next.priority id = state.priority id := by
      intro id other
      rw [nextIs]
      split
      · rfl
      · exact Function.update_of_ne other ..
    obtain ⟨told, placed⟩ := ih (index + 1) next rest fun id member => by
      rw [elsewhere id fun same => fresh (same ▸ member)]
      exact known id (List.mem_cons_of_mem _ member)
    refine ⟨?_, fun id => ?_⟩
    · rw [told, nextIs]
      split
      · rfl
      · rfl
    · rw [placed id]
      by_cases same : id = first
      · subst same
        simp [fresh, here]
      · have other : first ≠ id := fun equal => same equal.symm
        rw [List.idxOf_cons_ne _ other, elsewhere id same]
        by_cases inside : id ∈ ids
        · simp only [inside, List.mem_cons, or_true, if_true]
          congr 1
          omega
        · simp [inside, same]

theorem mem_owners (tables : Tables) (id : MailboxID) (principal : PrincipalID) :
    (id, principal) ∈ owners tables ↔ ∃ box ∈ tables.mailboxes, box.id = id ∧
    box.principalID = principal := by
  simp [owners]

def Keyed (tables : Tables) : Prop := tables.mailboxes.Pairwise fun left right => left.id ≠ right.id

theorem owner_unique {tables : Tables} (keyed : Keyed tables) {id : MailboxID}
    {left right : PrincipalID}
    (leftOwns : (id, left) ∈ owners tables) (rightOwns : (id, right) ∈ owners tables) :
      left = right := by
  obtain ⟨first, firstMember, firstId, rfl⟩ := (mem_owners tables id left).mp leftOwns
  obtain ⟨second, secondMember, secondId, rfl⟩ := (mem_owners tables id right).mp rightOwns
  have distinct : (tables.mailboxes.map Mailbox.id).Nodup := List.pairwise_map.mpr keyed
  rw [List.inj_on_of_nodup_map distinct firstMember secondMember (firstId.trans secondId.symm)]

section Listed

variable (state : RankedTables) (principal : PrincipalID) (exclude : MailboxID)

theorem mem_ranked (entry : Entry) : entry ∈ state.rankedMailboxPriorities principal exclude ↔
    entry.1 ≠ exclude ∧ state.rank principal entry.1 = some entry.2 := by
  have owned : state.rank principal entry.1 = some entry.2 ↔
      (entry.1, principal) ∈ owners state.tables ∧ state.priority entry.1 = some entry.2 := by
    unfold rank
    split
    case isTrue own => simp [own]
    case isFalse other => simp [other]
  rw [owned, mem_owners]
  simp only [rankedMailboxPriorities, List.mem_insertionSort, List.mem_filterMap, List.mem_filter,
    decide_eq_true_eq, Option.map_eq_some_iff]
  constructor
  · rintro ⟨box, ⟨member, own, other⟩, value, stored, rfl⟩
    exact ⟨other, ⟨box, member, rfl, own⟩, stored⟩
  · rintro ⟨other, ⟨box, member, same, own⟩, stored⟩
    exact ⟨box, ⟨member, own, same ▸ other⟩, entry.2, same ▸ stored, by rw [same]⟩

theorem ranked_distinct (keyed : Keyed state.tables) :
    ((state.rankedMailboxPriorities principal exclude).map Prod.fst).Nodup := by
  have sorted := (List.perm_insertionSort Before ((state.tables.mailboxes.filter fun box =>
    box.principalID = principal ∧ box.id ≠ exclude).filterMap fun box =>
      (state.priority box.id).map fun priority => (box.id, priority))).map Prod.fst
  refine sorted.nodup_iff.mpr (List.pairwise_map.mpr ?_)
  refine (keyed.filter _).filterMap _ fun left right differ first firstIs second secondIs => ?_
  obtain ⟨_, _, rfl⟩ := Option.map_eq_some_iff.mp firstIs
  obtain ⟨_, _, rfl⟩ := Option.map_eq_some_iff.mp secondIs
  exact differ

theorem ranked_known (id : MailboxID)
    (member : id ∈ (state.rankedMailboxPriorities principal exclude).map Prod.fst) :
    entryOf (state.rankedMailboxPriorities principal exclude) id = state.rank principal id := by
  obtain ⟨entry, listed, same⟩ := List.mem_map.mp member
  unfold entryOf
  cases found : (state.rankedMailboxPriorities principal exclude).find? fun entry => entry.1 = id with
  | none =>
    rw [List.find?_eq_none] at found
    exact absurd same (by simpa using found entry listed)
  | some first =>
    have here : first.1 = id := by simpa using List.find?_some found
    have stored := (mem_ranked state principal exclude first).mp (List.mem_of_find?_eq_some found)
    rw [Option.map_some, ← stored.2, here]

instance : Std.Total Before where
  total left right := by
    rcases Int.lt_trichotomy left.2 right.2 with less | same | more
    · exact Or.inl (Or.inl less)
    · exact (Nat.le_total left.1 right.1).imp (fun first => Or.inr ⟨same, first⟩)
        fun first => Or.inr ⟨same.symm, first⟩
    · exact Or.inr (Or.inl more)

instance : IsTrans Entry Before where
  trans first second third := by
    rintro (less | ⟨same, before⟩) (later | ⟨equal, after⟩)
    · exact Or.inl (Int.lt_trans less later)
    · exact Or.inl (equal ▸ less)
    · exact Or.inl (same ▸ later)
    · exact Or.inr ⟨same.trans equal, Nat.le_trans before after⟩

theorem index_increases (order : List MailboxID) (distinct : order.Nodup) :
    order.Pairwise fun left right => order.idxOf left < order.idxOf right := by
  rw [List.pairwise_iff_getElem]
  intro first second firstBound secondBound earlier
  rw [distinct.idxOf_getElem, distinct.idxOf_getElem]
  exact earlier

/-- When the labels but the excluded one stand at the places of a list, they are
read in the order of the list. -/
theorem ranked_in_order (keyed : Keyed state.tables) (order : List MailboxID) (distinct : order.Nodup)
    (placed : ∀ id, id ≠ exclude → state.rank principal id = position order id) :
    (state.rankedMailboxPriorities principal exclude).map Prod.fst =
      order.filter fun id => id ≠ exclude := by
  have listed : state.rankedMailboxPriorities principal exclude =
      (order.filter fun id => id ≠ exclude).map fun id => (id, (order.idxOf id : Int)) := by
    refine List.Perm.eq_of_pairwise ?_ (List.pairwise_insertionSort Before _) ?_
      ((List.perm_ext_iff_of_nodup (ranked_distinct state principal exclude keyed).of_map ?_).mpr ?_)
    · rintro left right _ _ (less | ⟨same, before⟩) (more | ⟨_, after⟩)
      · exact absurd more (Int.lt_asymm less)
      · exact absurd less (by omega)
      · exact absurd more (by omega)
      · exact Prod.ext (Nat.le_antisymm before after) same
    · rw [List.pairwise_map]
      refine ((index_increases order distinct).filter _).imp fun earlier => Or.inl ?_
      exact Int.ofNat_lt.mpr earlier
    · exact (distinct.filter _).map fun _ _ same => congrArg Prod.fst same
    · rintro ⟨id, value⟩
      rw [mem_ranked, List.mem_map]
      constructor
      · rintro ⟨other, stored⟩
        rw [placed id other, position] at stored
        split at stored
        case isTrue inside =>
          cases stored
          exact ⟨id, by simpa [inside] using other, rfl⟩
        case isFalse => cases stored
      · rintro ⟨_, inside, same⟩
        cases same
        simp only [List.mem_filter, decide_eq_true_eq] at inside
        refine ⟨inside.2, ?_⟩
        rw [placed id inside.2, position, if_pos inside.1]
  rw [listed, List.map_map]
  exact List.map_id _

end Listed

section Final

variable (mailbox : MailboxID) (newRank : Option Int) (others : List MailboxID)

theorem clamp_le (rank : Int) (others : Nat) : clampRank rank others ≤ others := by
  unfold clampRank
  dsimp only
  split_ifs <;> omega

theorem clamp_eq (rank : Int) (others : Nat) :
    (clampRank rank others : Int) = min (max rank 0) others := by
  unfold clampRank
  dsimp only
  split_ifs <;> omega

theorem mem_final_order (id : MailboxID) : id ∈ finalOrder mailbox newRank others ↔
    id ∈ others ∨ newRank.isSome ∧ id = mailbox := by
  cases newRank with
  | none => simp [finalOrder]
  | some rank =>
    have split : id ∈ others ↔ id ∈ others.take (clampRank rank others.length) ∨
        id ∈ others.drop (clampRank rank others.length) := by
      rw [← List.mem_append, List.take_append_drop]
    simp only [finalOrder, List.mem_append, List.mem_cons, Option.isSome_some, true_and, split]
    tauto

variable (fresh : mailbox ∉ others)

include fresh

theorem final_order_distinct (distinct : others.Nodup) : (finalOrder mailbox newRank others).Nodup := by
  cases newRank with
  | none => exact distinct
  | some rank =>
    rw [finalOrder, List.nodup_middle, List.take_append_drop]
    exact List.nodup_cons.mpr ⟨fresh, distinct⟩

theorem final_order_others :
    (finalOrder mailbox newRank others).filter (fun id => id ≠ mailbox) = others := by
  have kept : others.filter (fun id => id ≠ mailbox) = others := by
    refine List.filter_eq_self.mpr fun id member => ?_
    simpa using fun same : id = mailbox => fresh (same ▸ member)
  cases newRank with
  | none => exact kept
  | some rank =>
    rw [finalOrder, List.filter_append, List.filter_cons_of_neg (by simp), ← List.filter_append,
      List.take_append_drop, kept]

theorem final_order_index (rank : Int) :
    (finalOrder mailbox (some rank) others).idxOf mailbox = clampRank rank others.length := by
  have before : mailbox ∉ others.take (clampRank rank others.length) :=
    fun member => fresh (List.mem_of_mem_take member)
  rw [finalOrder, List.idxOf_append_of_notMem before, List.idxOf_cons_self, List.length_take,
    Nat.min_eq_left (clamp_le rank others.length), Nat.add_zero]

end Final

/-- What the renumbering of a principal does: the listed mailboxes stand at their
places, a dropped one has no rank, and whatever changed is announced once. -/
structure Renumbered (principal : PrincipalID) (final : List MailboxID) (dropped : Option MailboxID)
    (before after : RankedTables) : Prop where
  told : ∃ ids : List MailboxID, ids.Nodup ∧ (∀ id, id ∈ ids ↔ after.priority id ≠ before.priority id) ∧
    after.tables = announce principal ids before.tables
  placed : ∀ id, after.priority id =
    if id ∈ final then some (final.idxOf id : Int)
      else if dropped = some id then none else before.priority id

theorem announce_owners (principal : PrincipalID) (ids : List MailboxID) (tables : Tables) :
    owners (announce principal ids tables) = owners tables := by
  induction ids generalizing tables with
  | nil => rfl
  | cons id ids ih => exact ih _

theorem updated_rows_cons (principal : PrincipalID) (last : Nat) (id : MailboxID)
    (ids : List MailboxID) :
    updatedRows principal last (id :: ids) =
      ⟨⟨last + 1, principal, .mailbox, id, 0, .updated⟩, .user⟩ ::
        updatedRows principal (last + 1) ids := by
  simp [updatedRows, List.mapIdx_cons, Nat.add_left_comm, Nat.add_comm]

theorem announce_announced (principal : PrincipalID) (ids : List MailboxID) (tables : Tables) :
    Announced principal ids tables (announce principal ids tables) := by
  induction ids generalizing tables with
  | nil => simp [Announced, announce, updatedRows]
  | cons id ids ih =>
    have later : announce principal (id :: ids) tables =
        announce principal ids (tables.appendChange principal .mailbox id 0 .updated .user) := rfl
    have next : lastSeq (tables.appendChange principal .mailbox id 0 .updated .user).changes principal =
        lastSeq tables.changes principal + 1 := by
      simp [appendChange, lastSeq]
    rw [Announced, later, ih, next, updated_rows_cons]
    simp [appendChange, lastSeq]

section Applied

variable {principal : PrincipalID} {final : List MailboxID} {dropped : Option MailboxID}
  {before after : RankedTables} (renumbered : Renumbered principal final dropped before after)
  (owned : ∀ id, id ∈ final ∨ dropped = some id → (id, principal) ∈ owners before.tables)

include renumbered

theorem renumbered_owners : owners after.tables = owners before.tables := by
  obtain ⟨ids, _, _, told⟩ := renumbered.told
  rw [told, announce_owners]

theorem renumbered_other (id : MailboxID) (unlisted : id ∉ final) (kept : dropped ≠ some id) :
    after.priority id = before.priority id := by
  rw [renumbered.placed, if_neg unlisted, if_neg kept]

include owned

theorem renumbered_dense (distinct : final.Nodup)
    (unlisted : ∀ id, id ∉ final → dropped ≠ some id → before.rank principal id = none) :
    after.Dense principal final := by
  refine ⟨distinct, fun id => ?_⟩
  rw [rank, renumbered_owners renumbered, renumbered.placed, position]
  by_cases listed : id ∈ final
  · rw [if_pos (owned id (Or.inl listed)), if_pos listed, if_pos listed]
  · rw [if_neg listed, if_neg listed]
    by_cases here : dropped = some id
    · simp [here]
    · rw [if_neg here]
      exact unlisted id listed here

theorem renumbered_told : ∃ ids : List MailboxID, ids.Nodup ∧
    (∀ id, id ∈ ids ↔ after.rank principal id ≠ before.rank principal id) ∧
      Announced principal ids before.tables after.tables := by
  obtain ⟨ids, distinct, changed, told⟩ := renumbered.told
  refine ⟨ids, distinct, fun id => ?_, told ▸ announce_announced ..⟩
  rw [changed id, rank, rank, renumbered_owners renumbered]
  by_cases own : (id, principal) ∈ owners before.tables
  · rw [if_pos own, if_pos own]
  · have same := renumbered_other renumbered id (fun listed => own (owned id (Or.inl listed)))
      fun here => own (owned id (Or.inr here))
    simp [own, same]

theorem renumbered_frame {other : PrincipalID} (keyed : Keyed before.tables)
    (different : other ≠ principal)
    (id : MailboxID) : after.rank other id = before.rank other id := by
  rw [rank, rank, renumbered_owners renumbered]
  by_cases own : (id, other) ∈ owners before.tables
  · have foreign : ¬(id ∈ final ∨ dropped = some id) :=
      fun touched => different (owner_unique keyed own (owned id touched))
    rw [not_or] at foreign
    rw [if_pos own, if_pos own, renumbered_other renumbered id foreign.1 foreign.2]
  · rw [if_neg own, if_neg own]

end Applied

/-- The loop over an order of the ranked mailboxes, given their old values. -/
theorem applied_renumbered (principal : PrincipalID) (final : List MailboxID)
    (oldOf : MailboxID → Option Int)
    (state : RankedTables) (distinct : final.Nodup)
    (known : ∀ id ∈ final, oldOf id = state.priority id) :
    Renumbered principal final none state
      (applyDenseMailboxPriorities principal oldOf 0 final state) := by
  obtain ⟨told, placed⟩ := apply_dense principal oldOf 0 final state distinct known
  simp only [Nat.zero_add] at placed
  refine ⟨⟨moved oldOf 0 final, distinct.sublist (moved_sublist ..), fun id => ?_, told⟩, fun id => ?_⟩
  · rw [mem_moved oldOf 0 final distinct, placed id, Nat.zero_add]
    by_cases listed : id ∈ final
    · simp only [listed, true_and, if_true, known id listed, ne_eq, eq_comm]
    · simp [listed]
  · rw [placed id]
    simp

theorem dropped_renumbered {principal : PrincipalID} {final : List MailboxID}
    {state applied : RankedTables}
    (renumbered : Renumbered principal final none state applied) (mailbox : MailboxID)
    (unlisted : mailbox ∉ final) (ranked : state.priority mailbox ≠ none) :
    Renumbered principal final (some mailbox) state (applied.setPriority principal mailbox none) := by
  obtain ⟨ids, distinct, changed, told⟩ := renumbered.told
  have kept := renumbered_other renumbered mailbox unlisted (by simp)
  have absent : mailbox ∉ ids := fun member => (changed mailbox).mp member kept
  refine ⟨⟨ids ++ [mailbox], ?_, fun id => ?_, ?_⟩, fun id => ?_⟩
  · rw [List.nodup_append_comm]
    exact List.nodup_cons.mpr ⟨absent, distinct⟩
  · by_cases here : id = mailbox
    · subst here
      simpa [setPriority] using fun unset : none = state.priority id => ranked unset.symm
    · simp [setPriority, here, changed id]
  · rw [setPriority, told, announce, announce, announce, List.foldl_append]
  · by_cases here : id = mailbox
    · subst here
      simp [setPriority, unlisted]
    · have other : ¬mailbox = id := fun same => here same.symm
      simp [setPriority, here, other, renumbered.placed id]

theorem ranked_owned (state : RankedTables) (principal : PrincipalID) (exclude id : MailboxID)
    (member : id ∈ (state.rankedMailboxPriorities principal exclude).map Prod.fst) :
    id ≠ exclude ∧ (id, principal) ∈ owners state.tables ∧
    state.rank principal id = state.priority id := by
  obtain ⟨entry, listed, rfl⟩ := List.mem_map.mp member
  obtain ⟨other, ranked⟩ := (mem_ranked state principal exclude entry).mp listed
  rw [rank] at ranked ⊢
  split at ranked
  case isTrue own => exact ⟨other, own, if_pos own⟩
  case isFalse => cases ranked

section Calls

variable {state after : RankedTables} {mailbox : MailboxID}

theorem found_owner {box : Mailbox} (found : state.tables.mailbox? mailbox = some box) :
    (mailbox, box.principalID) ∈ owners state.tables := by
  have same : box.id = mailbox := by simpa using List.find?_some found
  exact (mem_owners ..).mpr ⟨box, List.mem_of_find?_eq_some found, same, rfl⟩

/-- A label that is reordered is either listed again or dropped, if it had a rank. -/
theorem reorder_renumbered (keyed : Keyed state.tables) {principal : PrincipalID} {newRank : Option Int}
    (ran : state.reorderMailboxPriority principal mailbox newRank = .ok after) :
    (mailbox, principal) ∈ owners state.tables ∧ ∃ dropped,
      (dropped = none ∧ (newRank = none → state.priority mailbox = none) ∨
        dropped = some mailbox ∧ newRank = none) ∧
      Renumbered principal (finalOrder mailbox newRank
        ((state.rankedMailboxPriorities principal mailbox).map Prod.fst)) dropped state after := by
  obtain ⟨box, found, later⟩ := bind_ok ran
  split at later
  case isTrue => cases later
  case isFalse same =>
    rw [not_not] at same
    subst same
    refine ⟨found_owner (require_ok found), ?_⟩
    set others := state.rankedMailboxPriorities box.principalID mailbox with othersIs
    have fresh : mailbox ∉ others.map Prod.fst :=
      fun member => (ranked_owned state _ _ _ member).1 rfl
    have distinct := final_order_distinct mailbox newRank (others.map Prod.fst) fresh
      (ranked_distinct state _ _ keyed)
    have applied := applied_renumbered box.principalID
      (finalOrder mailbox newRank (others.map Prod.fst))
      (fun id => if id = mailbox then state.priority mailbox else entryOf others id) state distinct ?_
    · dsimp only at later
      split at later
      case isTrue unranked =>
        rw [Bool.and_eq_true, Option.isNone_iff_eq_none, Option.isSome_iff_ne_none] at unranked
        cases later
        refine ⟨some mailbox, Or.inr ⟨rfl, unranked.1⟩,
          dropped_renumbered applied mailbox ?_ unranked.2⟩
        rw [mem_final_order, unranked.1]
        simpa using fresh
      case isFalse kept =>
        cases later
        refine ⟨none, Or.inl ⟨rfl, fun unranked => ?_⟩, applied⟩
        simpa [unranked] using kept
    · intro id member
      split
      case isTrue here => rw [here]
      case isFalse other =>
        have listed := (mem_final_order mailbox newRank _ id).mp member
        simp only [other, and_false, or_false] at listed
        rw [ranked_known state _ _ id listed]
        exact (ranked_owned state _ _ _ listed).2.2

theorem same_owners {first second : List Mailbox} (same : List.Forall₂ SameOwner first second) :
    (second.map fun box => (box.id, box.principalID)) = first.map fun box =>
      (box.id, box.principalID) := by
  induction same with
  | nil => rfl
  | cons alike _ ih => rw [List.map_cons, List.map_cons, ih, alike.1, alike.2.1]

theorem delete_memberships_owners {messages : List MessageID} {tables emptied : Tables}
    (ran : deleteMemberships mailbox messages tables = .ok emptied) :
      owners emptied = owners tables := by
  induction messages generalizing tables with
  | nil =>
    cases ran
    rfl
  | cons message messages ih =>
    obtain ⟨middle, first, later⟩ := bind_ok ran
    obtain ⟨_, footprint, _⟩ := footprint_delete_membership first
    exact (ih later).trans (same_owners footprint.mailboxes)

theorem drop_all_owners (charged : PrincipalID) (soles : List MessageRow) (tables : Tables) :
    owners (soles.foldl (fun tables sole => tables.dropSole mailbox charged sole) tables) =
      owners tables := by
  induction soles generalizing tables with
  | nil => rfl
  | cons sole soles ih => exact ih _

theorem delete_owners {tables deleted : Tables} (ran : tables.deleteMailbox mailbox = .ok deleted) :
    owners deleted = (owners tables).filter fun owner => owner.1 ≠ mailbox := by
  obtain ⟨box, _, later⟩ := bind_ok ran
  obtain ⟨charged, _, later⟩ := bind_ok later
  obtain ⟨emptied, removed, ended⟩ := bind_ok later
  cases ended
  rw [← drop_all_owners charged (tables.soleMessages mailbox)
    tables, ← delete_memberships_owners removed,
    owners, owners, List.filter_map]
  rfl

theorem keyed_iff (tables : Tables) :
    Keyed tables ↔ (owners tables).Pairwise fun left right => left.1 ≠ right.1 := by
  rw [owners, List.pairwise_map]
  rfl

theorem removed_rank {deleted : Tables} (gone : state.tables.deleteMailbox mailbox = .ok deleted)
    (principal : PrincipalID) (id : MailboxID) :
    (state.removed mailbox deleted).rank principal id =
      if id = mailbox then none else state.rank principal id := by
  unfold rank removed
  dsimp only
  rw [delete_owners gone]
  by_cases here : id = mailbox
  · simp [here]
  · simp [here]

theorem removed_keyed {deleted : Tables} (gone : state.tables.deleteMailbox mailbox = .ok deleted)
    (keyed : Keyed state.tables) : Keyed deleted := by
  rw [keyed_iff] at keyed ⊢
  rw [delete_owners gone]
  exact keyed.filter _

theorem delete_renumbered (keyed : Keyed state.tables) (ran : state.deleteMailbox mailbox = .ok after) :
    ∃ box deleted, state.tables.mailbox? mailbox = some box ∧
      state.tables.deleteMailbox mailbox = .ok deleted ∧
      Renumbered box.principalID (if (state.priority mailbox).isSome then
          ((state.removed mailbox deleted).rankedMailboxPriorities box.principalID mailbox).map Prod.fst
        else []) none (state.removed mailbox deleted) after := by
  obtain ⟨box, found, later⟩ := bind_ok ran
  obtain ⟨deleted, gone, later⟩ := bind_ok later
  refine ⟨box, deleted, require_ok found, gone, ?_⟩
  dsimp only at later
  split at later
  case isTrue ranked =>
    cases later
    rw [if_pos ranked]
    refine applied_renumbered _ _ _ _ (ranked_distinct _ _ _ (removed_keyed gone keyed)) ?_
    intro id listed
    rw [ranked_known _ _ _ id listed]
    exact (ranked_owned _ _ _ _ listed).2.2
  case isFalse unranked =>
    cases later
    rw [if_neg unranked]
    exact ⟨⟨[], List.nodup_nil, by simp [removed], rfl⟩, fun _ => by simp [removed]⟩

end Calls

section Runs

variable {state after : RankedTables} {principal : PrincipalID} {mailbox : MailboxID}
    {order : List MailboxID}

/-- What a call on a label of the principal does to the dense order. -/
structure Moves (state after : RankedTables) (principal : PrincipalID) (mailbox : MailboxID)
    (order final : List MailboxID) : Prop where
  dense : after.Dense principal final
  others : final.filter (fun id => id ≠ mailbox) = order.filter fun id => id ≠ mailbox

theorem ranked_owner {id : MailboxID} (ranked : state.rank principal id ≠ none) :
    (id, principal) ∈ owners state.tables := by
  by_contra other
  exact ranked (if_neg other)

theorem unlisted_unranked {id : MailboxID} (dense : state.Dense principal order) (other : id ∉ order) :
    state.rank principal id = none := by
  rw [dense.2 id, position, if_neg other]

theorem reorder_moves (keyed : Keyed state.tables) (dense : state.Dense principal order)
    {newRank : Option Int} (ran : state.reorderMailboxPriority principal mailbox newRank = .ok after) :
    let final := finalOrder mailbox newRank (order.filter fun id => id ≠ mailbox)
    Moves state after principal mailbox order final ∧
      after.rank principal mailbox =
        newRank.map (fun rank => min (max rank 0) ((final.length : Int) - 1)) ∧
      ∃ ids : List MailboxID, ids.Nodup ∧
        (∀ id, id ∈ ids ↔ after.rank principal id ≠ state.rank principal id) ∧
          Announced principal ids state.tables after.tables := by
  intro final
  obtain ⟨own, dropped, fate, renumbered⟩ := reorder_renumbered keyed ran
  rw [ranked_in_order state principal mailbox keyed order dense.1 fun id _ => dense.2 id] at renumbered
  have fresh : mailbox ∉ order.filter fun id => id ≠ mailbox := by simp
  have distinct : final.Nodup := final_order_distinct mailbox newRank _ fresh (dense.1.filter _)
  have owned : ∀ id, id ∈ final ∨ dropped = some id → (id, principal) ∈ owners state.tables := by
    rintro id (listed | gone)
    · rcases (mem_final_order mailbox newRank _ id).mp listed with other | ⟨_, rfl⟩
      · refine ranked_owner ?_
        rw [dense.2 id, position, if_pos (List.mem_filter.mp other).1]
        simp
      · exact own
    · rcases fate with ⟨kept, _⟩ | ⟨same, _⟩
      · cases kept.symm.trans gone
      · cases same.symm.trans gone
        exact own
  have ordered : after.Dense principal final := by
    refine renumbered_dense renumbered owned distinct fun id unlisted kept => ?_
    rw [mem_final_order, List.mem_filter, not_or, not_and_or] at unlisted
    by_cases here : id = mailbox
    · subst here
      rcases fate with ⟨_, unset⟩ | ⟨same, _⟩
      · have unranked : newRank = none := by simpa using unlisted.2
        rw [rank, if_pos own, unset unranked]
      · exact absurd same kept
    · exact unlisted_unranked dense (by simpa [here] using unlisted.1)
  refine ⟨⟨ordered, final_order_others mailbox newRank _ fresh⟩, ?_,
    renumbered_told renumbered owned⟩
  rw [ordered.2 mailbox, position]
  cases newRank with
  | none =>
    rw [if_neg]
    · rfl
    · rw [mem_final_order]
      simp
  | some rank =>
    have listed : mailbox ∈ final :=
      (mem_final_order mailbox (some rank) _ mailbox).mpr (Or.inr ⟨rfl, rfl⟩)
    have length : final.length = (order.filter fun id => id ≠ mailbox).length + 1 := by
      simp only [final, finalOrder, List.length_append, List.length_cons, List.length_take,
        List.length_drop]
      have bound := clamp_le rank (order.filter fun id => id ≠ mailbox).length
      omega
    rw [if_pos listed, Option.map_some, final_order_index mailbox _ fresh rank, clamp_eq, length]
    simp

theorem delete_moves (keyed : Keyed state.tables) (dense : state.Dense principal order)
    (own : (mailbox, principal) ∈ owners state.tables) (ran : state.deleteMailbox mailbox = .ok after) :
    after.Dense principal (order.filter fun id => id ≠ mailbox) ∧
      ∃ deleted, state.tables.deleteMailbox mailbox = .ok deleted ∧ ∃ ids : List MailboxID, ids.Nodup ∧
        (∀ id, id ∈ ids ↔ id ≠ mailbox ∧ after.rank principal id ≠ state.rank principal id) ∧
          Announced principal ids deleted after.tables := by
  obtain ⟨box, deleted, found, gone, renumbered⟩ := delete_renumbered keyed ran
  have same : box.principalID = principal := owner_unique keyed (found_owner found) own
  subst same
  set before := state.removed mailbox deleted with beforeIs
  have placed : ∀ id, id ≠ mailbox → before.rank box.principalID id = position order id := by
    intro id other
    rw [beforeIs, removed_rank gone, if_neg other, dense.2 id]
  have final : (if (state.priority mailbox).isSome then
      (before.rankedMailboxPriorities box.principalID mailbox).map Prod.fst else []) =
        if (state.priority mailbox).isSome then order.filter fun id => id ≠ mailbox else [] := by
    rw [ranked_in_order before _ _ (removed_keyed gone keyed) order dense.1 placed]
  rw [final] at renumbered
  have owned : ∀ id, id ∈ (if (state.priority mailbox).isSome then order.filter fun id => id ≠ mailbox
      else []) ∨ none = some id → (id, box.principalID) ∈ owners before.tables := by
    rintro id (listed | impossible)
    · split at listed
      · obtain ⟨inside, other⟩ := List.mem_filter.mp listed
        refine ranked_owner ?_
        rw [placed id (by simpa using other), position, if_pos inside]
        simp
      · cases listed
    · cases impossible
  refine ⟨?_, deleted, gone, ?_⟩
  · by_cases ranked : (state.priority mailbox).isSome
    · rw [if_pos ranked] at renumbered owned
      refine renumbered_dense renumbered owned (dense.1.filter _) fun id unlisted _ => ?_
      by_cases here : id = mailbox
      · rw [beforeIs, removed_rank gone, if_pos here]
      · rw [placed id here, position, if_neg fun inside =>
          unlisted (List.mem_filter.mpr ⟨inside, by simpa⟩)]
    · rw [if_neg ranked] at renumbered
      have absent : mailbox ∉ order := by
        intro inside
        have value := dense.2 mailbox
        rw [rank, if_pos own, position, if_pos inside] at value
        rw [value] at ranked
        exact ranked rfl
      have kept : order.filter (fun id => id ≠ mailbox) = order := by
        refine List.filter_eq_self.mpr fun id inside => ?_
        simpa using fun here : id = mailbox => absent (here ▸ inside)
      rw [kept]
      refine ⟨dense.1, fun id => ?_⟩
      have unchanged := renumbered_other renumbered id (by simp) (by simp)
      rw [rank, renumbered_owners renumbered, unchanged, ← rank]
      by_cases here : id = mailbox
      · rw [beforeIs, removed_rank gone, if_pos here, here, position, if_neg absent]
      · exact placed id here
  · obtain ⟨ids, distinct, changed, told⟩ := renumbered_told renumbered owned
    refine ⟨ids, distinct, fun id => ?_, told⟩
    rw [changed id, beforeIs, removed_rank gone]
    by_cases here : id = mailbox
    · subst here
      rw [if_pos rfl, rank, renumbered_owners renumbered, beforeIs, removed]
      dsimp only
      rw [delete_owners gone]
      simp
    · simp [here]

theorem call_dense (keyed : Keyed state.tables) (dense : state.Dense principal order) (call : RankCall)
    (ran : call.apply state = .ok after) :
      Keyed after.tables ∧ ∃ final, after.Dense principal final := by
  have foreign {other : PrincipalID} (different : principal ≠ other) {final : List MailboxID}
      {dropped : Option MailboxID} {before after : RankedTables} (keyed : Keyed before.tables)
      (dense : before.Dense principal order) (renumbered : Renumbered other final dropped before after)
      (owned : ∀ id, id ∈ final ∨ dropped = some id → (id, other) ∈ owners before.tables) :
      after.Dense principal order :=
    ⟨dense.1, fun id => (renumbered_frame renumbered owned keyed different id).trans (dense.2 id)⟩
  have rekeyed {other : PrincipalID} {final : List MailboxID} {dropped : Option MailboxID}
      {before after : RankedTables} (keyed : Keyed before.tables)
      (renumbered : Renumbered other final dropped before after) : Keyed after.tables := by
    rw [keyed_iff, renumbered_owners renumbered, ← keyed_iff]
    exact keyed
  cases call with
  | reorder other mailbox newRank =>
    obtain ⟨own, dropped, fate, renumbered⟩ := reorder_renumbered keyed ran
    refine ⟨rekeyed keyed renumbered, ?_⟩
    by_cases same : other = principal
    · subst same
      exact ⟨_, (reorder_moves keyed dense ran).1.dense⟩
    · refine ⟨order, foreign (Ne.symm same) keyed dense renumbered ?_⟩
      rintro id (listed | gone)
      · rcases (mem_final_order mailbox newRank _ id).mp listed with ranked | ⟨_, rfl⟩
        · exact (ranked_owned state other mailbox id ranked).2.1
        · exact own
      · rcases fate with ⟨kept, _⟩ | ⟨here, _⟩
        · cases kept.symm.trans gone
        · cases here.symm.trans gone
          exact own
  | delete mailbox =>
    obtain ⟨box, deleted, found, gone, renumbered⟩ := delete_renumbered keyed ran
    have removedKeyed := removed_keyed gone keyed
    refine ⟨rekeyed removedKeyed renumbered, ?_⟩
    by_cases same : box.principalID = principal
    · exact ⟨_, (delete_moves keyed dense (same ▸ found_owner found) ran).1⟩
    · have kept : (state.removed mailbox deleted).Dense principal order := by
        refine ⟨dense.1, fun id => ?_⟩
        rw [removed_rank gone, ← dense.2 id]
        by_cases here : id = mailbox
        · rw [if_pos here, here, rank, if_neg fun own =>
            same (owner_unique keyed (found_owner found) own)]
        · rw [if_neg here]
      refine ⟨order, foreign (Ne.symm same) removedKeyed kept renumbered ?_⟩
      rintro id (listed | impossible)
      · split at listed
        · exact (ranked_owned _ _ _ _ listed).2.1
        · cases listed
      · cases impossible

/-- A call that fails is rolled back. -/
def machine : Machine RankedTables RankCall where
  step state call := some (match call.apply state with
    | .ok after => after
    | .error _ => state)

/-- From a principal without ranked mailboxes, whatever was reordered and deleted
before, the ranks are dense, and the next call keeps the order of the other labels,
puts the label at its clamped rank and appends one row for each rank that changed. -/
theorem label_ranks_dense (principal : PrincipalID) (start : RankedTables) (keyed : Keyed start.tables)
    (unranked : ∀ id, start.rank principal id = none) (calls : List RankCall) (state : RankedTables)
    (ran : machine.execute start calls = some state) :
    ∃ order, state.Dense principal order ∧
      (∀ mailbox newRank after, state.reorderMailboxPriority principal mailbox newRank = .ok after →
        ∃ final, Moves state after principal mailbox order final ∧
          after.rank principal mailbox =
            newRank.map (fun rank => min (max rank 0) ((final.length : Int) - 1)) ∧
          ∃ ids : List MailboxID, ids.Nodup ∧
            (∀ id, id ∈ ids ↔ after.rank principal id ≠ state.rank principal id) ∧
              Announced principal ids state.tables after.tables) ∧
      ∀ mailbox after, (mailbox, principal) ∈ owners state.tables →
      state.deleteMailbox mailbox = .ok after →
        after.Dense principal (order.filter fun id => id ≠ mailbox) ∧
          ∃ deleted, state.tables.deleteMailbox mailbox = .ok deleted ∧
          ∃ ids : List MailboxID, ids.Nodup ∧
            (∀ id, id ∈ ids ↔ id ≠ mailbox ∧ after.rank principal id ≠ state.rank principal id) ∧
              Announced principal ids deleted after.tables := by
  have first : Keyed start.tables ∧ ∃ order, start.Dense principal order :=
    ⟨keyed, [], List.nodup_nil, fun id => by simp [unranked id, position]⟩
  obtain ⟨stillKeyed, order, dense⟩ := machine.execute_keeps
    (fun state => Keyed state.tables ∧ ∃ order, state.Dense principal order)
    (fun state call next holds stepped => by
      obtain ⟨keyed, order, dense⟩ := holds
      cases ran : call.apply state with
      | ok after =>
        simp only [machine, ran, Option.some.injEq] at stepped
        exact stepped ▸ call_dense keyed dense call ran
      | error failure =>
        simp only [machine, ran, Option.some.injEq] at stepped
        exact stepped ▸ ⟨keyed, order, dense⟩)
    calls start state first ran
  exact ⟨order, dense,
    fun mailbox newRank after moved => ⟨_, reorder_moves stillKeyed dense moved⟩,
    fun mailbox after own gone => delete_moves stillKeyed dense own gone⟩

def threeLabels : RankedTables where
  tables :=
    { principals := [⟨1, none, 0, 0⟩]
      mailboxes := [⟨1, 1, [97], false, 1, 1, 0⟩, ⟨2, 1, [98], false, 1, 1, 0⟩,
        ⟨3, 1, [99], false, 1, 1, 0⟩] }

def rankedThree : List RankCall :=
    [.reorder 1 1 (some 0), .reorder 1 2 (some 7), .reorder 1 3 (some (-1))]

/-- Three labels are ranked and the middle one is deleted. -/
theorem label_ranks_dense_of_three :
    ∃ state after, machine.execute threeLabels rankedThree = some state ∧
      [1, 2, 3].map state.priority = [some 1, some 2, some 0] ∧
      state.deleteMailbox 1 = .ok after ∧ [2, 3].map after.priority = [some 1, some 0] ∧
      ∃ order, after.Dense 1 order := by
  refine ⟨_, _, rfl, by decide +kernel, rfl, by decide +kernel, ?_⟩
  obtain ⟨order, _, _, gone⟩ := label_ranks_dense 1 threeLabels (by simp [Keyed, threeLabels])
    (fun _ => ite_self _) rankedThree _ rfl
  exact ⟨_, (gone 1 _ (by decide) rfl).1⟩

end Runs

end RankedTables

end Herold.Store

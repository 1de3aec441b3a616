import Herold.Jmap.Changes
import Mathlib.Data.Finset.Card
import Mathlib.Data.List.Sort

/-!
# Walking the change feed

Every datatype answers its changes call by walking the same feed, page by page, and
folding the rows of its own kind. The two walkers differ in what the state string
counts: sequence numbers of the feed, or rows of the kind. They are one definition
here, and its result is stated over the rows that are left after the state.
-/

namespace Herold.ChangeFeed

open Herold.Store Herold.Jmap

/-- A `state_changes` row. The set of kinds is open, so the kind stays a parameter. -/
structure Entry (Kind : Type) where
  principalID : PrincipalID
  seq : Nat
  kind : Kind
  entityID : Nat
  parentEntityID : Nat := 0
  op : ChangeOp
  cause : ChangeCause := .user

def Entry.change {Kind : Type} (entry : Entry Kind) : StateChange where
  seq := entry.seq
  principalID := entry.principalID
  entityID := entry.entityID
  parentEntityID := entry.parentEntityID
  op := entry.op

structure Feed (Kind : Type) where
  rows : List (Entry Kind)
  numbered : rows.Pairwise fun left right => left.principalID = right.principalID → left.seq < right.seq

variable {Kind : Type}

def seqsOf (rows : List (Entry Kind)) (principal : PrincipalID) : List Nat :=
  (rows.filter fun row => row.principalID = principal).map Entry.seq

/-- The row that is written next, numbered after the principal's last one. -/
def Feed.nextEntry (feed : Feed Kind) (principal : PrincipalID) (kind : Kind)
    (entityID parentEntityID : Nat)
    (op : ChangeOp) (cause : ChangeCause) : Entry Kind where
  principalID := principal
  seq := (seqsOf feed.rows principal).foldl max 0 + 1
  kind := kind
  entityID := entityID
  parentEntityID := parentEntityID
  op := op
  cause := cause

/-- `appendStateChangeSeqWithCause`. -/
def Feed.append (feed : Feed Kind) (principal : PrincipalID) (kind : Kind)
    (entityID parentEntityID : Nat)
    (op : ChangeOp) (cause : ChangeCause := .user) : Feed Kind where
  rows := feed.rows ++ [feed.nextEntry principal kind entityID parentEntityID op cause]
  numbered := by
    refine List.pairwise_append.mpr ⟨feed.numbered, List.pairwise_singleton _ _, ?_⟩
    intro left member right last same
    rw [List.mem_singleton.mp last] at same ⊢
    have listed : left.seq ∈ seqsOf feed.rows principal :=
      List.mem_map_of_mem (List.mem_filter.mpr ⟨member, decide_eq_true same⟩)
    have bound := (le_running_max (seqsOf feed.rows principal) 0).2 left.seq listed
    exact Nat.lt_succ_of_le bound

/-- The `WHERE` of `readChangeFeed`. -/
def selects (principal : PrincipalID) (fromSeq : Nat) (userOnly : Bool) (row : Entry Kind) : Bool :=
  row.principalID = principal && fromSeq < row.seq && (!userOnly || row.cause = .user)

def readChangeFeed (feed : Feed Kind) (principal : PrincipalID) (fromSeq limit : Nat)
    (userOnly : Bool) :
    List (Entry Kind) :=
  let limit := if limit = 0 then 1000 else limit
  ((feed.rows.filter (selects principal fromSeq userOnly)).mergeSort fun left right =>
    left.seq ≤ right.seq).take limit

def changeFeedPage : Nat := 1000

inductive Encoding where
  | bySeq
  | byOrdinal
  deriving DecidableEq

structure Walk where
  folded : Folded := {}
  cutoff : Nat
  cursor : Nat
  ordinal : Nat := 0
  hasMore : Bool := false

structure Call (Kind : Type) where
  principal : PrincipalID
  kind : Kind
  encoding : Encoding
  since : Nat
  maxChanges : Nat
  userOnly : Bool := true

def Call.place (call : Call Kind) (entry : Entry Kind) (ordinal : Nat) : Nat :=
  match call.encoding with
  | .bySeq => entry.seq
  | .byOrdinal => ordinal

section Walker

variable [DecidableEq Kind] (call : Call Kind)

/-- The body of the inner loop; `hasMore` is where it leaves both loops. -/
def walkEntry (walk : Walk) (entry : Entry Kind) : Walk :=
  if entry.kind = call.kind then
    if call.encoding = .byOrdinal ∧ walk.ordinal + 1 ≤ call.since then
      { walk with ordinal := walk.ordinal + 1, cursor := entry.seq }
    else if 0 < call.maxChanges ∧ isUnseenChangeID walk.folded entry.entityID ∧
        call.maxChanges ≤ walk.folded.count then
      { walk with hasMore := true }
    else
      { walk with
        ordinal := walk.ordinal + 1
        folded := foldChangeEntry walk.folded entry.change
        cutoff := call.place entry (walk.ordinal + 1)
        cursor := entry.seq }
  else { walk with cursor := entry.seq }

def walkBatch : List (Entry Kind) → Walk → Walk
  | [], walk => walk
  | entry :: entries, walk =>
    let next := walkEntry call walk entry
    if next.hasMore then next else walkBatch entries next

theorem walk_entry_cursor {walk : Walk} {entry : Entry Kind}
    (going : (walkEntry call walk entry).hasMore = false) :
    (walkEntry call walk entry).cursor = entry.seq := by
  unfold walkEntry at going ⊢
  split_ifs at going ⊢ <;> rfl

theorem walk_batch_cursor {walk : Walk} {entries : List (Entry Kind)} {last : Entry Kind}
    (isLast : entries.getLast? = some last) (going : (walkBatch call entries walk).hasMore = false) :
    (walkBatch call entries walk).cursor = last.seq := by
  induction entries generalizing walk with
  | nil => cases isLast
  | cons entry entries ih =>
    unfold walkBatch at going ⊢
    by_cases stopped : (walkEntry call walk entry).hasMore
    · simp only [stopped, if_true] at going
      cases going
    · simp only [stopped] at going ⊢
      cases entries with
      | nil =>
        rw [List.getLast?_singleton] at isLast
        cases isLast
        exact walk_entry_cursor call (by simpa using stopped)
      | cons second later =>
        rw [List.getLast?_cons_cons] at isLast
        exact ih isLast going

end Walker

section Pages

variable (feed : Feed Kind) (principal : PrincipalID) (userOnly : Bool)

def entriesAfter (fromSeq : Nat) : List (Entry Kind) := feed.rows.filter
    (selects principal fromSeq userOnly)

theorem entries_ascend (fromSeq : Nat) :
    (entriesAfter feed principal userOnly fromSeq).Pairwise fun left right => left.seq < right.seq := by
  refine (feed.numbered.sublist List.filter_sublist).imp_of_mem ?_
  intro left right leftListed rightListed ascends
  have ofLeft := (List.mem_filter.mp leftListed).2
  have ofRight := (List.mem_filter.mp rightListed).2
  simp only [selects, Bool.and_eq_true, decide_eq_true_eq] at ofLeft ofRight
  exact ascends (ofLeft.1.1.trans ofRight.1.1.symm)

theorem read_change_feed_eq (fromSeq : Nat) :
    readChangeFeed feed principal fromSeq changeFeedPage userOnly =
      (entriesAfter feed principal userOnly fromSeq).take changeFeedPage := by
  unfold readChangeFeed
  have sorted : (entriesAfter feed principal userOnly fromSeq).mergeSort
      (fun left right => decide (left.seq ≤ right.seq)) =
        entriesAfter feed principal userOnly fromSeq := by
    apply List.mergeSort_of_pairwise
    exact (entries_ascend feed principal userOnly fromSeq).imp fun ascends =>
      decide_eq_true (Nat.le_of_lt ascends)
  exact congrArg (List.take changeFeedPage) sorted

theorem read_change_feed_length (fromSeq : Nat) :
    (readChangeFeed feed principal fromSeq changeFeedPage userOnly).length < changeFeedPage ↔
      (entriesAfter feed principal userOnly fromSeq).length < changeFeedPage := by
  rw [read_change_feed_eq, List.length_take]
  omega

theorem filter_behind {entries front back : List (Entry Kind)} {last : Entry Kind}
    (ascends : entries.Pairwise fun left right => left.seq < right.seq)
    (split : entries = front ++ last :: back) :
    (entries.filter fun entry => decide (last.seq < entry.seq)) = back := by
  subst split
  obtain ⟨_, behind, across⟩ := List.pairwise_append.mp ascends
  obtain ⟨above, _⟩ := List.pairwise_cons.mp behind
  have none : front.filter (fun entry => decide (last.seq < entry.seq)) = [] := by
    refine List.filter_eq_nil_iff.mpr fun entry member => ?_
    simpa using Nat.le_of_lt (across entry member last (List.mem_cons_self ..))
  have all : back.filter (fun entry => decide (last.seq < entry.seq)) = back := by
    refine List.filter_eq_self.mpr fun entry member => ?_
    simpa using above entry member
  rw [List.filter_append, none, List.filter_cons, all]
  simp

theorem entries_after_later {fromSeq laterSeq : Nat} (later : fromSeq ≤ laterSeq) :
    entriesAfter feed principal userOnly laterSeq =
      (entriesAfter feed principal userOnly fromSeq).filter fun entry => decide
        (laterSeq < entry.seq) := by
  unfold entriesAfter
  rw [List.filter_filter]
  refine List.filter_congr fun entry _ => ?_
  by_cases after : laterSeq < entry.seq
  · simp [selects, after, Nat.lt_of_le_of_lt later after]
  · simp [selects, after]

theorem entry_after {fromSeq : Nat} {entry : Entry Kind}
    (listed : entry ∈ entriesAfter feed principal userOnly fromSeq) : fromSeq < entry.seq := by
  have selected := (List.mem_filter.mp listed).2
  simp only [selects, Bool.and_eq_true, decide_eq_true_eq] at selected
  exact selected.1.2

theorem entries_after_page {fromSeq : Nat} {last : Entry Kind}
    (isLast : ((entriesAfter feed principal userOnly fromSeq).take changeFeedPage).getLast? =
      some last) :
    entriesAfter feed principal userOnly last.seq =
      (entriesAfter feed principal userOnly fromSeq).drop changeFeedPage := by
  obtain ⟨front, page⟩ := List.getLast?_eq_some_iff.mp isLast
  have split : entriesAfter feed principal userOnly fromSeq =
      front ++ last :: (entriesAfter feed principal userOnly fromSeq).drop changeFeedPage := by
    conv_lhs => rw [← List.take_append_drop changeFeedPage
      (entriesAfter feed principal userOnly fromSeq), page]
    rw [List.append_assoc, List.singleton_append]
  have listed : last ∈ entriesAfter feed principal userOnly fromSeq := by
    rw [split]
    simp
  rw [entries_after_later feed principal userOnly
    (Nat.le_of_lt (entry_after feed principal userOnly listed))]
  exact filter_behind (entries_ascend feed principal userOnly fromSeq) split

end Pages

section Walker

variable [DecidableEq Kind] (call : Call Kind) (feed : Feed Kind)

/-- After a full page that was walked to its end, the rows that are left are those
behind the page. -/
theorem entries_after_batch {walk : Walk}
    (full : ¬(readChangeFeed feed call.principal walk.cursor changeFeedPage call.userOnly).length <
      changeFeedPage)
    (going : (walkBatch call (readChangeFeed feed call.principal walk.cursor changeFeedPage
      call.userOnly)
      walk).hasMore = false) :
    entriesAfter feed call.principal call.userOnly
        (walkBatch call (readChangeFeed feed call.principal walk.cursor changeFeedPage
          call.userOnly) walk).cursor =
      (entriesAfter feed call.principal call.userOnly walk.cursor).drop changeFeedPage := by
  rw [read_change_feed_eq] at *
  have some : ((entriesAfter feed call.principal call.userOnly walk.cursor).take changeFeedPage) ≠
    [] := by
    intro none
    rw [none] at full
    exact full (Nat.zero_lt_succ 999)
  have isLast := List.getLast?_eq_some_getLast some
  rw [walk_batch_cursor call isLast going]
  exact entries_after_page feed call.principal call.userOnly isLast

def walkPages (walk : Walk) : Walk :=
  let batch := readChangeFeed feed call.principal walk.cursor changeFeedPage call.userOnly
  let next := walkBatch call batch walk
  if _stopped : next.hasMore = true then next
  else if _short : batch.length < changeFeedPage then next
  else walkPages next
termination_by (entriesAfter feed call.principal call.userOnly walk.cursor).length
decreasing_by
  rw [entries_after_batch call feed _short (by simpa using _stopped), List.length_drop]
  have long := mt (read_change_feed_length feed call.principal call.userOnly walk.cursor).mpr _short
  have page : changeFeedPage = 1000 := rfl
  omega

/-- `WalkChangesBySeq` and `WalkChangesByOrdinal`: the latter reads the feed from its
first row. -/
def walkChanges : Walk :=
  walkPages call feed
    { cutoff := call.since
      cursor := match call.encoding with
        | .bySeq => call.since
        | .byOrdinal => 0 }

theorem walk_batch_cons {walk : Walk} {entry : Entry Kind} (entries : List (Entry Kind))
    (going : (walkEntry call walk entry).hasMore = false) :
    walkBatch call (entry :: entries) walk = walkBatch call entries (walkEntry call walk entry) := by
  simp only [walkBatch, going, Bool.false_eq_true, if_false]

theorem walk_batch_append (front back : List (Entry Kind)) (walk : Walk)
    (going : (walkBatch call front walk).hasMore = false) :
    walkBatch call (front ++ back) walk = walkBatch call back (walkBatch call front walk) := by
  induction front generalizing walk with
  | nil => rfl
  | cons entry front ih =>
    simp only [walkBatch, List.cons_append] at going ⊢
    by_cases stopped : (walkEntry call walk entry).hasMore
    · simp only [stopped, if_true] at going
      cases going
    · simp only [stopped] at going ⊢
      exact ih _ going

theorem walk_batch_stopped (front back : List (Entry Kind)) (walk : Walk) (fresh : walk.hasMore = false)
    (stops : (walkBatch call front walk).hasMore = true) :
    walkBatch call (front ++ back) walk = walkBatch call front walk := by
  induction front generalizing walk with
  | nil =>
    rw [walkBatch, fresh] at stops
    cases stops
  | cons entry front ih =>
    simp only [walkBatch, List.cons_append] at stops ⊢
    by_cases stopped : (walkEntry call walk entry).hasMore
    · simp only [stopped, if_true]
    · simp only [stopped] at stops ⊢
      exact ih _ (by simpa using stopped) stops

theorem walk_pages_eq (walk : Walk) (fresh : walk.hasMore = false) :
    walkPages call feed walk =
      walkBatch call (entriesAfter feed call.principal call.userOnly walk.cursor) walk := by
  induction walk using walkPages.induct call feed with
  | case1 walk batch next stopped =>
    rw [walkPages, dif_pos stopped]
    have page := List.take_append_drop changeFeedPage
      (entriesAfter feed call.principal call.userOnly walk.cursor)
    rw [← page]
    rw [walk_batch_stopped call _ _ walk fresh (by rw [← read_change_feed_eq]; exact stopped)]
    rw [← read_change_feed_eq]
  | case2 walk batch next going short =>
    rw [walkPages, dif_neg going, dif_pos short]
    have length := (read_change_feed_length feed call.principal call.userOnly walk.cursor).mp short
    rw [read_change_feed_eq, List.take_of_length_le (Nat.le_of_lt length)]
  | case3 walk batch next going full ih =>
    rw [walkPages, dif_neg going, dif_neg full]
    have walked : next.hasMore = false := by simpa using going
    rw [ih walked, entries_after_batch call feed full walked]
    conv_rhs => rw [← List.take_append_drop changeFeedPage
      (entriesAfter feed call.principal call.userOnly walk.cursor)]
    rw [walk_batch_append call _ _ walk (by rw [← read_change_feed_eq]; exact walked),
      ← read_change_feed_eq]

end Walker

section Spec

variable (call : Call Kind)

def ofKind [DecidableEq Kind] (kind : Kind) (entries : List (Entry Kind)) : List (Entry Kind) :=
  entries.filter fun entry => entry.kind = kind

def Call.skips (ordinal : Nat) : Nat :=
  match call.encoding with
  | .bySeq => 0
  | .byOrdinal => call.since - ordinal

def foldEntries (entries : List (Entry Kind)) (folded : Folded) : Folded :=
  (entries.map Entry.change).foldl foldChangeEntry folded

/-- The rows a walk folds are a front part of those of its kind behind the state, and
it leaves some out only when it stops with more to tell. -/
structure Walked (walk result : Walk) (pending taken rest : List (Entry Kind)) : Prop where
  split : pending = taken ++ rest
  folded : result.folded = foldEntries taken walk.folded
  ended : result.hasMore = false → rest = []
  idle : taken = [] → result.cutoff = walk.cutoff
  cut : ∀ last, taken.getLast? = some last →
    result.cutoff = call.place last (walk.ordinal + call.skips walk.ordinal + taken.length)
  started : result.hasMore = true → walk.folded.count = 0 → taken ≠ []

theorem skips_passed {call : Call Kind} {ordinal : Nat} (due : call.skips ordinal = 0) :
    call.skips (ordinal + 1) = 0 := by
  unfold Call.skips at due ⊢
  cases encoding : call.encoding with
  | bySeq => rfl
  | byOrdinal =>
    rw [encoding] at due
    change call.since - ordinal = 0 at due
    change call.since - (ordinal + 1) = 0
    omega

theorem walked_further {call : Call Kind} {walk next result : Walk} {entry : Entry Kind}
    {pending taken rest : List (Entry Kind)}
    (folded : next.folded = foldChangeEntry walk.folded entry.change)
    (cutoff : next.cutoff = call.place entry (walk.ordinal + 1))
    (ordinal : next.ordinal = walk.ordinal + 1)
    (due : call.skips walk.ordinal = 0) (later : Walked call next result pending taken rest) :
    Walked call walk result (entry :: pending) (entry :: taken) rest := by
  have stillDue : call.skips next.ordinal = 0 := by
    rw [ordinal]
    exact skips_passed due
  refine ⟨by rw [later.split]; rfl, ?_, later.ended, by simp, ?_, by simp⟩
  · rw [later.folded, folded]
    rfl
  · intro last isLast
    rw [due]
    cases taken with
    | nil =>
      rw [List.getLast?_singleton] at isLast
      cases isLast
      rw [later.idle rfl, cutoff]
      rfl
    | cons second others =>
      rw [List.getLast?_cons_cons] at isLast
      rw [later.cut last isLast, stillDue, ordinal]
      congr 1
      simp only [List.length_cons]
      omega

theorem walk_batch_spec [DecidableEq Kind] (entries : List (Entry Kind)) (walk : Walk)
    (fresh : walk.hasMore = false) :
    ∃ taken rest, Walked call walk (walkBatch call entries walk)
      ((ofKind call.kind entries).drop (call.skips walk.ordinal)) taken rest := by
  induction entries generalizing walk with
  | nil =>
    refine ⟨[], [], ?_, rfl, fun _ => rfl, fun _ => rfl, by simp, ?_⟩
    · simp [ofKind]
    · intro more
      rw [walkBatch, fresh] at more
      cases more
  | cons entry entries ih =>
    by_cases own : entry.kind = call.kind
    · have listed : ofKind call.kind (entry :: entries) = entry :: ofKind call.kind entries := by
        simp [ofKind, own]
      by_cases counted : call.encoding = .byOrdinal ∧ walk.ordinal + 1 ≤ call.since
      · -- a row the client already knows
        have skips : call.skips walk.ordinal = call.skips (walk.ordinal + 1) + 1 := by
          simp only [Call.skips, counted.1]
          omega
        have step : walkEntry call walk entry =
            { walk with ordinal := walk.ordinal + 1, cursor := entry.seq } := by
          simp only [walkEntry, if_pos own, if_pos counted]
        rw [walk_batch_cons call entries (by rw [step]; exact fresh), step, listed, skips,
          List.drop_succ_cons]
        obtain ⟨taken, rest, later⟩ :=
          ih { walk with ordinal := walk.ordinal + 1, cursor := entry.seq } fresh
        refine ⟨taken, rest, later.split, later.folded, later.ended, later.idle, ?_, later.started⟩
        intro last isLast
        rw [later.cut last isLast]
        congr 1
        change walk.ordinal + 1 + call.skips (walk.ordinal + 1) + taken.length = _
        omega
      · have due : call.skips walk.ordinal = 0 := by
          unfold Call.skips
          cases encoding : call.encoding with
          | bySeq => rfl
          | byOrdinal =>
            have passed : ¬walk.ordinal + 1 ≤ call.since := fun early => counted ⟨encoding, early⟩
            change call.since - walk.ordinal = 0
            omega
        rw [listed, due, List.drop_zero]
        by_cases full : 0 < call.maxChanges ∧ isUnseenChangeID walk.folded entry.entityID ∧
            call.maxChanges ≤ walk.folded.count
        · simp only [walkBatch, walkEntry, if_pos own, if_neg counted, if_pos full, if_true]
          refine ⟨[], entry :: ofKind call.kind entries, rfl, rfl, ?_, fun _ => rfl, by simp, ?_⟩
          · intro more
            cases more
          · intro _ empty
            omega
        · let next : Walk :=
            { walk with
              ordinal := walk.ordinal + 1
              folded := foldChangeEntry walk.folded entry.change
              cutoff := call.place entry (walk.ordinal + 1)
              cursor := entry.seq }
          have step : walkEntry call walk entry = next := by
            simp only [walkEntry, if_pos own, if_neg counted, if_neg full, next]
          rw [walk_batch_cons call entries (by rw [step]; exact fresh), step]
          obtain ⟨taken, rest, later⟩ := ih next fresh
          have nextDue : call.skips next.ordinal = 0 := skips_passed due
          rw [nextDue, List.drop_zero] at later
          exact ⟨entry :: taken, rest, walked_further rfl rfl rfl due later⟩
    · have listed : ofKind call.kind (entry :: entries) = ofKind call.kind entries := by
        simp [ofKind, own]
      have step : walkEntry call walk entry = { walk with cursor := entry.seq } := by
        simp only [walkEntry, if_neg own]
      rw [walk_batch_cons call entries (by rw [step]; exact fresh), step, listed]
      obtain ⟨taken, rest, later⟩ := ih { walk with cursor := entry.seq } fresh
      exact ⟨taken, rest, later.split, later.folded, later.ended, later.idle, later.cut, later.started⟩

variable [DecidableEq Kind] (feed : Feed Kind)

def pending : List (Entry Kind) :=
  match call.encoding with
  | .bySeq => ofKind call.kind (entriesAfter feed call.principal call.userOnly call.since)
  | .byOrdinal => (ofKind call.kind (entriesAfter feed call.principal call.userOnly 0)).drop call.since

theorem walk_changes_spec :
    ∃ taken rest, Walked call { cutoff := call.since, cursor := 0 } (walkChanges call feed)
      (pending call feed) taken rest := by
  unfold walkChanges pending
  cases encoding : call.encoding with
  | bySeq =>
    rw [walk_pages_eq call feed _ rfl]
    obtain ⟨taken, rest, walked⟩ := walk_batch_spec call
      (entriesAfter feed call.principal call.userOnly call.since)
      { cutoff := call.since, cursor := call.since } rfl
    have skips : call.skips 0 = 0 := by simp only [Call.skips, encoding]
    have split := walked.split
    change (ofKind call.kind _).drop (call.skips 0) = taken ++ rest at split
    rw [skips, List.drop_zero] at split
    exact ⟨taken, rest, split, walked.folded, walked.ended, walked.idle, walked.cut, walked.started⟩
  | byOrdinal =>
    rw [walk_pages_eq call feed _ rfl]
    obtain ⟨taken, rest, walked⟩ := walk_batch_spec call
      (entriesAfter feed call.principal call.userOnly 0) { cutoff := call.since, cursor := 0 } rfl
    have skips : call.skips 0 = call.since := by simp only [Call.skips, encoding, Nat.sub_zero]
    have split := walked.split
    change (ofKind call.kind _).drop (call.skips 0) = taken ++ rest at split
    rw [skips] at split
    exact ⟨taken, rest, split, walked.folded, walked.ended, walked.idle, walked.cut, walked.started⟩

theorem of_kind_ascends (kind : Kind) (principal : PrincipalID) (userOnly : Bool) (fromSeq : Nat) :
    (ofKind kind (entriesAfter feed principal userOnly fromSeq)).Pairwise fun left right =>
      left.seq < right.seq :=
  (entries_ascend feed principal userOnly fromSeq).sublist List.filter_sublist

variable {call} {feed}

/-- The cutoff of a trimmed answer is ahead of the state it was asked from, and what
stands behind it is what the answer left out. -/
theorem pending_after_cutoff {taken rest : List (Entry Kind)}
    (walked : Walked call { cutoff := call.since, cursor := 0 } (walkChanges call feed)
      (pending call feed)
      taken rest) (some : taken ≠ []) :
    call.since < (walkChanges call feed).cutoff ∧
      pending { call with since := (walkChanges call feed).cutoff } feed = rest := by
  have isLast := List.getLast?_eq_some_getLast some
  obtain ⟨front, ends⟩ := List.getLast?_eq_some_iff.mp isLast
  have cut := walked.cut _ isLast
  generalize taken.getLast some = last at *
  have split := walked.split
  unfold pending at split ⊢
  cases encoding : call.encoding with
  | bySeq =>
    simp only [Call.place, encoding] at cut split ⊢
    rw [ends, List.append_assoc, List.singleton_append] at split
    have listed : last ∈ ofKind call.kind
      (entriesAfter feed call.principal call.userOnly call.since) := by
      rw [split]
      simp
    have later := entry_after feed call.principal call.userOnly (List.mem_filter.mp listed).1
    refine ⟨by rw [cut]; exact later, ?_⟩
    rw [cut, entries_after_later feed call.principal call.userOnly (Nat.le_of_lt later)]
    have narrowed := filter_behind
      (of_kind_ascends feed call.kind call.principal call.userOnly call.since) split
    rw [← narrowed]
    simp only [ofKind, List.filter_filter, Bool.and_comm]
  | byOrdinal =>
    have skips : call.skips 0 = call.since := by simp only [Call.skips, encoding, Nat.sub_zero]
    simp only [Call.place, encoding, skips, Nat.zero_add] at cut split ⊢
    have moved := List.length_pos_of_ne_nil some
    refine ⟨by omega, ?_⟩
    rw [cut, ← List.drop_drop, split, List.drop_left]

end Spec

section Bound

def Walk.reported (walk : Walk) : Finset Nat :=
  (walk.folded.created ++ walk.folded.updated ++ walk.folded.destroyed).toFinset

theorem mem_reported {walk : Walk} {id : Nat} :
    id ∈ walk.reported ↔
      id ∈ walk.folded.created ∨ id ∈ walk.folded.updated ∨ id ∈ walk.folded.destroyed := by
  simp [Walk.reported]

theorem reported_card_le (walk : Walk) : walk.reported.card ≤ walk.folded.count := by
  refine (List.toFinset_card_le _).trans_eq ?_
  simp [Folded.count, Nat.add_assoc]

theorem unseen_iff {walk : Walk} {id : Nat} : isUnseenChangeID walk.folded id ↔ id ∉ walk.reported := by
  rw [mem_reported]
  simp [isUnseenChangeID, and_assoc]

theorem fold_reports {walk next : Walk} {change : StateChange}
    (folded : next.folded = foldChangeEntry walk.folded change) :
    next.reported ⊆ insert change.entityID walk.reported := by
  intro id told
  rw [mem_reported, folded] at told
  rw [Finset.mem_insert, mem_reported]
  unfold foldChangeEntry at told
  cases op : change.op with
  | created => grind
  | updated => grind
  | destroyed => grind

variable [DecidableEq Kind] (call : Call Kind)

theorem walk_entry_bounded (limited : 0 < call.maxChanges) (walk : Walk) (entry : Entry Kind)
    (bounded : walk.reported.card ≤ call.maxChanges) :
    (walkEntry call walk entry).reported.card ≤ call.maxChanges := by
  by_cases own : entry.kind = call.kind
  · by_cases counted : call.encoding = .byOrdinal ∧ walk.ordinal + 1 ≤ call.since
    · simp only [walkEntry, if_pos own, if_pos counted]
      exact bounded
    · by_cases full : 0 < call.maxChanges ∧ isUnseenChangeID walk.folded entry.entityID ∧
          call.maxChanges ≤ walk.folded.count
      · simp only [walkEntry, if_pos own, if_neg counted, if_pos full]
        exact bounded
      · have folded : (walkEntry call walk entry).folded =
          foldChangeEntry walk.folded entry.change := by
          simp only [walkEntry, if_pos own, if_neg counted, if_neg full]
        have grows := Finset.card_le_card (fold_reports folded)
        by_cases seen : entry.entityID ∈ walk.reported
        · rw [show entry.change.entityID = entry.entityID from rfl,
            Finset.insert_eq_of_mem seen] at grows
          exact grows.trans bounded
        · have room : walk.folded.count < call.maxChanges := by
            by_contra reached
            exact full ⟨limited, unseen_iff.mpr seen, Nat.le_of_not_lt reached⟩
          have size := reported_card_le walk
          have inserted := Finset.card_insert_le entry.change.entityID walk.reported
          omega
  · simp only [walkEntry, if_neg own]
    exact bounded

theorem walk_batch_bounded (limited : 0 < call.maxChanges) (entries : List (Entry Kind)) (walk : Walk)
    (bounded : walk.reported.card ≤ call.maxChanges) :
    (walkBatch call entries walk).reported.card ≤ call.maxChanges := by
  induction entries generalizing walk with
  | nil => exact bounded
  | cons entry entries ih =>
    have next := walk_entry_bounded call limited walk entry bounded
    unfold walkBatch
    by_cases stopped : (walkEntry call walk entry).hasMore
    · simp only [stopped, if_true]
      exact next
    · simp only [stopped]
      exact ih _ next

theorem walk_changes_bounded (limited : 0 < call.maxChanges) (feed : Feed Kind) :
    (walkChanges call feed).reported.card ≤ call.maxChanges := by
  unfold walkChanges
  rw [walk_pages_eq call feed _ rfl]
  exact walk_batch_bounded call limited _ _ (by simp [Walk.reported])

theorem walk_batch_unlimited (unlimited : call.maxChanges = 0) (entries : List (Entry Kind))
    (walk : Walk)
    (fresh : walk.hasMore = false) : (walkBatch call entries walk).hasMore = false := by
  induction entries generalizing walk with
  | nil => exact fresh
  | cons entry entries ih =>
    have next : (walkEntry call walk entry).hasMore = false := by
      unfold walkEntry
      split_ifs with own counted full
      · exact fresh
      · omega
      · exact fresh
      · exact fresh
    rw [walk_batch_cons call entries next]
    exact ih _ next

end Bound

/-! ## Windows of the feed

A client that asks until there is no more to tell sees the rows behind its state cut
into windows, each folded on its own. -/

section Windows

/-- Each identifier is created at most once and has no row behind its destruction. -/
def OnceOnly (entries : List (Entry Kind)) : Prop :=
  entries.Pairwise fun earlier later => earlier.entityID = later.entityID →
    earlier.op ≠ .destroyed ∧ ¬(earlier.op = .created ∧ later.op = .created)

def Says (entries : List (Entry Kind)) (id : Nat) (op : ChangeOp) : Prop :=
  ∃ entry ∈ entries, entry.entityID = id ∧ entry.op = op

theorem says_append {entries more : List (Entry Kind)} {id : Nat} {op : ChangeOp} :
    Says (entries ++ more) id op ↔ Says entries id op ∨ Says more id op := by
  simp [Says, or_and_right, exists_or]

section

variable {entries : List (Entry Kind)} {windows : List (List (Entry Kind))} {known : List Nat}
  {id : Nat}

theorem mentions_change {op : ChangeOp} :
    Mentions (entries.map Entry.change) id op ↔ Says entries id op := by
  simp [Mentions, Says, Entry.change]

def applied (known : List Nat) (folded : Folded) : List Nat :=
  (known ++ folded.created).filter fun id => !folded.destroyed.contains id

theorem mem_applied {folded : Folded} {id : Nat} :
    id ∈ applied known folded ↔ (id ∈ known ∨ id ∈ folded.created) ∧ id ∉ folded.destroyed := by
  simp [applied, or_and_right]

theorem fold_elsewhere {changes : List StateChange} {id : MessageID}
    (elsewhere : ∀ change ∈ changes, change.entityID ≠ id) (folded : Folded) :
    (id ∈ (changes.foldl foldChangeEntry folded).created ↔ id ∈ folded.created) ∧
      (id ∈ (changes.foldl foldChangeEntry folded).destroyed ↔ id ∈ folded.destroyed) := by
  induction changes generalizing folded with
  | nil => exact ⟨Iff.rfl, Iff.rfl⟩
  | cons change changes ih =>
    have other := elsewhere change (List.mem_cons_self ..)
    obtain ⟨made, gone⟩ := ih (fun later member => elsewhere later (List.mem_cons_of_mem _ member))
      (foldChangeEntry folded change)
    rw [List.foldl_cons, made, gone]
    unfold foldChangeEntry
    cases op : change.op with
    | created => grind
    | updated => grind
    | destroyed => grind

theorem not_destroyed_before (id : Nat) : id ∉ ({} : Folded).destroyed := List.not_mem_nil

theorem not_created_before (id : Nat) : id ∉ ({} : Folded).created := List.not_mem_nil

/-- A row that destroys an identifier is the last one about it, so the fold reports it
as destroyed unless the same window created it. -/
theorem fold_of_destroyed (once : OnceOnly entries) (gone : Says entries id .destroyed) :
    id ∉ (foldEntries entries {}).created ∧
      (id ∈ (foldEntries entries {}).destroyed ↔ ¬Says entries id .created) := by
  obtain ⟨entry, member, rfl, destroys⟩ := gone
  obtain ⟨front, back, rfl⟩ := List.append_of_mem member
  obtain ⟨_, backOnce, across⟩ := List.pairwise_append.mp once
  have behind : ∀ change ∈ back.map Entry.change, change.entityID ≠ entry.entityID := by
    intro change listed same
    obtain ⟨later, among, rfl⟩ := List.mem_map.mp listed
    exact ((List.pairwise_cons.mp backOnce).1 later among same.symm).1 destroys
  have alive : ¬Mentions (front.map Entry.change) entry.entityID .destroyed := by
    rw [mentions_change]
    rintro ⟨earlier, among, same, gone⟩
    exact (across earlier among entry (List.mem_cons_self ..) same).1 gone
  have inFront : Says (front ++ entry :: back) entry.entityID .created ↔
      Says front entry.entityID .created := by
    rw [says_append, or_iff_left]
    rintro ⟨later, among, same, made⟩
    rcases List.mem_cons.mp among with rfl | among
    · rw [destroys] at made
      cases made
    · exact behind later.change (List.mem_map_of_mem among) same
  obtain ⟨made, notGone, _⟩ := fold_without_destroyed alive (not_destroyed_before _)
  have unchanged := fold_elsewhere behind
    (foldChangeEntry ((front.map Entry.change).foldl foldChangeEntry {}) entry.change)
  have whole : foldEntries (front ++ entry :: back) {} =
      (back.map Entry.change).foldl foldChangeEntry
        (foldChangeEntry ((front.map Entry.change).foldl foldChangeEntry {}) entry.change) := by
    simp [foldEntries]
  rw [mentions_change] at made
  rw [whole, unchanged.1, unchanged.2, inFront]
  have op : entry.change.op = .destroyed := destroys
  have about : entry.change.entityID = entry.entityID := rfl
  simp only [foldChangeEntry, op, about]
  grind

theorem applied_window (once : OnceOnly entries) (unknown : Says entries id .created → id ∉ known) :
    id ∈ applied known (foldEntries entries {}) ↔
      (id ∈ known ∨ Says entries id .created) ∧ ¬Says entries id .destroyed := by
  rw [mem_applied]
  by_cases gone : Says entries id .destroyed
  · obtain ⟨notMade, destroyed⟩ := fold_of_destroyed once gone
    rw [destroyed]
    grind
  · have alive : ¬Mentions (entries.map Entry.change) id .destroyed := by rwa [mentions_change]
    obtain ⟨made, notGone, _⟩ := fold_without_destroyed alive (not_destroyed_before _)
    rw [mentions_change] at made
    unfold foldEntries
    rw [made]
    simp [gone, notGone]

def appliedAll (known : List Nat) (windows : List (List (Entry Kind))) : List Nat :=
  windows.foldl (fun held window => applied held (foldEntries window {})) known

theorem applied_windows (once : OnceOnly windows.flatten)
    (unknown : Says windows.flatten id .created → id ∉ known) :
    id ∈ appliedAll known windows ↔
      (id ∈ known ∨ Says windows.flatten id .created) ∧ ¬Says windows.flatten id .destroyed := by
  induction windows generalizing known with
  | nil => simp [appliedAll, Says]
  | cons window windows ih =>
    rw [List.flatten_cons] at once unknown ⊢
    obtain ⟨here, later, across⟩ := List.pairwise_append.mp once
    have first : id ∈ applied known (foldEntries window {}) ↔
        (id ∈ known ∨ Says window id .created) ∧ ¬Says window id .destroyed :=
      applied_window here fun made => unknown (says_append.mpr (Or.inl made))
    have step := @ih (applied known (foldEntries window {})) later ?_
    · change id ∈ appliedAll (applied known (foldEntries window {})) windows ↔ _
      have ended : Says window id .destroyed → ¬Says windows.flatten id .created := by
        rintro ⟨entry, member, rfl, gone⟩ ⟨other, among, same, _⟩
        exact (across entry member other among same.symm).1 gone
      rw [step, first, says_append, says_append]
      by_cases gone : Says window id .destroyed
      · simp [gone, ended gone]
      · simp [gone, or_assoc]
    · intro made known
      rcases (first.mp known).1 with held | before
      · exact unknown (says_append.mpr (Or.inr made)) held
      · obtain ⟨entry, member, same, op⟩ := before
        obtain ⟨other, among, alsoSame, alsoMade⟩ := made
        exact (across entry member other among (same.trans alsoSame.symm)).2 ⟨op, alsoMade⟩

theorem entry_reports {change : StateChange} {folded : Folded} {id : Nat}
    (told : id ∈ (foldChangeEntry folded change).created ∨
      id ∈ (foldChangeEntry folded change).updated) :
    id ∈ folded.created ∨ id ∈ folded.updated ∨ change.entityID = id := by
  unfold foldChangeEntry at told
  cases op : change.op with
  | created => grind
  | updated => grind
  | destroyed => grind

theorem says_of_fold {changes : List StateChange} {folded : Folded} {id : Nat}
    (told : id ∈ (changes.foldl foldChangeEntry folded).created ∨
      id ∈ (changes.foldl foldChangeEntry folded).updated) :
    id ∈ folded.created ∨ id ∈ folded.updated ∨ ∃ op, Mentions changes id op := by
  induction changes generalizing folded with
  | nil => exact told.imp_right Or.inl
  | cons change changes ih =>
    have here : change.entityID = id → ∃ op, Mentions (change :: changes) id op := fun about =>
      ⟨change.op, mentions_cons.mpr (Or.inl ⟨about, rfl⟩)⟩
    rcases ih told with made | touched | ⟨op, later⟩
    · exact (entry_reports (Or.inl made)).imp_right (Or.imp_right here)
    · exact (entry_reports (Or.inr touched)).imp_right (Or.imp_right here)
    · exact Or.inr (Or.inr ⟨op, mentions_cons.mpr (Or.inr later)⟩)

theorem says_of_reported (told : id ∈ (foldEntries entries {}).created ∨
    id ∈ (foldEntries entries {}).updated) :
    ∃ op, Says entries id op := by
  rcases says_of_fold told with made | touched | ⟨op, mentioned⟩
  · cases made
  · cases touched
  · exact ⟨op, mentions_change.mp mentioned⟩

theorem reported_in_window {op : ChangeOp}
    (about : Says windows.flatten id op) (alive : ¬Says windows.flatten id .destroyed) :
    ∃ window ∈ windows, id ∈ (foldEntries window {}).created ∨
    id ∈ (foldEntries window {}).updated := by
  obtain ⟨entry, member, same, isOp⟩ := about
  obtain ⟨window, among, inside⟩ := List.mem_flatten.mp member
  refine ⟨window, among, ?_⟩
  have kept : ¬Mentions (window.map Entry.change) id .destroyed := by
    rw [mentions_change]
    rintro ⟨other, listed, about, gone⟩
    exact alive ⟨other, List.mem_flatten.mpr ⟨window, among, listed⟩, about, gone⟩
  have told := (fold_without_destroyed kept (not_destroyed_before id)).2.2
  exact told (Or.inr (Or.inr ⟨op, mentions_change.mpr ⟨entry, inside, same, isOp⟩⟩))

theorem destroyed_in_window (gone : Says windows.flatten id .destroyed)
    (old : ¬Says windows.flatten id .created) :
    ∃ window ∈ windows, id ∈ (foldEntries window {}).destroyed := by
  obtain ⟨entry, member, same, isOp⟩ := gone
  obtain ⟨window, among, inside⟩ := List.mem_flatten.mp member
  refine ⟨window, among, ?_⟩
  have unmade : ¬Mentions (window.map Entry.change) id .created := by
    rw [mentions_change]
    rintro ⟨other, listed, about, made⟩
    exact old ⟨other, List.mem_flatten.mpr ⟨window, among, listed⟩, about, made⟩
  have told := (fold_without_created unmade (not_created_before id)).1
  exact told.mpr (Or.inr (mentions_change.mpr ⟨entry, inside, same, isOp⟩))

end

end Windows

end Herold.ChangeFeed

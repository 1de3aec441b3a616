import Herold.Maillist.HeldPost
import Mathlib.Data.List.Nodup
import Mathlib.Tactic.SplitIfs

/-!
# A held post is decided once

Whatever calls are made for a held post, in whatever order their store
operations fall and wherever they stop: a rejected or discarded post was never
fanned out, no member has two copies, and the reference to the blob is released
with the decision. The archive has one copy as long as no call goes by a latch
whose copy is still to be filed.
-/

namespace Herold.Maillist

open Herold.Go Herold.Machine

def Call.inFanOut : Call → Bool
  | claimed | gettingList | readingBlob _ | claimingArchive _ | puttingArchive _ | filingArchive _
  | paging _ | sending _ _ _ | finalizing => true
  | claiming _ | rereading | gettingPost _ _ _ | gettingPostList _ _ _ | deciding _ _ _ | ended => false

def Call.holdsLatch : Call → Bool
  | puttingArchive _ | filingArchive _ => true
  | _ => false

def Call.pastArchive : Call → Bool
  | paging _ | sending _ _ _ | finalizing => true
  | _ => false

def Call.unserved (answer : Answer) : Call → Bool
  | readingBlob none => true
  | claimingArchive _ | puttingArchive _ | filingArchive _ => answer.fails
  | _ => false

inductive Effect (id : Nat) (answer : Answer) (store : HeldStore) : Call → HeldStore → Call → Prop where
  | quiet {call next : Call} (fansOut : next.inFanOut = true → call.inFanOut = true)
      (holds : next.holdsLatch = true → call.holdsLatch = true)
      (passes : next.pastArchive = true → call.pastArchive = true ∨ call.unserved answer = true ∨
        ∃ shaped, call = .claimingArchive shaped ∧ store.row.archivedAt ≠ none) :
      Effect id answer store call store next
  | claim (approver : Nat) (free : store.row.status = .pending ∨ store.row.status = .approving) :
      Effect id answer store (.claiming approver)
        { store with row := { store.row with
            status := .approving, decidedAt := some answer.now, decidedBy := some approver } } .claimed
  | latch (shaped : Bytes) (untaken : store.row.archivedAt = none) :
      Effect id answer store (.claimingArchive shaped)
        { store with row := { store.row with archivedAt := some answer.now } } (.puttingArchive shaped)
  | file (shaped : Bytes) :
      Effect id answer store (.filingArchive shaped)
        { store with archive := store.archive ++ [shaped] } (.paging shaped)
  | submit (shaped : Bytes) (copy : QueuedCopy) (member : Member) (members : List Member)
      (lastPage : Bool) (keyed : copy.idempotencyKey = memberIdempotencyKey id copy.member) :
      Effect id answer store (.sending shaped (member :: members) lastPage)
        { store with queue := queueSubmit store.queue copy } (.sending shaped members lastPage)
  | finalize (approving : store.row.status = .approving) :
      Effect id answer store .finalizing
        { store with row := { store.row with status := .approved }, released := store.released + 1 }
        .rereading
  | dispose (disposal : Disposal) (actor : Nat) (note : Bytes) (pending : store.row.status = .pending) :
      Effect id answer store (.deciding disposal actor note)
        { store with
          row := { store.row with
            status := disposal.status
            decidedAt := some answer.now
            decidedBy := some actor
            decisionNote := note }
          released := store.released + 1 } .rereading

theorem advance_effect (id : Nat) (answer : Answer) (store : HeldStore) (call : Call) :
    Effect id answer store call (call.advance id answer store).1 (call.advance id answer store).2 := by
  have ends (call : Call) : Effect id answer store call store .ended := .quiet nofun nofun nofun
  cases call with
  | claiming approver =>
    simp only [Call.advance, claimHeldPostForApproval]
    split_ifs with fails free
    · exact ends _
    · exact .claim approver (free.imp_right And.left)
    · exact ends _
  | claimed =>
    simp only [Call.advance]
    split_ifs
    · exact ends _
    · exact .quiet (fun _ => rfl) nofun nofun
  | gettingList =>
    simp only [Call.advance]
    split_ifs
    · exact ends _
    · exact .quiet (fun _ => rfl) nofun nofun
  | readingBlob archive =>
    simp only [Call.advance]
    split_ifs
    · exact ends _
    · cases archive with
      | none => exact .quiet (fun _ => rfl) nofun fun _ => .inr (.inl rfl)
      | some mailbox => exact .quiet (fun _ => rfl) nofun nofun
  | claimingArchive shaped =>
    simp only [Call.advance, claimHeldPostArchive]
    split_ifs with fails taken
    · exact .quiet (fun _ => rfl) nofun fun _ => .inr (.inl fails)
    · exact .latch shaped taken
    · exact .quiet (fun _ => rfl) nofun fun _ => .inr (.inr ⟨shaped, rfl, taken⟩)
  | puttingArchive shaped =>
    simp only [Call.advance]
    split_ifs with fails
    · exact .quiet (fun _ => rfl) nofun fun _ => .inr (.inl fails)
    · exact .quiet (fun _ => rfl) (fun _ => rfl) nofun
  | filingArchive shaped =>
    simp only [Call.advance]
    split_ifs with fails
    · exact .quiet (fun _ => rfl) nofun fun _ => .inr (.inl fails)
    · exact .file shaped
  | paging shaped =>
    simp only [Call.advance]
    split_ifs
    · exact ends _
    · exact .quiet (fun _ => rfl) nofun fun _ => .inl rfl
  | sending shaped members lastPage =>
    cases members with
    | nil =>
      simp only [Call.advance]
      split_ifs
      · exact .quiet (fun _ => rfl) nofun fun _ => .inl rfl
      · exact .quiet (fun _ => rfl) nofun fun _ => .inl rfl
    | cons member members =>
      simp only [Call.advance]
      split_ifs
      · exact .quiet (fun _ => rfl) nofun fun _ => .inl rfl
      · exact .submit shaped _ member members lastPage rfl
  | finalizing =>
    simp only [Call.advance, finalizeHeldPostApproval]
    split_ifs with fails approving
    · exact ends _
    · exact .finalize approving
    · exact .quiet nofun nofun nofun
  | rereading => exact ends _
  | gettingPost disposal actor note =>
    simp only [Call.advance]
    split_ifs
    · exact ends _
    · exact .quiet nofun nofun nofun
  | gettingPostList disposal actor note =>
    simp only [Call.advance]
    split_ifs
    · exact ends _
    · exact .quiet nofun nofun nofun
  | deciding disposal actor note =>
    simp only [Call.advance, decideHeldPost]
    split_ifs with fails pending
    · exact ends _
    · exact .dispose disposal actor note pending
    · exact ends _
  | ended => exact ends _

structure Undelivered (state : Moderation) : Prop where
  queue : state.store.queue = []
  archive : state.store.archive = []
  untaken : state.store.row.archivedAt = none
  idle : ∀ call ∈ state.calls, call.inFanOut = false

def HeldPostStatus.wasApproved : HeldPostStatus → Bool
  | approving | approved => true
  | pending | rejected | discarded => false

structure ModerationSafe (id : Nat) (state : Moderation) : Prop where
  released : state.store.released = if state.store.row.status.isTerminal then 1 else 0
  undelivered : state.store.row.status.wasApproved = false → Undelivered state
  keyed : ∀ copy ∈ state.store.queue, copy.idempotencyKey = memberIdempotencyKey id copy.member
  unique : (state.store.queue.map QueuedCopy.idempotencyKey).Nodup
  filed : state.store.archive.length + state.calls.countP Call.holdsLatch ≤
    if state.store.row.archivedAt = none then 0 else 1

theorem start_moderation_safe (id : Nat) : ModerationSafe id {} where
  released := rfl
  undelivered := fun _ => ⟨rfl, rfl, rfl, by simp⟩
  keyed := by simp
  unique := by simp
  filed := by simp

theorem submit_keeps (id : Nat) (queue : List QueuedCopy) (copy : QueuedCopy)
    (keyed : ∀ other ∈ queue, other.idempotencyKey = memberIdempotencyKey id other.member)
    (unique : (queue.map QueuedCopy.idempotencyKey).Nodup)
    (fits : copy.idempotencyKey = memberIdempotencyKey id copy.member) :
    (∀ other ∈ queueSubmit queue copy, other.idempotencyKey = memberIdempotencyKey id other.member) ∧
      ((queueSubmit queue copy).map QueuedCopy.idempotencyKey).Nodup := by
  unfold queueSubmit
  split
  case isTrue => exact ⟨keyed, unique⟩
  case isFalse fresh =>
    constructor
    · intro other member
      rcases List.mem_append.mp member with before | last
      · exact keyed other before
      · rw [List.mem_singleton.mp last]
        exact fits
    · rw [List.map_append, List.nodup_append]
      refine ⟨unique, by simp, ?_⟩
      intro key before other last same
      obtain ⟨earlier, member, rfl⟩ := List.mem_map.mp before
      rw [List.map_singleton, List.mem_singleton] at last
      apply fresh
      rw [List.any_eq_true]
      exact ⟨earlier, member, decide_eq_true (same.trans last)⟩

section

variable {id : Nat} {state : Moderation} (safe : ModerationSafe id state)

include safe

theorem fan_out_approved (index : Nat) (call : Call) (found : state.calls[index]? = some call)
    (fansOut : call.inFanOut = true) : state.store.row.status.wasApproved = true := by
  by_contra refused
  have idle := (safe.undelivered (by simpa using refused)).idle call
    (List.mem_of_getElem? found)
  rw [fansOut] at idle
  cases idle

theorem latch_held (index : Nat) (call : Call) (found : state.calls[index]? = some call)
    (holds : call.holdsLatch = true) :
    state.store.archive = [] ∧ state.store.row.archivedAt ≠ none ∧
      state.calls.countP Call.holdsLatch = 1 := by
  have some : 0 < state.calls.countP Call.holdsLatch :=
    List.countP_pos_iff.mpr ⟨call, List.mem_of_getElem? found, holds⟩
  have filed := safe.filed
  by_cases taken : state.store.row.archivedAt = none
  · rw [if_pos taken] at filed
    omega
  · rw [if_neg taken] at filed
    refine ⟨?_, taken, by omega⟩
    rw [← List.length_eq_zero_iff]
    omega

end

theorem set_idle (calls : List Call) (index : Nat) (next : Call)
    (idle : ∀ call ∈ calls, call.inFanOut = false) (quiet : next.inFanOut = false) :
    ∀ call ∈ calls.set index next, call.inFanOut = false := by
  intro call member
  rcases List.mem_or_eq_of_mem_set member with before | rfl
  · exact idle call before
  · exact quiet

theorem count_set (calls : List Call) (index : Nat) (call next : Call)
    (found : calls[index]? = some call) :
    (calls.set index next).countP Call.holdsLatch + (if call.holdsLatch then 1 else 0) =
      calls.countP Call.holdsLatch + if next.holdsLatch then 1 else 0 := by
  obtain ⟨inside, same⟩ := List.getElem?_eq_some_iff.mp found
  have present : (if call.holdsLatch then 1 else 0) ≤ calls.countP Call.holdsLatch := by
    split
    case isTrue holds =>
      exact List.countP_pos_iff.mpr ⟨call, List.mem_of_getElem? found, holds⟩
    case isFalse => exact Nat.zero_le _
  rw [List.countP_set inside, same]
  omega

section

variable (id : Nat) (state : Moderation) (move : Move)

theorem effect_moderation_safe (answer : Answer) (state : Moderation) (index : Nat)
    (call next : Call) (store : HeldStore) (found : state.calls[index]? = some call)
    (effect : Effect id answer state.store call store next) (safe : ModerationSafe id state) :
    ModerationSafe id { store, calls := state.calls.set index next } := by
  have count := count_set state.calls index call next found
  have filed := safe.filed
  have released := safe.released
  cases effect with
  | quiet fansOut holds passes =>
    refine ⟨released, ?_, safe.keyed, safe.unique, ?_⟩
    · intro refused
      obtain ⟨queue, archive, untaken, idle⟩ := safe.undelivered refused
      refine ⟨queue, archive, untaken, set_idle _ _ _ idle ?_⟩
      rw [← Bool.not_eq_true]
      intro enters
      have silent := idle call (List.mem_of_getElem? found)
      rw [fansOut enters] at silent
      cases silent
    · have fewer : (state.calls.set index next).countP Call.holdsLatch ≤
          state.calls.countP Call.holdsLatch := by
        cases kept : next.holdsLatch with
        | true =>
          rw [kept, holds kept] at count
          omega
        | false =>
          rw [kept] at count
          simp only [Bool.false_eq_true, if_false] at count
          omega
      exact Nat.le_trans (Nat.add_le_add_left fewer _) filed
  | claim approver free =>
    refine ⟨?_, nofun, safe.keyed, safe.unique, ?_⟩
    · rcases free with pending | approving
      · simpa [pending, HeldPostStatus.isTerminal] using released
      · simpa [approving, HeldPostStatus.isTerminal] using released
    · have same : (state.calls.set index .claimed).countP Call.holdsLatch =
          state.calls.countP Call.holdsLatch := count
      rw [same]
      exact filed
  | latch shaped untaken =>
    have approved := fan_out_approved safe index _ found rfl
    refine ⟨released, ?_, safe.keyed, safe.unique, ?_⟩
    · intro refused
      rw [approved] at refused
      cases refused
    · rw [if_pos untaken] at filed
      have more : (state.calls.set index (.puttingArchive shaped)).countP Call.holdsLatch =
          state.calls.countP Call.holdsLatch + 1 := count
      show state.store.archive.length + _ ≤ _
      rw [more, if_neg (Option.some_ne_none _)]
      omega
  | file shaped =>
    have approved := fan_out_approved safe index _ found rfl
    obtain ⟨empty, taken, one⟩ := latch_held safe index _ found rfl
    refine ⟨released, ?_, safe.keyed, safe.unique, ?_⟩
    · intro refused
      rw [approved] at refused
      cases refused
    · have fewer : (state.calls.set index (.paging shaped)).countP Call.holdsLatch + 1 =
          state.calls.countP Call.holdsLatch := count
      simp only [empty, List.nil_append, List.length_singleton, if_neg taken]
      omega
  | submit shaped copy member members lastPage fits =>
    have approved := fan_out_approved safe index _ found rfl
    obtain ⟨keyed, unique⟩ := submit_keeps id state.store.queue copy safe.keyed safe.unique fits
    refine ⟨released, ?_, keyed, unique, ?_⟩
    · intro refused
      rw [approved] at refused
      cases refused
    · have same : (state.calls.set index (.sending shaped members lastPage)).countP Call.holdsLatch =
          state.calls.countP Call.holdsLatch := count
      rw [same]
      exact filed
  | finalize approving =>
    refine ⟨?_, nofun, safe.keyed, safe.unique, ?_⟩
    · rw [approving] at released
      simp only [released, HeldPostStatus.isTerminal]
      rfl
    · have same : (state.calls.set index .rereading).countP Call.holdsLatch =
          state.calls.countP Call.holdsLatch := count
      rw [same]
      exact filed
  | dispose disposal actor note pending =>
    have refused := safe.undelivered (by rw [pending]; rfl)
    refine ⟨?_, ?_, safe.keyed, safe.unique, ?_⟩
    · rw [pending] at released
      cases disposal with
      | rejected => simp only [released]; rfl
      | discarded => simp only [released]; rfl
    · intro _
      exact ⟨refused.queue, refused.archive, refused.untaken, set_idle _ _ _ refused.idle rfl⟩
    · have same : (state.calls.set index .rereading).countP Call.holdsLatch =
          state.calls.countP Call.holdsLatch := count
      rw [same]
      exact filed

theorem call_added_safe (call : Call) (fresh : call.inFanOut = false)
    (free : call.holdsLatch = false) (safe : ModerationSafe id state) :
    ModerationSafe id { state with calls := state.calls ++ [call] } where
  released := safe.released
  undelivered := by
    intro refused
    obtain ⟨queue, archive, untaken, idle⟩ := safe.undelivered refused
    refine ⟨queue, archive, untaken, ?_⟩
    intro other member
    rcases List.mem_append.mp member with before | last
    · exact idle other before
    · rw [List.mem_singleton.mp last]
      exact fresh
  keyed := safe.keyed
  unique := safe.unique
  filed := by simpa [List.countP_append, free] using safe.filed

theorem move_cases (next : Moderation) (ran : (moderationMachine id).step state move = some next) :
    (∃ call, call.inFanOut = false ∧ call.holdsLatch = false ∧ call.pastArchive = false ∧
        next = { state with calls := state.calls ++ [call] }) ∨
      (∃ index answer call, move = .advance index answer ∧ state.calls[index]? = some call ∧
        next = { store := (call.advance id answer state.store).1,
                 calls := state.calls.set index (call.advance id answer state.store).2 }) ∨
        ∃ index call, state.calls[index]? = some call ∧
          next = { state with calls := state.calls.set index .ended } := by
  have ran : state.step id move = some next := ran
  cases move with
  | approve approver =>
    simp only [Moderation.step, Option.some.injEq] at ran
    exact .inl ⟨_, rfl, rfl, rfl, ran.symm⟩
  | dispose disposal actor note =>
    simp only [Moderation.step, Option.some.injEq] at ran
    exact .inl ⟨_, rfl, rfl, rfl, ran.symm⟩
  | advance index answer =>
    simp only [Moderation.step] at ran
    cases found : state.calls[index]? with
    | none => simp [found] at ran
    | some call =>
      simp only [found, Option.some.injEq] at ran
      exact .inr (.inl ⟨index, answer, call, rfl, found, ran.symm⟩)
  | crash index =>
    simp only [Moderation.step] at ran
    cases found : state.calls[index]? with
    | none => simp [found] at ran
    | some call =>
      simp only [found, Option.some.injEq] at ran
      exact .inr (.inr ⟨index, call, found, ran.symm⟩)

theorem crash_moderation_safe (index : Nat) (call : Call)
    (found : state.calls[index]? = some call) (safe : ModerationSafe id state) :
    ModerationSafe id { state with calls := state.calls.set index .ended } :=
  effect_moderation_safe id { now := 0 } state index call .ended state.store found
    (.quiet nofun nofun nofun) safe

theorem step_moderation_safe (next : Moderation)
    (safe : ModerationSafe id state) (ran : (moderationMachine id).step state move = some next) :
    ModerationSafe id next := by
  obtain ⟨call, fresh, free, -, rfl⟩ | ⟨index, answer, call, rfl, found, rfl⟩ | ⟨index, call,
    found, rfl⟩ :=
    move_cases id state move next ran
  · exact call_added_safe id state call fresh free safe
  · exact effect_moderation_safe id answer state index call _ _ found
      (advance_effect id answer state.store call) safe
  · exact crash_moderation_safe id state index call found safe

/-- A call finds the latch taken, and the copy it stands for is not filed yet. -/
def latchWithoutCopy (state : Moderation) : Call → Bool
  | .claimingArchive _ => state.store.row.archivedAt.isSome && state.store.archive.isEmpty
  | _ => false

/-- The list has an archive and its operations succeed, and no call goes by a
latch whose copy is still to be filed. -/
def archiveServed (state : Moderation) : Move → Bool
  | .advance index answer =>
    state.calls[index]?.all fun call => !call.unserved answer && !latchWithoutCopy state call
  | _ => true

structure ArchiveSafe (id : Nat) (state : Moderation) : Prop extends ModerationSafe id state where
  past : ∀ call ∈ state.calls, call.pastArchive = true → state.store.archive ≠ []
  approved : state.store.row.status = .approved → state.store.archive ≠ []

/-- A call that comes through `fileArchive` leaves a copy behind. -/
theorem effect_archive_safe (answer : Answer) (state : Moderation) (index : Nat)
    (call next : Call) (store : HeldStore) (found : state.calls[index]? = some call)
    (effect : Effect id answer state.store call store next)
    (served : call.unserved answer = false) (filed : latchWithoutCopy state call = false)
    (safe : ArchiveSafe id state) :
    ArchiveSafe id { store, calls := state.calls.set index next } := by
  have kept := effect_moderation_safe id answer state index call next store found effect
    safe.toModerationSafe
  have inside := List.mem_of_getElem? found
  -- the other calls stand where they stood
  have others (archive : state.store.archive ≠ [] → store.archive ≠ [])
      (mine : next.pastArchive = true → store.archive ≠ []) :
      ∀ other ∈ state.calls.set index next, other.pastArchive = true → store.archive ≠ [] := by
    intro other member past
    rcases List.mem_or_eq_of_mem_set member with before | rfl
    · exact archive (safe.past other before past)
    · exact mine past
  refine ⟨kept, ?_, ?_⟩
  · cases effect with
    | quiet fansOut holds passes =>
      refine others (fun some => some) fun past => ?_
      rcases passes past with before | unserved | ⟨shaped, rfl, taken⟩
      · exact safe.past call inside before
      · rw [served] at unserved
        cases unserved
      · intro empty
        rw [latchWithoutCopy, empty, List.isEmpty_nil, Bool.and_true] at filed
        exact taken (by simpa using filed)
    | claim approver free => exact others (fun some => some) nofun
    | latch shaped untaken => exact others (fun some => some) nofun
    | file shaped => exact others (fun _ => by simp) fun _ => by simp
    | submit shaped copy member members lastPage fits =>
      exact others (fun some => some) fun _ => safe.past _ inside rfl
    | finalize approving => exact others (fun some => some) nofun
    | dispose disposal actor note pending => exact others (fun some => some) nofun
  · cases effect with
    | quiet fansOut holds passes => exact safe.approved
    | claim approver free => exact nofun
    | latch shaped untaken => exact safe.approved
    | file shaped => exact fun _ => by simp
    | submit shaped copy member members lastPage fits => exact safe.approved
    | finalize approving => exact fun _ => safe.past _ inside rfl
    | dispose disposal actor note pending =>
      cases disposal with
      | rejected => exact nofun
      | discarded => exact nofun

theorem call_added_archive (call : Call)
    (fresh : call.inFanOut = false) (free : call.holdsLatch = false)
    (early : call.pastArchive = false) (safe : ArchiveSafe id state) :
    ArchiveSafe id { state with calls := state.calls ++ [call] } := by
  refine ⟨call_added_safe id state call fresh free safe.toModerationSafe, ?_, safe.approved⟩
  intro other member past
  rcases List.mem_append.mp member with before | last
  · exact safe.past other before past
  · rw [List.mem_singleton.mp last, early] at past
    cases past

theorem step_archive_safe (next : Moderation)
    (safe : ArchiveSafe id state) (served : archiveServed state move = true)
    (ran : (moderationMachine id).step state move = some next) : ArchiveSafe id next := by
  obtain ⟨call, fresh, free, early, rfl⟩ | ⟨index, answer, call, rfl, found, rfl⟩ | ⟨index, call,
    found, rfl⟩ :=
    move_cases id state move next ran
  · exact call_added_archive id state call fresh free early safe
  · simp only [archiveServed, found, Option.all_some, Bool.and_eq_true, Bool.not_eq_true'] at served
    exact effect_archive_safe id answer state index call _ _ found
      (advance_effect id answer state.store call) served.1 served.2 safe
  · refine ⟨crash_moderation_safe id state index call found safe.toModerationSafe, ?_, safe.approved⟩
    intro other member past
    rcases List.mem_or_eq_of_mem_set member with before | rfl
    · exact safe.past other before past
    · cases past

structure DecidedOnce (store : HeldStore) : Prop where
  refused : store.row.status = .rejected ∨ store.row.status = .discarded →
    store.queue = [] ∧ store.archive = []
  oneCopy : ∀ member, (store.queue.filter fun copy => copy.member = member).length ≤ 1
  released : store.released = if store.row.status.isTerminal then 1 else 0
  oneFiled : store.archive.length ≤ 1

theorem one_copy_each (queue : List QueuedCopy)
    (keyed : ∀ copy ∈ queue, copy.idempotencyKey = memberIdempotencyKey id copy.member)
    (unique : (queue.map QueuedCopy.idempotencyKey).Nodup) (member : Nat) :
    (queue.filter fun copy => copy.member = member).length ≤ 1 := by
  have same : ∀ copy ∈ queue.filter (fun copy => copy.member = member),
      copy.idempotencyKey = memberIdempotencyKey id member := by
    intro copy inside
    obtain ⟨queued, mine⟩ := List.mem_filter.mp inside
    rw [keyed copy queued, of_decide_eq_true mine]
  have distinct := (List.filter_sublist (p := fun copy => decide (copy.member = member))
    (l := queue)).map QueuedCopy.idempotencyKey |>.nodup unique
  cases copies : queue.filter fun copy => copy.member = member with
  | nil => exact Nat.zero_le _
  | cons first rest =>
    cases rest with
    | nil => exact Nat.le_refl _
    | cons second rest =>
      rw [copies] at same distinct
      have equal := (same first (by simp)).trans (same second (by simp)).symm
      simp [equal] at distinct

theorem safe_decided_once (safe : ModerationSafe id state) : DecidedOnce state.store where
  refused := by
    intro refused
    have undelivered := safe.undelivered (by
      rcases refused with rejected | discarded
      · rw [rejected]
        rfl
      · rw [discarded]
        rfl)
    exact ⟨undelivered.queue, undelivered.archive⟩
  oneCopy := one_copy_each id state.store.queue safe.keyed safe.unique
  released := safe.released
  oneFiled := by
    have filed := safe.filed
    split at filed
    · omega
    · omega

end

/-- In every interleaving the post is decided once, and an approved one is in the
archive as long as no call goes by a latch whose copy is still to be filed. -/
theorem held_post_decided_once (id : Nat) (moves : List Move) (final : Moderation)
    (ran : (moderationMachine id).execute {} moves = some final) :
    DecidedOnce final.store ∧
      ((moderationMachine id).Meets (fun state move => archiveServed state move = true) {} moves →
        final.store.row.status = .approved → final.store.archive.length = 1) := by
  have safe := (moderationMachine id).execute_keeps (ModerationSafe id) (step_moderation_safe id)
    moves {} final (start_moderation_safe id) ran
  have once := safe_decided_once id final safe
  refine ⟨once, ?_⟩
  intro served approved
  have archived := (moderationMachine id).meets_keeps _ (ArchiveSafe id)
    (fun state move next holds allowed stepped =>
      step_archive_safe id state move next holds allowed stepped)
    moves {} final ⟨start_moderation_safe id, by simp, nofun⟩ served ran
  have some := List.length_pos_iff.mpr (archived.approved approved)
  have most := once.oneFiled
  omega

def approvalToArchive (call : Nat) (now : Int) : List Move :=
  [.advance call { now }, .advance call { now }, .advance call { now, archiveMailboxID := some 3 },
    .advance call { now, shaped := [1] }, .advance call { now }]

def raceOfApprovals : List Move :=
  [.approve 8, .approve 9] ++ approvalToArchive 0 10 ++
    [.advance 1 { now := 11 }, .advance 0 { now := 12 }, .advance 0 { now := 12 },
      .advance 0 { now := 12, page := [⟨5, [97]⟩, ⟨6, [98]⟩] }, .advance 0 { now := 13 },
      .advance 0 { now := 13 }, .advance 0 { now := 13 }, .advance 0 { now := 14 }]

theorem held_post_decided_once_in_race :
    ∃ final, (moderationMachine 4).execute {} raceOfApprovals = some final ∧
      final.store.row.status = .approved ∧ final.store.queue.length = 2 ∧
      final.store.archive.length = 1 := by
  have ended : ((moderationMachine 4).execute {} raceOfApprovals).any (fun final =>
      final.store.row.status = .approved ∧ final.store.queue.length = 2) = true := by
    decide +kernel
  have served : (moderationMachine 4).Meets (fun state move => archiveServed state move = true) {}
      raceOfApprovals := by decide +kernel
  obtain ⟨final, ran, approved⟩ := (Option.any_eq_true _ _).mp ended
  obtain ⟨approved, copies⟩ := of_decide_eq_true approved
  exact ⟨final, ran, approved, copies,
    (held_post_decided_once 4 raceOfApprovals final ran).2 served approved⟩

def crashBehindLatch : List Move :=
  [.approve 8] ++ approvalToArchive 0 10 ++ [.crash 0, .approve 9] ++ approvalToArchive 1 400000000 ++
    [.advance 1 { now := 400000000 }, .advance 1 { now := 400000000 }, .advance 1 { now := 400000000 }]

def Move.succeeds : Move → Bool
  | .advance _ answer => !answer.fails
  | _ => true

/-- No operation fails, the post is approved and nothing is in the archive. -/
theorem crash_loses_archive_copy :
    ∃ final, (moderationMachine 4).execute {} crashBehindLatch = some final ∧
      (∀ move ∈ crashBehindLatch, move.succeeds = true) ∧
      final.store.row.status = .approved ∧ final.store.archive = [] := by
  have ended : ((moderationMachine 4).execute {} crashBehindLatch).any (fun final =>
      final.store.row.status = .approved ∧ final.store.archive = []) = true := by
    decide +kernel
  obtain ⟨final, ran, lost⟩ := (Option.any_eq_true _ _).mp ended
  exact ⟨final, ran, by decide, of_decide_eq_true lost⟩

end Herold.Maillist

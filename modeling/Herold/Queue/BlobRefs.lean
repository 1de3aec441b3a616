import Herold.Machine.Run
import Herold.Store.Queue

/-!
# Blob references held by the queue

The queue shares `blob_refs` with every other owner of a blob. The ledger
below runs the store under the seven queue calls and the references other
owners take and drop, and keeps the number those owners hold beside it, so
that what is left of a counter is the queue's own contribution.
-/

namespace Herold.Queue.BlobRefs

open Herold.Go Herold.Store Herold.Machine

inductive Operation where
  | enqueueMessage (now : Micros) (item : QueueItem)
  | claimDueQueueItems (now : Micros) (max : Int)
  | completeQueueItem (now : Micros) (id : Nat) (success : Bool) (errMsg : Bytes)
  | rescheduleQueueItem (id : Nat) (nextAttempt : Micros) (errMsg : Bytes)
  | holdQueueItem (id : Nat)
  | releaseQueueItem (now : Micros) (id : Nat)
  | deleteQueueItem (now : Micros) (id : Nat)
  | otherIncRef (hash : Bytes) (size : Nat) (now : Micros)
  | otherDecRef (hash : Bytes) (now : Micros)

structure Ledger where
  store : Store
  others : Bytes → Nat

/-- A queue that starts empty beside references other owners already hold. -/
def Ledger.start (refs : BlobRefs) : Ledger where
  store := { queue := QueueTable.empty, blobRefs := refs }
  others := refs.refCount

def Ledger.commit (ledger : Ledger) : Except StoreError Store → Ledger
  | .ok next => { ledger with store := next }
  | .error _ => ledger

/-- One call. Every caller enqueues its rows in the queued state, and an owner
only drops a reference it holds. -/
def Ledger.step (ledger : Ledger) : Operation → Option Ledger
  | .enqueueMessage now item =>
    some (ledger.commit
      ((ledger.store.enqueueMessage now { item with state := .queued }).map Prod.snd))
  | .claimDueQueueItems now max =>
    some (ledger.commit (.ok (ledger.store.claimDueQueueItems now max).2))
  | .completeQueueItem now id success errMsg =>
    some (ledger.commit (ledger.store.completeQueueItem now id success errMsg))
  | .rescheduleQueueItem id nextAttempt errMsg =>
    some (ledger.commit (ledger.store.rescheduleQueueItem id nextAttempt errMsg))
  | .holdQueueItem id => some (ledger.commit (ledger.store.holdQueueItem id))
  | .releaseQueueItem now id => some (ledger.commit (ledger.store.releaseQueueItem now id))
  | .deleteQueueItem now id => some (ledger.commit (ledger.store.deleteQueueItem now id))
  | .otherIncRef hash size now =>
    some
      { store := { ledger.store with blobRefs := incRef hash size now ledger.store.blobRefs }
        others := fun other => ledger.others other + if other = hash then 1 else 0 }
  | .otherDecRef hash now =>
    if 0 < ledger.others hash then
      some
        { store := { ledger.store with blobRefs := decRef hash now ledger.store.blobRefs }
          others := fun other => ledger.others other - if other = hash then 1 else 0 }
    else none

def machine : Machine Ledger Operation where
  step := Ledger.step

def isLive (hash : Bytes) (row : QueueItem) : Bool :=
  !row.state.isTerminal && row.bodyBlobHash = hash

def live (table : QueueTable) (hash : Bytes) : Nat := table.rows.countP (isLive hash)

/-- What is left of a counter after the other owners' references is the number
of live rows with that body. -/
def RefCountsMatch (ledger : Ledger) : Prop :=
  ∀ hash, hash ≠ [] →
    ledger.store.blobRefs.refCount hash = ledger.others hash + live ledger.store.queue hash

def Operation.target : Operation → Option Nat
  | completeQueueItem _ id _ _ | rescheduleQueueItem id _ _ | holdQueueItem id
  | releaseQueueItem _ id | deleteQueueItem _ id => some id
  | _ => none

def isTerminalRow (store : Store) (id : Nat) : Bool :=
  (store.queue.find? id).any fun row => row.state.isTerminal

def SparesTerminalRows (ledger : Ledger) (operation : Operation) : Prop :=
  ∀ id ∈ operation.target, isTerminalRow ledger.store id = false

instance (ledger : Ledger) (operation : Operation) :
    Decidable (SparesTerminalRows ledger operation) :=
  inferInstanceAs (Decidable (∀ id ∈ operation.target, isTerminalRow ledger.store id = false))

theorem update_elsewhere (change : RowUpdate) (id : Nat) (rows : List QueueItem)
    (different : ∀ row ∈ rows, row.id ≠ id) :
    rows.map (QueueTable.updateRow change fun row => row.id = id) = rows := by
  induction rows with
  | nil => rfl
  | cons first rows ih =>
    have here : first.id ≠ id := different first (by simp)
    rw [List.map_cons, ih (by intro row member; exact different row (by simp [member]))]
    simp [QueueTable.updateRow, here]

section

variable (ledger : Ledger) (table : QueueTable) (now : Micros) (id : Nat)

theorem update_live (change : RowUpdate) (id : Nat) (row : QueueItem)
    (found : table.find? id = some row) (hash : Bytes) :
    live (table.update change fun row => row.id = id) hash + (isLive hash row).toNat =
      live table hash + (isLive hash (change.apply row)).toNat := by
  obtain ⟨before, after, split, beforeOther, afterOther⟩ := table.find_splits id row found
  have same := table.find_some_id id row found
  have changed : QueueTable.updateRow change (fun row => row.id = id) row = change.apply row := by
    simp [QueueTable.updateRow, same]
  simp only [live, QueueTable.update, split, List.map_append, List.map_cons, changed,
    update_elsewhere change id before beforeOther, update_elsewhere change id after afterOther,
    List.countP_append, List.countP_cons]
  cases isLive hash row <;> cases isLive hash (change.apply row) <;> simp <;> omega

theorem delete_live (row : QueueItem) (found : table.find? id = some row) (hash : Bytes) :
    live (table.delete id) hash + (isLive hash row).toNat = live table hash := by
  obtain ⟨before, after, split, beforeOther, afterOther⟩ := table.find_splits id row found
  have same := table.find_some_id id row found
  have beforeKept : before.filter (fun row => row.id ≠ id) = before := by
    simpa using beforeOther
  have afterKept : after.filter (fun row => row.id ≠ id) = after := by
    simpa using afterOther
  simp only [live, QueueTable.delete, split, List.filter_append, List.filter_cons, beforeKept,
    afterKept, same, List.countP_append, List.countP_cons]
  cases isLive hash row
  · simp
  · simp
    omega

theorem insert_live (item : QueueItem)
    (free : item.idempotencyKey ≠ [] → table.findKey? item.idempotencyKey = none) (hash : Bytes) :
    live (table.insert item free) hash = live table hash + (isLive hash item).toNat := by
  simp only [live, QueueTable.insert, List.countP_append, List.countP_singleton]
  have sameRow : isLive hash { item with id := table.nextID } = isLive hash item := rfl
  rw [sameRow]
  cases isLive hash item <;> simp

theorem claim_live (max : Int) (store : Store) (hash : Bytes) :
    live (store.claimDueQueueItems now max).2.queue hash = live store.queue hash := by
  simp only [live, Store.claimDueQueueItems, QueueTable.update, List.countP_map]
  refine List.countP_congr ?_
  intro row member
  rw [Function.comp_apply, QueueTable.updateRow]
  split
  case isFalse => exact Iff.rfl
  case isTrue claimed =>
    have due := Store.claimed_row_due now max store row member (by simpa using claimed)
    have claimable : row.state.isClaimable = true := by
      simp only [Store.isDue, Bool.and_eq_true] at due
      exact due.1
    have notTerminal : row.state.isTerminal = false := by
      cases state : row.state <;> simp [state, QueueState.isClaimable] at claimable
      · rfl
      · rfl
    have same : isLive hash ((Store.claimUpdate now).apply row) = isLive hash row := by
      simp only [isLive, notTerminal]
      rfl
    rw [same]

theorem take_body_count (hash other : Bytes) (now : Micros) (refs : BlobRefs)
    (named : other ≠ []) :
    (Store.takeBody hash now refs).refCount other =
      refs.refCount other + if other = hash then 1 else 0 := by
  unfold Store.takeBody
  split
  case isTrue unnamed =>
    have different : other ≠ hash := by rwa [unnamed]
    simp [different]
  case isFalse => exact inc_ref_count hash other 0 now refs

theorem drop_body_count (hash other : Bytes) (now : Micros) (refs : BlobRefs)
    (named : other ≠ []) :
    (Store.dropBody hash now refs).refCount other =
      refs.refCount other - if other = hash then 1 else 0 := by
  unfold Store.dropBody
  split
  case isTrue unnamed =>
    have different : other ≠ hash := by rwa [unnamed]
    simp [different]
  case isFalse => exact dec_ref_count hash other now refs

theorem live_row_bit (hash : Bytes) (row : QueueItem) (holds : row.state.isTerminal = false) :
    (isLive hash row).toNat = if hash = row.bodyBlobHash then 1 else 0 := by
  by_cases same : row.bodyBlobHash = hash
  · simp [isLive, holds, same]
  · have other : ¬hash = row.bodyBlobHash := fun equal => same equal.symm
    simp [isLive, same, other]

theorem terminal_row_bit (hash : Bytes) (row : QueueItem) (ended : row.state.isTerminal = true) :
    (isLive hash row).toNat = 0 := by
  simp [isLive, ended]

theorem spared_row (store : Store) (id : Nat) (row : QueueItem)
    (spared : isTerminalRow store id = false) (found : store.queue.find? id = some row) :
    row.state.isTerminal = false := by
  simpa [isTerminalRow, found] using spared

/-- Hold, release and reschedule leave the row in a state that holds its
reference and touch no counter. -/
theorem update_keeps_match (change : RowUpdate)
    (revives : ∀ row, (change.apply row).state.isTerminal = false)
    (spared : isTerminalRow ledger.store id = false) (holds : RefCountsMatch ledger) :
    RefCountsMatch (ledger.commit (ledger.store.updateQueueItem id change)) := by
  cases updated : ledger.store.updateQueueItem id change with
  | error _ => exact holds
  | ok next =>
    obtain ⟨row, found, rfl⟩ := Store.update_ok id change ledger.store next updated
    intro hash named
    have counted := update_live ledger.store.queue change id row found hash
    rw [live_row_bit hash row (spared_row ledger.store id row spared found),
      live_row_bit hash _ (revives row), change.keepsBody] at counted
    have before := holds hash named
    simp only [Ledger.commit] at before ⊢
    omega

theorem complete_keeps_match (success : Bool)
    (errMsg : Bytes) (spared : isTerminalRow ledger.store id = false)
    (holds : RefCountsMatch ledger) :
    RefCountsMatch (ledger.commit (ledger.store.completeQueueItem now id success errMsg)) := by
  cases completed : ledger.store.completeQueueItem now id success errMsg with
  | error _ => exact holds
  | ok next =>
    obtain ⟨row, found, rfl⟩ :=
      Store.complete_ok now id success errMsg ledger.store next completed
    intro hash named
    have counted :=
      update_live ledger.store.queue (Store.completeUpdate now success errMsg) id row found hash
    have ended : ((Store.completeUpdate now success errMsg).apply row).state.isTerminal = true := by
      cases success <;> rfl
    rw [live_row_bit hash row (spared_row ledger.store id row spared found),
      terminal_row_bit hash _ ended] at counted
    have before := holds hash named
    simp only [Ledger.commit, drop_body_count _ _ _ _ named] at before ⊢
    omega

theorem delete_keeps_match (spared : isTerminalRow ledger.store id = false)
    (holds : RefCountsMatch ledger) :
    RefCountsMatch (ledger.commit (ledger.store.deleteQueueItem now id)) := by
  cases deleted : ledger.store.deleteQueueItem now id with
  | error _ => exact holds
  | ok next =>
    obtain ⟨row, found, rfl⟩ := Store.delete_ok now id ledger.store next deleted
    intro hash named
    have counted := delete_live ledger.store.queue id row found hash
    rw [live_row_bit hash row (spared_row ledger.store id row spared found)] at counted
    have before := holds hash named
    simp only [Ledger.commit, drop_body_count _ _ _ _ named] at before ⊢
    omega

theorem enqueue_keeps_match (item : QueueItem) (holds : RefCountsMatch ledger) :
    RefCountsMatch (ledger.commit
      ((ledger.store.enqueueMessage now { item with state := .queued }).map Prod.snd)) := by
  cases stored : ledger.store.enqueueMessage now { item with state := .queued } with
  | error _ => exact holds
  | ok result =>
    obtain ⟨id, next⟩ := result
    obtain ⟨_, free, rfl⟩ := Store.enqueue_ok now _ ledger.store next id stored
    intro hash named
    have before := holds hash named
    have rowLive : (isLive hash (Store.enqueuedRow now { item with state := .queued })).toNat =
        if hash = item.bodyBlobHash then 1 else 0 := live_row_bit hash _ rfl
    simp only [Except.map, Ledger.commit, insert_live, rowLive, take_body_count _ _ _ _ named]
      at before ⊢
    omega

theorem step_keeps_match (operation : Operation) (next : Ledger)
    (holds : RefCountsMatch ledger) (spares : SparesTerminalRows ledger operation)
    (stepped : machine.step ledger operation = some next) : RefCountsMatch next := by
  have stepped : ledger.step operation = some next := stepped
  cases operation with
  | enqueueMessage now item =>
    simp only [Ledger.step, Option.some.injEq] at stepped
    exact stepped ▸ enqueue_keeps_match ledger now item holds
  | claimDueQueueItems now max =>
    simp only [Ledger.step, Option.some.injEq] at stepped
    subst stepped
    intro hash named
    have before := holds hash named
    simp only [Ledger.commit, claim_live] at before ⊢
    exact before
  | completeQueueItem now id success errMsg =>
    simp only [Ledger.step, Option.some.injEq] at stepped
    exact stepped ▸ complete_keeps_match ledger now id success errMsg (spares id rfl) holds
  | rescheduleQueueItem id nextAttempt errMsg =>
    simp only [Ledger.step, Option.some.injEq] at stepped
    exact stepped ▸ update_keeps_match ledger id _ (fun _ => rfl) (spares id rfl) holds
  | holdQueueItem id =>
    simp only [Ledger.step, Option.some.injEq] at stepped
    exact stepped ▸ update_keeps_match ledger id _ (fun _ => rfl) (spares id rfl) holds
  | releaseQueueItem now id =>
    simp only [Ledger.step, Option.some.injEq] at stepped
    exact stepped ▸ update_keeps_match ledger id _ (fun _ => rfl) (spares id rfl) holds
  | deleteQueueItem now id =>
    simp only [Ledger.step, Option.some.injEq] at stepped
    exact stepped ▸ delete_keeps_match ledger now id (spares id rfl) holds
  | otherIncRef hash size now =>
    simp only [Ledger.step, Option.some.injEq] at stepped
    subst stepped
    intro other named
    have before := holds other named
    simp only [inc_ref_count]
    omega
  | otherDecRef hash now =>
    simp only [Ledger.step] at stepped
    split at stepped
    case isFalse => cases stepped
    case isTrue held =>
      simp only [Option.some.injEq] at stepped
      subst stepped
      intro other named
      have before := holds other named
      simp only [dec_ref_count]
      by_cases same : other = hash
      · subst same
        simp only [if_true]
        omega
      · simp only [same, if_false]
        omega

end

/-- In every run in which no call names a done or failed row, each counter
holds exactly one reference for every live row with that body, beside the
references of the other owners. -/
theorem ref_counts_match_live_rows (refs : BlobRefs) (operations : List Operation)
    (final : Ledger)
    (ran : (machine.guarded SparesTerminalRows).execute (Ledger.start refs) operations =
      some final) : RefCountsMatch final := by
  refine machine.guarded_keeps SparesTerminalRows RefCountsMatch step_keeps_match operations
    (Ledger.start refs) final ?_ ran
  intro hash _
  simp [Ledger.start, live, QueueTable.empty]

def sharedBody : QueueItem where
  mailFrom := ascii "sender@example.org"
  rcptTo := ascii "rcpt@example.net"
  bodyBlobHash := ascii "b3"

def deleteDelivered : List Operation :=
  [.enqueueMessage 10 sharedBody, .enqueueMessage 10 sharedBody, .claimDueQueueItems 20 1,
    .completeQueueItem 30 1 true [], .deleteQueueItem 40 1]

/-- The deletion drops the reference of the row that is still queued. -/
theorem delete_of_done_row_takes_other_reference :
    ∃ final, machine.execute (Ledger.start fun _ => none) deleteDelivered = some final ∧
      live final.store.queue (ascii "b3") = 1 ∧
        final.store.blobRefs.refCount (ascii "b3") = 0 ∧ ¬RefCountsMatch final := by
  refine ⟨_, rfl, by decide, by decide, ?_⟩
  intro matched
  exact absurd (matched (ascii "b3") (by decide)) (by decide)

theorem ref_counts_match_live_rows_of_delivered :
    ∃ final, (machine.guarded SparesTerminalRows).execute (Ledger.start fun _ => none)
      (deleteDelivered.take 4) = some final ∧ RefCountsMatch final := by
  refine ⟨_, rfl, ?_⟩
  exact ref_counts_match_live_rows (fun _ => none) (deleteDelivered.take 4) _ rfl

end Herold.Queue.BlobRefs

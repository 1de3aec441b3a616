import Herold.Go.Strings
import Mathlib.Data.List.Sort

/-!
# The outbound queue table and its blob references

The metadata store keeps one row per recipient in `queue` and one counter per
blob in `blob_refs`. Each operation below is one transaction: it either returns
the new store or an error, and an error leaves the store as it was. Times are
microseconds, with zero standing for Go's zero time as in `usMicros`. The
empty idempotency key stands for the column's `NULL`.
-/

namespace Herold.Store

open Herold.Go

abbrev Micros := Int

inductive QueueState where
  | unknown
  | queued
  | deferred
  | inflight
  | done
  | failed
  | held
  deriving DecidableEq

/-- Done and failed are the states the store documents as terminal. -/
def QueueState.isTerminal : QueueState → Bool
  | done | failed => true
  | _ => false

/-- The states `ClaimDueQueueItems` selects. -/
def QueueState.isClaimable : QueueState → Bool
  | queued | deferred => true
  | _ => false

structure QueueItem where
  id : Nat := 0
  principalID : Nat := 0
  mailFrom : Bytes
  rcptTo : Bytes
  envelopeID : Bytes := []
  bodyBlobHash : Bytes := []
  headersBlobHash : Bytes := []
  state : QueueState := .unknown
  attempts : Nat := 0
  lastAttemptAt : Micros := 0
  nextAttemptAt : Micros := 0
  lastError : Bytes := []
  dsnNotify : Nat := 0
  dsnRet : Nat := 0
  dsnEnvID : Bytes := []
  dsnOrcpt : Bytes := []
  idempotencyKey : Bytes := []
  createdAt : Micros := 0
  headerOverlay : Bytes := []
  messageID : Bytes := []
  deriving DecidableEq

/-- The unique index on the idempotency key ignores rows without one. -/
def KeysDiffer (left right : QueueItem) : Prop :=
  left.idempotencyKey ≠ [] → left.idempotencyKey ≠ right.idempotencyKey

/-- The `queue` table. Identifiers come from an `AUTOINCREMENT` column, so a
deleted identifier is never given out again. -/
structure QueueTable where
  rows : List QueueItem
  nextID : Nat
  ordered : rows.Pairwise fun left right => left.id < right.id
  issued : ∀ row ∈ rows, row.id < nextID
  keysUnique : rows.Pairwise KeysDiffer

/-- The assignments of an `UPDATE queue` statement. None of them touches the
primary key, the idempotency key, the body hash or the addresses. -/
structure RowUpdate where
  apply : QueueItem → QueueItem
  keepsID : ∀ row, (apply row).id = row.id := by intro _; rfl
  keepsKey : ∀ row, (apply row).idempotencyKey = row.idempotencyKey := by intro _; rfl
  keepsBody : ∀ row, (apply row).bodyBlobHash = row.bodyBlobHash := by intro _; rfl
  keepsEnvelope : ∀ row, (apply row).mailFrom = row.mailFrom ∧ (apply row).rcptTo = row.rcptTo := by
    intro _; exact ⟨rfl, rfl⟩

namespace QueueTable

def empty : QueueTable where
  rows := []
  nextID := 1
  ordered := List.Pairwise.nil
  issued := by simp
  keysUnique := List.Pairwise.nil

/-- `SELECT … WHERE id = ?`. -/
def find? (table : QueueTable) (id : Nat) : Option QueueItem :=
  table.rows.find? fun row => row.id = id

/-- `SELECT id FROM queue WHERE idempotency_key = ?`. -/
def findKey? (table : QueueTable) (key : Bytes) : Option QueueItem :=
  table.rows.find? fun row => row.idempotencyKey = key

def updateRow (change : RowUpdate) (chosen : QueueItem → Bool) (row : QueueItem) : QueueItem :=
  if chosen row then change.apply row else row

section

variable (table : QueueTable) (change : RowUpdate) (item : QueueItem) (chosen : QueueItem → Bool)
  (id : Nat) (row : QueueItem)
  (free : item.idempotencyKey ≠ [] → table.findKey? item.idempotencyKey = none)

theorem update_row_id : (updateRow change chosen row).id = row.id := by
  unfold updateRow
  split
  · exact change.keepsID row
  · rfl

theorem update_row_key : (updateRow change chosen row).idempotencyKey = row.idempotencyKey := by
  unfold updateRow
  split
  · exact change.keepsKey row
  · rfl

/-- `UPDATE queue SET change WHERE chosen`. -/
def update (table : QueueTable) (change : RowUpdate) (chosen : QueueItem → Bool) : QueueTable where
  rows := table.rows.map (updateRow change chosen)
  nextID := table.nextID
  ordered := by
    rw [List.pairwise_map]
    refine table.ordered.imp ?_
    intro left right earlier
    rwa [update_row_id, update_row_id]
  issued := by
    intro row member
    obtain ⟨old, oldMember, rfl⟩ := List.mem_map.mp member
    rw [update_row_id]
    exact table.issued old oldMember
  keysUnique := by
    rw [List.pairwise_map]
    refine table.keysUnique.imp ?_
    intro left right differ
    unfold KeysDiffer
    rwa [update_row_key, update_row_key]

/-- `INSERT INTO queue`, after the key was looked up and not found. -/
def insert (table : QueueTable) (item : QueueItem)
    (free : item.idempotencyKey ≠ [] → table.findKey? item.idempotencyKey = none) : QueueTable where
  rows := table.rows ++ [{ item with id := table.nextID }]
  nextID := table.nextID + 1
  ordered := by
    rw [List.pairwise_append]
    refine ⟨table.ordered, List.pairwise_singleton _ _, ?_⟩
    intro row member new newMember
    rw [List.mem_singleton] at newMember
    subst newMember
    exact table.issued row member
  issued := by
    intro row member
    rw [List.mem_append, List.mem_singleton] at member
    rcases member with old | rfl
    · exact Nat.lt_succ_of_lt (table.issued row old)
    · exact Nat.lt_succ_self _
  keysUnique := by
    rw [List.pairwise_append]
    refine ⟨table.keysUnique, List.pairwise_singleton _ _, ?_⟩
    intro row member new newMember present same
    rw [List.mem_singleton] at newMember
    subst newMember
    have absent := free (by rwa [← same])
    rw [findKey?, List.find?_eq_none] at absent
    exact absent row member (by simpa using same)

/-- `DELETE FROM queue WHERE id = ?`. -/
def delete (table : QueueTable) (id : Nat) : QueueTable where
  rows := table.rows.filter fun row => row.id ≠ id
  nextID := table.nextID
  ordered := table.ordered.filter _
  issued := by
    intro row member
    exact table.issued row (List.mem_filter.mp member).1
  keysUnique := table.keysUnique.filter _

theorem find_some_id (found : table.find? id = some row) : row.id = id := by
  simpa using List.find?_some found

theorem find_some_member (found : table.find? id = some row) : row ∈ table.rows :=
  List.mem_of_find?_eq_some found

theorem find_some_issued (found : table.find? id = some row) : id < table.nextID := by
  rw [← find_some_id table id row found]
  exact table.issued row (find_some_member table id row found)

theorem member_unique (left right : QueueItem)
    (leftMember : left ∈ table.rows) (rightMember : right ∈ table.rows)
    (same : left.id = right.id) : left = right := by
  have distinct : (table.rows.map QueueItem.id).Nodup := by
    rw [List.Nodup, List.pairwise_map]
    exact table.ordered.imp fun earlier => Nat.ne_of_lt earlier
  exact List.inj_on_of_nodup_map distinct leftMember rightMember same

theorem find_of_member (member : row ∈ table.rows) : table.find? row.id = some row := by
  cases found : table.find? row.id with
  | none =>
    rw [find?, List.find?_eq_none] at found
    exact absurd (found row member) (by simp)
  | some other =>
    have same := find_some_id table row.id other found
    rw [member_unique table other row (find_some_member table _ other found) member same]

theorem find_splits (found : table.find? id = some row) :
    ∃ before after, table.rows = before ++ row :: after ∧
      (∀ other ∈ before, other.id ≠ id) ∧ ∀ other ∈ after, other.id ≠ id := by
  have same := find_some_id table id row found
  obtain ⟨before, after, split⟩ :=
    List.append_of_mem (find_some_member table id row found)
  have ordered := table.ordered
  rw [split, List.pairwise_append, List.pairwise_cons] at ordered
  refine ⟨before, after, split, ?_, ?_⟩
  · intro other member
    have earlier := ordered.2.2 other member row (by simp)
    omega
  · intro other member
    have later := ordered.2.1.1 other member
    omega

theorem find_update :
    (table.update change chosen).find? id = (table.find? id).map (updateRow change chosen) := by
  simp only [find?, update, List.find?_map, Function.comp_def, update_row_id]

theorem find_update_id (target id : Nat) :
    (table.update change fun row => row.id = target).find? id =
      if id = target then (table.find? id).map change.apply else table.find? id := by
  rw [find_update]
  cases found : table.find? id with
  | none => simp
  | some row =>
    have same := find_some_id table id row found
    by_cases hit : id = target
    · simp [updateRow, same, hit]
    · simp [updateRow, same, hit]

theorem find_insert (id : Nat) : (table.insert item free).find? id =
      if id = table.nextID then some { item with id := table.nextID } else table.find? id := by
  by_cases new : id = table.nextID
  · have absent : table.find? table.nextID = none := by
      cases found : table.find? table.nextID with
      | none => rfl
      | some row => exact absurd (find_some_issued table _ row found) (Nat.lt_irrefl _)
    subst new
    rw [find?] at absent
    simp [find?, insert, absent]
  · have other : ¬table.nextID = id := fun same => new same.symm
    simp [find?, insert, new, other]

theorem find_key_insert (key : Bytes) (other : item.idempotencyKey ≠ key) :
    (table.insert item free).findKey? key = table.findKey? key := by
  simp [findKey?, insert, other]

theorem find_key_insert_same (keyed : item.idempotencyKey ≠ []) :
    (table.insert item free).findKey? item.idempotencyKey =
      some { item with id := table.nextID } := by
  have absent := free keyed
  rw [findKey?] at absent
  simp [findKey?, insert, absent]

theorem find_delete (target id : Nat) :
    (table.delete target).find? id = if id = target then none else table.find? id := by
  simp only [find?, delete, List.find?_filter]
  by_cases hit : id = target
  · rw [if_pos hit, List.find?_eq_none]
    intro row _
    simp [hit]
  · rw [if_neg hit]
    congr 1
    funext row
    by_cases same : row.id = id
    · simp [same, hit]
    · simp [same]

end

end QueueTable

structure BlobRef where
  size : Nat
  refCount : Nat
  lastChange : Micros
  deriving DecidableEq

abbrev BlobRefs := Bytes → Option BlobRef

/-- The `ref_count` column, zero where the hash has no row. -/
def BlobRefs.refCount (refs : BlobRefs) (hash : Bytes) : Nat :=
  ((refs hash).map BlobRef.refCount).getD 0

/-- `incRef`: add one to the row of the hash, or insert it with a count of one. -/
def incRef (hash : Bytes) (size : Nat) (now : Micros) (refs : BlobRefs) : BlobRefs :=
  Function.update refs hash <| some <|
    match refs hash with
    | some ref => { ref with refCount := ref.refCount + 1, lastChange := now }
    | none => { size := size, refCount := 1, lastChange := now }

/-- `decRef`: the update carries `ref_count > 0`, so an unknown hash and a
count of zero are both left alone. -/
def decRef (hash : Bytes) (now : Micros) (refs : BlobRefs) : BlobRefs :=
  match refs hash with
  | some ref =>
    if 0 < ref.refCount then
      Function.update refs hash (some { ref with refCount := ref.refCount - 1, lastChange := now })
    else refs
  | none => refs

theorem inc_ref_count (hash other : Bytes) (size : Nat) (now : Micros) (refs : BlobRefs) :
    (incRef hash size now refs).refCount other =
      refs.refCount other + if other = hash then 1 else 0 := by
  by_cases same : other = hash
  · subst same
    cases present : refs other <;> simp [incRef, BlobRefs.refCount, present]
  · simp [incRef, BlobRefs.refCount, same]

theorem dec_ref_count (hash other : Bytes) (now : Micros) (refs : BlobRefs) :
    (decRef hash now refs).refCount other =
      refs.refCount other - if other = hash then 1 else 0 := by
  cases present : refs hash with
  | none =>
    by_cases same : other = hash
    · simp [decRef, BlobRefs.refCount, same, present]
    · simp [decRef, BlobRefs.refCount, same, present]
  | some ref =>
    by_cases positive : 0 < ref.refCount
    · by_cases same : other = hash
      · simp [decRef, BlobRefs.refCount, same, present, positive]
      · simp [decRef, BlobRefs.refCount, same, present, positive]
    · have zero : ref.refCount = 0 := Nat.eq_zero_of_not_pos positive
      by_cases same : other = hash
      · simp [decRef, BlobRefs.refCount, same, present, zero]
      · simp [decRef, BlobRefs.refCount, same, present, zero]

end Herold.Store

namespace Herold

open Herold.Go Herold.Store

structure Store where
  queue : QueueTable
  blobRefs : BlobRefs

namespace Store

def empty : Store where
  queue := QueueTable.empty
  blobRefs := fun _ => none

/-- The errors of the queue operations. A conflict carries the identifier of
the row that already holds the key; `failed` is any other database error. -/
inductive StoreError where
  | conflict (id : Nat)
  | notFound
  | failed
  deriving DecidableEq

def dropBody (hash : Bytes) (now : Micros) (refs : BlobRefs) : BlobRefs :=
  if hash = [] then refs else decRef hash now refs

def takeBody (hash : Bytes) (now : Micros) (refs : BlobRefs) : BlobRefs :=
  if hash = [] then refs else incRef hash 0 now refs

/-- The row `EnqueueMessage` inserts: zero times and the unknown state get
their defaults and both addresses are lower-cased. -/
def enqueuedRow (now : Micros) (item : QueueItem) : QueueItem :=
  { item with
    createdAt := if item.createdAt = 0 then now else item.createdAt
    nextAttemptAt := if item.nextAttemptAt = 0 then now else item.nextAttemptAt
    state := if item.state = .unknown then .queued else item.state
    mailFrom := toLower item.mailFrom
    rcptTo := toLower item.rcptTo }

def enqueueMessage (now : Micros) (item : QueueItem) (store : Store) :
    Except StoreError (Nat × Store) :=
  match prior : if item.idempotencyKey = [] then none
      else store.queue.findKey? item.idempotencyKey with
  | some row => .error (.conflict row.id)
  | none =>
    .ok (store.queue.nextID,
      { queue := store.queue.insert (enqueuedRow now item) (by
          intro present
          simpa [enqueuedRow, show item.idempotencyKey ≠ [] from present] using prior)
        blobRefs := takeBody item.bodyBlobHash now store.blobRefs })

def claimUpdate (now : Micros) : RowUpdate where
  apply row := { row with state := .inflight, lastAttemptAt := now }

/-- `ORDER BY next_attempt_at_us ASC, id ASC`. -/
def dueBefore (left right : QueueItem) : Prop :=
  left.nextAttemptAt < right.nextAttemptAt ∨
    left.nextAttemptAt = right.nextAttemptAt ∧ left.id ≤ right.id

instance : DecidableRel dueBefore := fun left right =>
  inferInstanceAs (Decidable (left.nextAttemptAt < right.nextAttemptAt ∨
    left.nextAttemptAt = right.nextAttemptAt ∧ left.id ≤ right.id))

def isDue (now : Micros) (row : QueueItem) : Bool :=
  row.state.isClaimable && decide (row.nextAttemptAt ≤ now)

def claimLimit (max : Int) : Nat := if max ≤ 0 then 100 else max.toNat

def dueRows (now : Micros) (max : Int) (store : Store) : List QueueItem :=
  ((store.queue.rows.filter (isDue now)).insertionSort dueBefore).take (claimLimit max)

/-- `ClaimDueQueueItems`: the selected rows go inflight in the same
transaction and are returned as they then stand. -/
def claimDueQueueItems (now : Micros) (max : Int) (store : Store) : List QueueItem × Store :=
  let due := store.dueRows now max
  (due.map (claimUpdate now).apply,
    { store with queue := store.queue.update (claimUpdate now) fun row =>
        row.id ∈ due.map QueueItem.id })

def getQueueItem (id : Nat) (store : Store) : Except StoreError QueueItem :=
  match store.queue.find? id with
  | some row => .ok row
  | none => .error .notFound

/-- An update by identifier fails with not-found when it affects no row. -/
def updateQueueItem (id : Nat) (change : RowUpdate) (store : Store) : Except StoreError Store :=
  match store.queue.find? id with
  | some _ => .ok { store with queue := store.queue.update change fun row => row.id = id }
  | none => .error .notFound

def completeUpdate (now : Micros) (success : Bool) (errMsg : Bytes) : RowUpdate where
  apply row :=
    { row with
      state := if success then .done else .failed
      lastError := errMsg
      lastAttemptAt := now
      attempts := row.attempts + 1 }

/-- `CompleteQueueItem` looks the body hash up, moves the row to its terminal
state and drops one reference, whatever the row's state was. -/
def completeQueueItem (now : Micros) (id : Nat) (success : Bool) (errMsg : Bytes) (store : Store) :
    Except StoreError Store :=
  match store.queue.find? id with
  | some row =>
    .ok { queue := store.queue.update (completeUpdate now success errMsg) fun row => row.id = id
          blobRefs := dropBody row.bodyBlobHash now store.blobRefs }
  | none => .error .notFound

def rescheduleUpdate (nextAttempt : Micros) (errMsg : Bytes) : RowUpdate where
  apply row :=
    { row with
      state := .deferred
      attempts := row.attempts + 1
      nextAttemptAt := nextAttempt
      lastError := errMsg }

def rescheduleQueueItem (id : Nat) (nextAttempt : Micros) (errMsg : Bytes) (store : Store) :
    Except StoreError Store :=
  store.updateQueueItem id (rescheduleUpdate nextAttempt errMsg)

def holdUpdate : RowUpdate where
  apply row := { row with state := .held }

def holdQueueItem (id : Nat) (store : Store) : Except StoreError Store :=
  store.updateQueueItem id holdUpdate

def releaseUpdate (now : Micros) : RowUpdate where
  apply row := { row with state := .queued, nextAttemptAt := now }

def releaseQueueItem (now : Micros) (id : Nat) (store : Store) : Except StoreError Store :=
  store.updateQueueItem id (releaseUpdate now)

def deleteQueueItem (now : Micros) (id : Nat) (store : Store) : Except StoreError Store :=
  match store.queue.find? id with
  | some row =>
    .ok { queue := store.queue.delete id
          blobRefs := dropBody row.bodyBlobHash now store.blobRefs }
  | none => .error .notFound

/-- The constraints of `QueueFilter` that the queue's own callers set. -/
structure QueueFilter where
  state : QueueState := .unknown
  envelopeID : Bytes := []
  afterID : Nat := 0
  limit : Int := 0
  deriving DecidableEq

def listLimit (limit : Int) : Nat := if limit ≤ 0 ∨ 1000 < limit then 1000 else limit.toNat

def QueueFilter.selects (filter : QueueFilter) (row : QueueItem) : Bool :=
  (filter.afterID = 0 || decide (filter.afterID < row.id)) &&
    (filter.state = .unknown || row.state = filter.state) &&
      (filter.envelopeID = [] || row.envelopeID = filter.envelopeID)

/-- `ListQueueItems` in its first-in-first-out order. -/
def listQueueItems (filter : QueueFilter) (store : Store) : List QueueItem :=
  (store.queue.rows.filter filter.selects).take (listLimit filter.limit)

section

variable (now : Micros) (max : Int) (item : QueueItem) (id : Nat) (store : Store)

theorem enqueue_ok (store next : Store) (id : Nat)
    (stored : store.enqueueMessage now item = .ok (id, next)) :
    id = store.queue.nextID ∧ ∃ free,
      next = { queue := store.queue.insert (enqueuedRow now item) free
               blobRefs := takeBody item.bodyBlobHash now store.blobRefs } := by
  unfold enqueueMessage at stored
  split at stored
  · cases stored
  · simp only [Except.ok.injEq, Prod.mk.injEq] at stored
    exact ⟨stored.1.symm, _, stored.2.symm⟩

theorem enqueue_conflict (keyed : item.idempotencyKey ≠ []) (prior : QueueItem)
    (taken : store.queue.findKey? item.idempotencyKey = some prior) :
    store.enqueueMessage now item = .error (.conflict prior.id) := by
  unfold enqueueMessage
  split
  case h_1 row found =>
    simp only [keyed, if_false, taken, Option.some.injEq] at found
    rw [found]
  case h_2 found => simp [keyed, taken] at found

theorem enqueue_error (cause : StoreError)
    (refused : store.enqueueMessage now item = .error cause) :
    item.idempotencyKey ≠ [] ∧ ∃ prior,
      store.queue.findKey? item.idempotencyKey = some prior ∧ cause = .conflict prior.id := by
  unfold enqueueMessage at refused
  split at refused
  case h_1 row found =>
    split at found
    · cases found
    case isFalse keyed => exact ⟨keyed, row, found, (Except.error.inj refused).symm⟩
  case h_2 => cases refused

theorem update_ok (change : RowUpdate) (store next : Store)
    (updated : store.updateQueueItem id change = .ok next) :
    ∃ row, store.queue.find? id = some row ∧
      next = { store with queue := store.queue.update change fun row => row.id = id } := by
  unfold updateQueueItem at updated
  split at updated
  case h_1 row found => exact ⟨row, found, (Except.ok.inj updated).symm⟩
  case h_2 => cases updated

theorem update_queue {id : Nat} {change : RowUpdate} {store next : Store}
    (updated : store.updateQueueItem id change = .ok next) :
    next.queue = store.queue.update change fun row => row.id = id := by
  obtain ⟨_, _, rfl⟩ := update_ok id change store next updated
  rfl

theorem complete_ok (success : Bool) (errMsg : Bytes)
    (store next : Store) (completed : store.completeQueueItem now id success errMsg = .ok next) :
    ∃ row, store.queue.find? id = some row ∧
      next = { queue := store.queue.update (completeUpdate now success errMsg) fun row => row.id = id
               blobRefs := dropBody row.bodyBlobHash now store.blobRefs } := by
  unfold completeQueueItem at completed
  split at completed
  case h_1 row found => exact ⟨row, found, (Except.ok.inj completed).symm⟩
  case h_2 => cases completed

theorem delete_ok (store next : Store) (deleted : store.deleteQueueItem now id = .ok next) :
    ∃ row, store.queue.find? id = some row ∧
      next = { queue := store.queue.delete id
               blobRefs := dropBody row.bodyBlobHash now store.blobRefs } := by
  unfold deleteQueueItem at deleted
  split at deleted
  case h_1 row found => exact ⟨row, found, (Except.ok.inj deleted).symm⟩
  case h_2 => cases deleted

/-- The calls that change the queue, each as one committed transaction. -/
inductive Transaction (store : Store) : Store → Prop where
  | enqueue (now : Micros) (item : QueueItem) (id : Nat) (next : Store)
      (stored : store.enqueueMessage now item = .ok (id, next)) : Transaction store next
  | claim (now : Micros) (max : Int) : Transaction store (store.claimDueQueueItems now max).2
  | update (id : Nat) (change : RowUpdate) (next : Store)
      (updated : store.updateQueueItem id change = .ok next) : Transaction store next
  | complete (now : Micros) (id : Nat) (success : Bool) (errMsg : Bytes) (next : Store)
      (completed : store.completeQueueItem now id success errMsg = .ok next) :
      Transaction store next
  | delete (now : Micros) (id : Nat) (next : Store)
      (deleted : store.deleteQueueItem now id = .ok next) : Transaction store next

def Gone (store : Store) (id : Nat) : Prop :=
  id < store.queue.nextID ∧ store.queue.find? id = none

theorem transaction_next_id (store next : Store) (transaction : Transaction store next) :
    store.queue.nextID ≤ next.queue.nextID := by
  cases transaction with
  | enqueue now item newID next stored =>
    obtain ⟨_, _, rfl⟩ := enqueue_ok now item store next newID stored
    exact Nat.le_succ _
  | claim now max => exact Nat.le_refl _
  | update target change next updated =>
    obtain ⟨_, _, rfl⟩ := update_ok target change store next updated
    exact Nat.le_refl _
  | complete now target success errMsg next completed =>
    obtain ⟨_, _, rfl⟩ := complete_ok now target success errMsg store next completed
    exact Nat.le_refl _
  | delete now target next deleted =>
    obtain ⟨_, _, rfl⟩ := delete_ok now target store next deleted
    exact Nat.le_refl _

theorem transaction_keeps_gone (store next : Store) (transaction : Transaction store next)
    (id : Nat) (gone : Gone store id) : Gone next id := by
  obtain ⟨issued, absent⟩ := gone
  cases transaction with
  | enqueue now item newID next stored =>
    obtain ⟨_, free, rfl⟩ := enqueue_ok now item store next newID stored
    refine ⟨Nat.lt_succ_of_lt issued, ?_⟩
    rw [QueueTable.find_insert, if_neg (Nat.ne_of_lt issued)]
    exact absent
  | claim now max =>
    refine ⟨issued, ?_⟩
    rw [claimDueQueueItems, QueueTable.find_update, absent]
    rfl
  | update target change next updated =>
    obtain ⟨_, _, rfl⟩ := update_ok target change store next updated
    refine ⟨issued, ?_⟩
    rw [QueueTable.find_update, absent]
    rfl
  | complete now target success errMsg next completed =>
    obtain ⟨_, _, rfl⟩ := complete_ok now target success errMsg store next completed
    refine ⟨issued, ?_⟩
    rw [QueueTable.find_update, absent]
    rfl
  | delete now target next deleted =>
    obtain ⟨_, _, rfl⟩ := delete_ok now target store next deleted
    refine ⟨issued, ?_⟩
    rw [QueueTable.find_delete, absent]
    exact ite_self _

theorem due_row_member (row : QueueItem)
    (due : row ∈ store.dueRows now max) : row ∈ store.queue.rows ∧ isDue now row = true := by
  have sorted := List.mem_of_mem_take due
  rw [List.mem_insertionSort, List.mem_filter] at sorted
  exact sorted

theorem claimed_item_found (item : QueueItem)
    (claimed : item ∈ (store.claimDueQueueItems now max).1) :
    ∃ row, store.queue.find? item.id = some row ∧ isDue now row = true ∧
      item = (claimUpdate now).apply row := by
  obtain ⟨row, due, rfl⟩ := List.mem_map.mp claimed
  obtain ⟨member, isDue⟩ := due_row_member now max store row due
  exact ⟨row, store.queue.find_of_member row member, isDue, rfl⟩

theorem claimed_once (id : Nat) :
    (store.claimDueQueueItems now max).1.countP (fun item => item.id = id) ≤ 1 := by
  have distinct : (store.queue.rows.map QueueItem.id).Nodup := by
    rw [List.Nodup, List.pairwise_map]
    exact store.queue.ordered.imp fun earlier => Nat.ne_of_lt earlier
  have filtered : ((store.queue.rows.filter (isDue now)).map QueueItem.id).Nodup :=
    distinct.sublist (List.filter_sublist.map _)
  have sorted : (((store.queue.rows.filter (isDue now)).insertionSort dueBefore).map
      QueueItem.id).Nodup :=
    ((List.perm_insertionSort dueBefore _).map _).nodup_iff.mpr filtered
  have taken : ((store.dueRows now max).map QueueItem.id).Nodup :=
    sorted.sublist ((List.take_sublist _ _).map _)
  have counted := List.nodup_iff_count_le_one.mp taken id
  rw [List.count_eq_countP, List.countP_map] at counted
  have same : (store.claimDueQueueItems now max).1.countP (fun item => item.id = id) =
      (store.dueRows now max).countP ((fun other => other == id) ∘ QueueItem.id) := by
    rw [claimDueQueueItems, List.countP_map]
    rfl
  rw [same]
  exact counted

theorem find_claim (id : Nat) : (store.claimDueQueueItems now max).2.queue.find? id =
      (store.queue.find? id).map fun row =>
        if id ∈ (store.claimDueQueueItems now max).1.map QueueItem.id then
          (claimUpdate now).apply row
        else row := by
  have ids : (store.claimDueQueueItems now max).1.map QueueItem.id =
      (store.dueRows now max).map QueueItem.id := by
    rw [claimDueQueueItems, List.map_map]
    rfl
  rw [ids, claimDueQueueItems, QueueTable.find_update]
  cases found : store.queue.find? id with
  | none => rfl
  | some row =>
    have same := store.queue.find_some_id id row found
    simp [QueueTable.updateRow, same]

theorem claimed_row_due (row : QueueItem) (member : row ∈ store.queue.rows)
    (claimed : row.id ∈ (store.dueRows now max).map QueueItem.id) : isDue now row = true := by
  obtain ⟨other, due, same⟩ := List.mem_map.mp claimed
  obtain ⟨otherMember, otherDue⟩ := due_row_member now max store other due
  rwa [store.queue.member_unique other row otherMember member same] at otherDue

end

end Store

end Herold

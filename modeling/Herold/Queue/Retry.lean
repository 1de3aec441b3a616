import Herold.Queue.Delivery

/-!
# The retry budget

A row is given up with "retry schedule exhausted" by its attempts column, which
every reschedule advances. The column says how often the deliverer was asked as
long as only the workers' own transient answers reschedule the row.
-/

namespace Herold.Queue

open Herold.Go Herold.Store Herold.Machine

def callCount (log : List Event) (id : Nat) : Nat := log.count (.deliverCalled id)

def transientCount (log : List Event) (id : Nat) : Nat :=
  log.count (.deliverReturned id .transient)

/-- A row is exhausted after one call more than the schedule has delays, all of
which ended transient. -/
def budgetCheck (length : Nat) (before : List Event) : Event → Prop
  | .exhausted id => callCount before id = length + 1 ∧ transientCount before id = length + 1 ∧
      ∀ status, .deliverReturned id status ∈ before → status = .transient
  | _ => True

def RetryBudget (options : Options) (log : List Event) : Prop :=
  EveryEvent (budgetCheck options.retrySchedule.length) log

def Action.isOperator : Action → Bool
  | retryQueueItem _ _ | holdQueueItem _ | releaseQueueItem _ _ | deleteQueueItem _ _
  | flushStart _ | flushNext _ _ | flushPage _ => true
  | _ => false

/-- The steps that advance a row's attempts, or lead to it, without a call of
the deliverer: the roll-backs of the sweep and of the scheduler, and a transient
outcome that the worker made up itself. -/
def System.spendsWithoutCall (options : Options) (system : System) : Action → Bool
  | .sweepNext now _ =>
    match system.scheduler with
    | .recovering (row :: _) => System.isStale options now row
    | _ => false
  | .dispatchNext _ shutdown _ =>
    match system.scheduler with
    | .dispatching (item :: _) =>
      shutdown || decide (options.perHostMax ≤ system.hostLoad (recipientHost item.rcptTo))
    | _ => false
  | .prepare _ preparation => preparation.outcome.any fun outcome => outcome.status = .transient
  | _ => false

/-- No operator intervenes, and every attempt that counts is a call. -/
def CountsOnlyCalls (options : Options) (system : System) (action : Action) : Prop :=
  action.isOperator = false ∧ system.spendsWithoutCall options action = false

instance (options : Options) (system : System) (action : Action) :
    Decidable (CountsOnlyCalls options system action) :=
  inferInstanceAs (Decidable (action.isOperator = false ∧
    system.spendsWithoutCall options action = false))

section

variable (options : Options) (system : System) (now : Micros) (log : List Event) (index : Nat)
  (item : QueueItem)

theorem no_operator_spares (action : Action)
    (automatic : action.isOperator = false) : SparesClaimedRows system action := by
  cases action <;> simp [Action.isOperator] at automatic <;>
    simp [SparesClaimedRows, System.revivedRow, heldRow]

/-- Attempts stay within the schedule. A schedule too long for an `int32` is
never exhausted. -/
def WithinBudget (options : Options) (attempts : Nat) : Prop :=
  options.retrySchedule.length < 2147483648 → attempts ≤ options.retrySchedule.length

theorem exhausted_attempts (attempts : Nat) (within : WithinBudget options attempts)
    (decision : next options (int32 attempts) = .exhausted) :
    attempts = options.retrySchedule.length := by
  have reached : (options.retrySchedule.length : Int) ≤ int32 attempts := by
    unfold next at decision
    split at decision
    · assumption
    · split at decision <;> cases decision
  unfold WithinBudget at within
  unfold int32 at reached
  simp only at reached
  split at reached <;> omega

theorem delayed_within (attempts : Nat) (duration : Micros) (within : WithinBudget options attempts)
    (decision : next options (int32 attempts) = .delay duration) :
    WithinBudget options (attempts + 1) := by
  have left : int32 attempts < (options.retrySchedule.length : Int) := by
    unfold next at decision
    split at decision
    · cases decision
    · omega
  intro short
  have bounded := within short
  unfold int32 at left
  simp only at left
  split at left <;> omega

/-- What the log and the store say about a row whose attempts all were calls,
`calls` and `returns` being those of the attempt that is under way. -/
structure Tracked (options : Options) (log : List Event) (table : QueueTable) (item : QueueItem)
    (calls returns : Nat) : Prop where
  called : callCount log item.id = item.attempts + calls
  returned : transientCount log item.id = item.attempts + returns
  only : ∀ status, .deliverReturned item.id status ∈ log → status = .transient
  within : WithinBudget options item.attempts
  stored : ∀ row, table.find? item.id = some row → row.attempts = item.attempts

def SameCalls (before after : List Event) (id : Nat) : Prop :=
  callCount after id = callCount before id ∧ transientCount after id = transientCount before id ∧
    ∀ status, .deliverReturned id status ∈ after → .deliverReturned id status ∈ before

theorem same_calls_refl (id : Nat) : SameCalls log log id :=
  ⟨rfl, rfl, fun _ member => member⟩

theorem same_calls_append (event : Event) (id : Nat)
    (other : event ≠ .deliverCalled id) (another : ∀ status, event ≠ .deliverReturned id status) :
    SameCalls log (log ++ [event]) id := by
  refine ⟨?_, ?_, ?_⟩
  · simp [callCount, List.count_append, other]
  · simp [transientCount, List.count_append, another]
  · intro status member
    rw [List.mem_append, List.mem_singleton] at member
    rcases member with earlier | last
    · exact earlier
    · exact absurd last.symm (another status)

/-- A row stays tracked while no call for it is recorded and no step rewrites
its attempts. -/
theorem Tracked.keeps {options : Options} {log : List Event} {table : QueueTable}
    {item : QueueItem} {calls returns : Nat} (after : List Event) (rows : QueueTable)
    (tracked : Tracked options log table item calls returns) (same : SameCalls log after item.id)
    (stored : ∀ row, rows.find? item.id = some row →
      ∃ old, table.find? item.id = some old ∧ old.attempts = row.attempts) :
    Tracked options after rows item calls returns where
  called := same.1.trans tracked.called
  returned := same.2.1.trans tracked.returned
  only := fun status member => tracked.only status (same.2.2 status member)
  within := tracked.within
  stored := by
    intro row found
    obtain ⟨old, present, attempts⟩ := stored row found
    exact attempts ▸ tracked.stored old present

theorem Tracked.copy {options : Options} {log : List Event} {table : QueueTable}
    {item : QueueItem} {calls returns : Nat} (other : QueueItem)
    (tracked : Tracked options log table item calls returns) (same : other.id = item.id)
    (attempts : other.attempts = item.attempts) :
    Tracked options log table other calls returns where
  called := by rw [same, attempts]; exact tracked.called
  returned := by rw [same, attempts]; exact tracked.returned
  only := by rw [same]; exact tracked.only
  within := by rw [attempts]; exact tracked.within
  stored := by rw [same, attempts]; exact tracked.stored

theorem uncalled_keeps (before after : List Event) (id : Nat) (same : SameCalls before after id)
    (uncalled : callCount before id = 0 ∧ transientCount before id = 0 ∧
      ∀ status, .deliverReturned id status ∉ before) :
    callCount after id = 0 ∧ transientCount after id = 0 ∧
      ∀ status, .deliverReturned id status ∉ after := by
  obtain ⟨sameCalls, sameReturns, earlier⟩ := same
  obtain ⟨never, unanswered, silent⟩ := uncalled
  exact ⟨sameCalls.trans never, sameReturns.trans unanswered,
    fun status member => silent status (earlier status member)⟩

theorem uncalled_tracked (table : QueueTable)
    (row : QueueItem) (found : table.find? row.id = some row) (attempts : row.attempts = 0)
    (uncalled : callCount log row.id = 0 ∧ transientCount log row.id = 0 ∧
      ∀ status, .deliverReturned row.id status ∉ log) : Tracked options log table row 0 0 where
  called := by rw [uncalled.1, attempts]
  returned := by rw [uncalled.2.1, attempts]
  only := fun status member => absurd member (uncalled.2.2 status)
  within := by
    intro _
    rw [attempts]
    exact Nat.zero_le _
  stored := by
    intro other present
    rw [found, Option.some.injEq] at present
    rw [present]

theorem Tracked.call {options : Options} {log : List Event} {table : QueueTable}
    {item : QueueItem} (tracked : Tracked options log table item 0 0) :
    Tracked options (log ++ [.deliverCalled item.id]) table item 1 0 where
  called := by
    have before := tracked.called
    simp only [callCount] at before
    simp [callCount, List.count_append, before]
  returned := by
    have before := tracked.returned
    simp only [transientCount] at before
    simp [transientCount, List.count_append, before]
  only := by
    intro status member
    apply tracked.only status
    simpa using member
  within := tracked.within
  stored := tracked.stored

theorem Tracked.transient {options : Options} {log : List Event} {table : QueueTable}
    {item : QueueItem} (tracked : Tracked options log table item 1 0) :
    Tracked options (log ++ [.deliverReturned item.id .transient]) table item 1 1 where
  called := by
    have before := tracked.called
    simp only [callCount] at before
    simp [callCount, List.count_append, before]
  returned := by
    have before := tracked.returned
    simp only [transientCount] at before
    simp [transientCount, List.count_append, before]
  only := by
    intro status member
    simp only [List.mem_append, List.mem_singleton, Event.deliverReturned.injEq,
      true_and] at member
    rcases member with earlier | rfl
    · exact tracked.only status earlier
    · rfl
  within := tracked.within
  stored := tracked.stored

/-- The calls and the transient answers a worker has added to its row's attempts.
Other phases never lead to an exhausted row. -/
def Phase.progress : Phase → Option (Nat × Nat)
  | starting => some (0, 0)
  | delivering => some (1, 0)
  | settling outcome => if outcome.status = .transient then some (1, 1) else none
  | finished => none

theorem progress_busy (phase : Phase) (progress : Nat × Nat)
    (tracked : phase.progress = some progress) : phase ≠ .finished := by
  intro finished
  rw [finished] at tracked
  cases tracked

structure RetrySafe (options : Options) (system : System) : Prop where
  delivery : DeliverySafe system
  fresh : ∀ id, system.store.queue.nextID ≤ id → callCount system.log id = 0 ∧
    transientCount system.log id = 0 ∧ ∀ status, .deliverReturned id status ∉ system.log
  rows : ∀ id row, system.store.queue.find? id = some row → row.state.isClaimable = true →
    Tracked options system.log system.store.queue row 0 0
  batch : ∀ item ∈ system.scheduler.batch, Tracked options system.log system.store.queue item 0 0
  workers : ∀ worker ∈ system.workers, ∀ progress, worker.phase.progress = some progress →
    Tracked options system.log system.store.queue worker.item progress.1 progress.2
  known : ∀ worker ∈ system.workers, ∀ outcome, worker.phase = .settling outcome →
    outcome.status ≠ .unknown
  sound : RetryBudget options system.log

theorem start_retry_safe : RetrySafe options (System.start Store.empty) where
  delivery := start_delivery_safe Store.empty
  fresh := by simp [System.start, callCount, transientCount]
  rows := by simp [System.start, Store.empty, QueueTable.empty, QueueTable.find?]
  batch := by simp [System.start, Scheduler.batch]
  workers := by simp [System.start]
  known := by simp [System.start]
  sound := every_event_nil _

/-- Each row of the later table had the same attempts before, and was claimable
if it is so now, or it is new. -/
def RowsCarryOver (before after : QueueTable) : Prop :=
  ∀ id row, after.find? id = some row →
    (∃ old, before.find? id = some old ∧ old.attempts = row.attempts ∧
      (row.state.isClaimable = true → old.state.isClaimable = true)) ∨
    before.nextID ≤ id ∧ row.attempts = 0

theorem rows_carry_over_refl (table : QueueTable) : RowsCarryOver table table := by
  intro id row found
  exact Or.inl ⟨row, found, rfl, fun claimable => claimable⟩

theorem RetrySafe.worker_issued {options : Options} {system : System}
    (safe : RetrySafe options system) (worker : Worker) (member : worker ∈ system.workers)
    (busy : worker.phase ≠ .finished) : worker.item.id < system.store.queue.nextID :=
  safe.delivery.issued _ (system.worker_claimed worker member busy)

theorem carried_attempts (before after : QueueTable) (carry : RowsCarryOver before after) (id : Nat)
    (issued : id < before.nextID) (row : QueueItem) (found : after.find? id = some row) :
    ∃ old, before.find? id = some old ∧ old.attempts = row.attempts := by
  rcases carry id row found with ⟨old, present, attempts, _⟩ | ⟨new, _⟩
  · exact ⟨old, present, attempts⟩
  · exact absurd issued (Nat.not_lt.mpr new)

/-- A step that records no call and no answer and rewrites no attempts. What the
scheduler holds after it, it held before or found claimable. -/
theorem RetrySafe.frame {options : Options} {system : System} (next : System)
    (safe : RetrySafe options system) (delivery : DeliverySafe next)
    (nextID : system.store.queue.nextID ≤ next.store.queue.nextID)
    (calls : ∀ id, SameCalls system.log next.log id)
    (carry : RowsCarryOver system.store.queue next.store.queue)
    (batch : ∀ item ∈ next.scheduler.batch, item ∈ system.scheduler.batch ∨
      ∃ row, system.store.queue.find? item.id = some row ∧ row.state.isClaimable = true ∧
        item.attempts = row.attempts)
    (workers : ∀ worker ∈ next.workers, worker ∈ system.workers ∨
      worker.phase = .starting ∧ worker.item ∈ system.scheduler.batch)
    (sound : RetryBudget options next.log) : RetrySafe options next := by
  have keeps (item : QueueItem) (calls' returns : Nat)
      (issued : item.id < system.store.queue.nextID)
      (tracked : Tracked options system.log system.store.queue item calls' returns) :
      Tracked options next.log next.store.queue item calls' returns :=
    tracked.keeps next.log next.store.queue (calls item.id)
      (carried_attempts _ _ carry item.id issued)
  have inBatch (item : QueueItem) (member : item ∈ system.scheduler.batch) :
      Tracked options next.log next.store.queue item 0 0 :=
    keeps item 0 0 (safe.delivery.issued _ (system.batch_claimed item member))
      (safe.batch item member)
  have claimable (id : Nat) (row : QueueItem) (found : system.store.queue.find? id = some row)
      (due : row.state.isClaimable = true) (item : QueueItem) (same : item.id = id)
      (attempts : item.attempts = row.attempts) :
      Tracked options next.log next.store.queue item 0 0 := by
    have sameID := system.store.queue.find_some_id id row found
    have issued := system.store.queue.find_some_issued id row found
    exact (keeps row 0 0 (sameID ▸ issued) (safe.rows id row found due)).copy item
      (same.trans sameID.symm) attempts
  refine { delivery, sound, fresh := ?_, rows := ?_, batch := ?_, workers := ?_, known := ?_ }
  · intro id new
    exact uncalled_keeps _ _ id (calls id) (safe.fresh id (Nat.le_trans nextID new))
  · intro id row found due
    have same := next.store.queue.find_some_id id row found
    subst same
    rcases carry row.id row found with ⟨old, present, attempts, before⟩ | ⟨new, attempts⟩
    · exact claimable row.id old present (before due) row rfl attempts.symm
    · exact uncalled_tracked options next.log next.store.queue row found attempts
        (uncalled_keeps _ _ row.id (calls row.id) (safe.fresh row.id new))
  · intro item member
    rcases batch item member with held | ⟨row, found, due, attempts⟩
    · exact inBatch item held
    · exact claimable item.id row found due item rfl attempts
  · intro worker member progress tracked
    rcases workers worker member with old | ⟨starting, held⟩
    · exact keeps _ _ _ (safe.worker_issued worker old (progress_busy _ _ tracked))
        (safe.workers worker old progress tracked)
    · rw [starting] at tracked
      cases tracked
      exact inBatch worker.item held
  · intro worker member outcome settles
    rcases workers worker member with old | ⟨starting, _⟩
    · exact safe.known worker old outcome settles
    · rw [starting] at settles
      cases settles

/-- The step of the worker that holds a row: it may record calls and answers for
that row, and write to it, and to no other. -/
theorem RetrySafe.own_row {options : Options} {system : System} (next : System) (index : Nat)
    (item : QueueItem) (old new : Phase) (safe : RetrySafe options system)
    (delivery : DeliverySafe next)
    (found : system.workers[index]? = some ⟨item, old⟩) (busy : old ≠ .finished)
    (scheduler : next.scheduler = system.scheduler)
    (workers : next.workers = (system.setPhase index ⟨item, old⟩ new).workers)
    (nextID : next.store.queue.nextID = system.store.queue.nextID)
    (calls : ∀ id, id ≠ item.id → SameCalls system.log next.log id)
    (rows : ∀ id, id ≠ item.id → next.store.queue.find? id = system.store.queue.find? id)
    (own : ∀ row, next.store.queue.find? item.id = some row → row.state.isClaimable = true →
      Tracked options next.log next.store.queue row 0 0)
    (moved : ∀ progress, new.progress = some progress →
      Tracked options next.log next.store.queue item progress.1 progress.2)
    (known : ∀ outcome, new = .settling outcome → outcome.status ≠ .unknown)
    (sound : RetryBudget options next.log) : RetrySafe options next := by
  have member : ⟨item, old⟩ ∈ system.workers := List.mem_iff_getElem?.mpr ⟨index, found⟩
  have single := safe.delivery.exclusive item.id
  have issued := safe.worker_issued ⟨item, old⟩ member busy
  have keeps (other : QueueItem) (calls' returns : Nat) (apart : other.id ≠ item.id)
      (tracked : Tracked options system.log system.store.queue other calls' returns) :
      Tracked options next.log next.store.queue other calls' returns := by
    refine tracked.keeps next.log next.store.queue (calls other.id apart) ?_
    intro row present
    rw [rows other.id apart] at present
    exact ⟨row, present, rfl⟩
  refine { delivery, sound, fresh := ?_, rows := ?_, batch := ?_, workers := ?_, known := ?_ }
  · intro id unused
    rw [nextID] at unused
    have apart : id ≠ item.id := by
      rintro rfl
      exact absurd issued (Nat.not_lt.mpr unused)
    exact uncalled_keeps _ _ id (calls id apart) (safe.fresh id unused)
  · intro id row present claimable
    by_cases here : id = item.id
    · rw [here] at present
      exact own row present claimable
    · rw [rows id here] at present
      have same := system.store.queue.find_some_id id row present
      exact keeps row 0 0 (same ▸ here) (safe.rows id row present claimable)
  · intro other held
    rw [scheduler] at held
    exact keeps other 0 0 (system.other_batch index item old found busy single other held)
      (safe.batch other held)
  · intro worker held progress tracked
    rw [workers] at held
    rcases system.other_holder index item old new found busy single worker held
      (progress_busy _ _ tracked) with rfl | ⟨earlier, apart⟩
    · exact moved progress tracked
    · exact keeps _ _ _ apart (safe.workers worker earlier progress tracked)
  · intro worker held outcome settles
    rw [workers] at held
    rcases system.other_holder index item old new found busy single worker held
      (by rw [settles]; simp) with rfl | ⟨earlier, _⟩
    · exact known outcome settles
    · exact safe.known worker earlier outcome settles

theorem claim_carries_over (budget : Int) (store : Store) :
    RowsCarryOver store.queue (store.claimDueQueueItems now budget).2.queue := by
  intro id row found
  rw [Store.find_claim] at found
  obtain ⟨old, present, rfl⟩ := Option.map_eq_some_iff.mp found
  refine Or.inl ⟨old, present, ?_, ?_⟩
  · split <;> rfl
  · split
    · intro claimable
      cases claimable
    · exact fun claimable => claimable

theorem claim_retry_safe (now : Micros) (budget : Int)
    (polls : system.scheduler = .polling) (safe : RetrySafe options system) :
    RetrySafe options { system with
      store := (system.store.claimDueQueueItems now budget).2
      scheduler := .dispatching (system.store.claimDueQueueItems now budget).1 } := by
  refine safe.frame _ (claim_delivery_safe system now budget polls safe.delivery) (Nat.le_refl _)
    (same_calls_refl _) (claim_carries_over now budget system.store) ?_
    (fun _ member => Or.inl member) safe.sound
  intro item claimed
  obtain ⟨row, found, due, rfl⟩ := Store.claimed_item_found now budget system.store item claimed
  simp only [Store.isDue, Bool.and_eq_true] at due
  exact Or.inr ⟨row, found, due.1, rfl⟩

theorem enqueue_carries_over (store next : Store) (id : Nat)
    (stored : store.enqueueMessage now { item with state := .queued, attempts := 0 } =
      .ok (id, next)) : RowsCarryOver store.queue next.queue := by
  obtain ⟨_, free, rfl⟩ := Store.enqueue_ok now _ store next id stored
  intro other row found
  rw [QueueTable.find_insert] at found
  split at found
  case isTrue new =>
    cases found
    exact Or.inr ⟨Nat.le_of_eq new.symm, rfl⟩
  case isFalse => exact rows_carry_over_refl store.queue other row found

theorem delete_carries_over (target : Nat) (store next : Store)
    (deleted : store.deleteQueueItem now target = .ok next) :
    RowsCarryOver store.queue next.queue := by
  intro id row found
  exact rows_carry_over_refl store.queue id row
    (deleted_rows now target store next deleted id row found)

theorem RetrySafe.held_row {options : Options} {system : System} (safe : RetrySafe options system)
    (index : Nat) (item : QueueItem) (phase : Phase)
    (found : system.workers[index]? = some ⟨item, phase⟩) (busy : phase ≠ .finished)
    (row : QueueItem) (present : system.store.queue.find? item.id = some row) :
    row.state.isClaimable = false :=
  safe.delivery.unclaimable item.id row
    (system.worker_claimed ⟨item, phase⟩ (List.mem_iff_getElem?.mpr ⟨index, found⟩) busy) present

theorem call_retry_safe (found : system.workers[index]? = some ⟨item, .starting⟩)
    (safe : RetrySafe options system) :
    RetrySafe options ((system.setPhase index ⟨item, .starting⟩ .delivering).record
      (.deliverCalled item.id)) := by
  have tracked := safe.workers ⟨item, .starting⟩ (List.mem_iff_getElem?.mpr ⟨index, found⟩) (0, 0) rfl
  refine safe.own_row _ index item .starting .delivering
    (call_delivery_safe system index item found safe.delivery) found (by simp) rfl rfl rfl ?_
    (fun _ _ => rfl) ?_ ?_ (by simp) (every_event_append _ _ _ safe.sound trivial)
  · intro id apart
    exact same_calls_append _ _ id (by simpa using apart.symm) (by simp)
  · intro row present claimable
    rw [safe.held_row index item .starting found (by simp) row present] at claimable
    cases claimable
  · intro progress moved
    cases moved
    exact tracked.call

theorem return_retry_safe (outcome : DeliveryOutcome)
    (found : system.workers[index]? = some ⟨item, .delivering⟩)
    (known : outcome.status ≠ .unknown) (safe : RetrySafe options system) :
    RetrySafe options ((system.setPhase index ⟨item, .delivering⟩ (.settling outcome)).record
      (.deliverReturned item.id outcome.status)) := by
  have tracked :=
    safe.workers ⟨item, .delivering⟩ (List.mem_iff_getElem?.mpr ⟨index, found⟩) (1, 0) rfl
  refine safe.own_row _ index item .delivering (.settling outcome)
    (return_delivery_safe system index item outcome found safe.delivery) found (by simp) rfl rfl rfl
    ?_ (fun _ _ => rfl) ?_ ?_ ?_ (every_event_append _ _ _ safe.sound trivial)
  · intro id apart
    exact same_calls_append _ _ id (by simp) (by
      intro status same
      cases same
      exact apart rfl)
  · intro row present claimable
    rw [safe.held_row index item .delivering found (by simp) row present] at claimable
    cases claimable
  · intro progress moved
    simp only [Phase.progress] at moved
    split at moved
    case isFalse => cases moved
    case isTrue transient =>
      cases moved
      rw [transient]
      exact tracked.transient
  · intro other settles
    cases settles
    exact known

theorem settle_retry_safe (outcome : DeliveryOutcome) (change : RowUpdate) (store : Store)
    (log : List Event)
    (found : system.workers[index]? = some ⟨item, .settling outcome⟩)
    (stored : store.queue = system.store.queue.update change fun row => row.id = item.id)
    (calls : ∀ id, SameCalls system.log log id)
    (own : ∀ row, system.store.queue.find? item.id = some row →
      (change.apply row).state.isClaimable = true →
        Tracked options log store.queue (change.apply row) 0 0)
    (sound : RetryBudget options log)
    (delivery : DeliverySafe
      { system.setPhase index ⟨item, .settling outcome⟩ .finished with store, log })
    (safe : RetrySafe options system) :
    RetrySafe options
      { system.setPhase index ⟨item, .settling outcome⟩ .finished with store, log } := by
  refine safe.own_row _ index item (.settling outcome) .finished delivery found (by simp) rfl rfl
    (by rw [stored]; rfl) (fun id _ => calls id) ?_ ?_ nofun nofun sound
  · intro id apart
    rw [stored, QueueTable.find_update_id, if_neg apart]
  · intro row present claimable
    rw [stored, QueueTable.find_update_id, if_pos rfl] at present
    obtain ⟨old, before, rfl⟩ := Option.map_eq_some_iff.mp present
    exact own old before claimable

/-- A transient answer that leaves delays: the rescheduled row has one more
attempt, and that one was a call. -/
theorem rescheduled_tracked (table rows : QueueTable)
    (item row : QueueItem) (nextAttempt : Micros) (errMsg : Bytes)
    (tracked : Tracked options log table item 1 1)
    (within : WithinBudget options (item.attempts + 1))
    (stored : rows = table.update (Store.rescheduleUpdate nextAttempt errMsg)
      fun row => row.id = item.id)
    (present : table.find? item.id = some row) :
    Tracked options log rows ((Store.rescheduleUpdate nextAttempt errMsg).apply row) 0 0 := by
  have same : ((Store.rescheduleUpdate nextAttempt errMsg).apply row).id = item.id :=
    table.find_some_id item.id row present
  have attempts : ((Store.rescheduleUpdate nextAttempt errMsg).apply row).attempts =
      item.attempts + 1 := congrArg Nat.succ (tracked.stored row present)
  exact
    { called := by rw [same, attempts]; exact tracked.called
      returned := by rw [same, attempts]; exact tracked.returned
      only := by rw [same]; exact tracked.only
      within := by rw [attempts]; exact within
      stored := by
        intro other found
        rw [same, stored, QueueTable.find_update_id, if_pos rfl, present] at found
        rw [← Option.some.inj found] }

theorem settlement_retry_safe (now : Micros)
    (item : QueueItem) (outcome : DeliveryOutcome) (store : Store) (event : Option Event)
    (found : system.workers[index]? = some ⟨item, .settling outcome⟩)
    (settled : System.settlement options now item outcome system.store = some (.ok store, event))
    (nextID : system.store.queue.nextID ≤ store.queue.nextID) (safe : RetrySafe options system) :
    RetrySafe options { system.setPhase index ⟨item, .settling outcome⟩ .finished with
      store, log := system.log ++ event.toList } := by
  have delivery := settlement_delivery_safe options system index now item outcome store event found
    settled nextID safe.delivery
  have member := List.mem_iff_getElem?.mpr ⟨index, found⟩
  -- a completed row is terminal, so only the event's own check is left
  have completes (success : Bool) (errMsg : Bytes) (sound : RetryBudget options
      (system.log ++ event.toList)) (calls : ∀ id, SameCalls system.log (system.log ++ event.toList) id)
      (completed : system.store.completeQueueItem now item.id success errMsg = .ok store) :=
    settle_retry_safe options system index item outcome _ store _ found
      (complete_queue now item.id success errMsg system.store store completed) calls
      (by
        intro row _ claimable
        cases success <;> cases claimable)
      sound delivery safe
  rcases System.settlement_cases options now item outcome system.store store event settled with
    ⟨_, rfl, completed⟩ | ⟨rfl, errMsg, completed⟩ | ⟨rfl, held⟩ | ⟨status, handled⟩
  · exact completes true [] (every_event_append _ _ _ safe.sound trivial)
      (fun id => same_calls_append _ _ id (by simp) (by simp)) completed
  · exact completes false errMsg (by simpa using safe.sound)
      (fun id => by simpa using same_calls_refl system.log id) completed
  · refine settle_retry_safe options system index item outcome _ store _ found
      (Store.update_queue held) (fun id => by simpa using same_calls_refl system.log id) ?_
      (by simpa using safe.sound) delivery safe
    intro row _ claimable
    cases claimable
  · have transient : outcome.status = .transient :=
      status.resolve_right (safe.known _ member outcome rfl)
    have tracked := safe.workers _ member (1, 1) (by simp [Phase.progress, transient])
    rcases System.handle_transient_cases options now item outcome system.store store event handled
      with ⟨decision, rfl, errMsg, completed⟩ | ⟨rfl, duration, errMsg, decision, updated⟩
    · have spent := exhausted_attempts options item.attempts tracked.within decision
      refine completes false errMsg (every_event_append _ _ _ safe.sound ?_)
        (fun id => same_calls_append _ _ id (by simp) (by simp)) completed
      exact ⟨spent ▸ tracked.called, spent ▸ tracked.returned, tracked.only⟩
    · have within := delayed_within options item.attempts duration tracked.within decision
      refine settle_retry_safe options system index item outcome _ store _ found
        (Store.update_queue updated) (fun id => by simpa using same_calls_refl system.log id) ?_
        (by simpa using safe.sound) delivery safe
      intro row present _
      simpa using rescheduled_tracked options system.log system.store.queue store.queue item row _
        errMsg tracked within (Store.update_queue updated) present

theorem classify_known (outcome : DeliveryOutcome) (error : Option Bytes) :
    (classify outcome error).status ≠ .unknown := by
  cases status : outcome.status with
  | unknown => cases error <;> simp [classify, status]
  | success | permanent | transient | hold => simp [classify, status]

theorem prepared_known (preparation : Preparation) (outcome : DeliveryOutcome)
    (abandoned : preparation.outcome = some outcome) : outcome.status ≠ .unknown := by
  cases preparation <;> cases abandoned <;> simp

theorem RetrySafe.abandons {options : Options} {system : System} (safe : RetrySafe options system)
    (index : Nat) (item : QueueItem) (old new : Phase)
    (found : system.workers[index]? = some ⟨item, old⟩) (busy : old ≠ .finished)
    (delivery : DeliverySafe (system.setPhase index ⟨item, old⟩ new))
    (ends : new.progress = none)
    (known : ∀ outcome, new = .settling outcome → outcome.status ≠ .unknown) :
    RetrySafe options (system.setPhase index ⟨item, old⟩ new) := by
  refine safe.own_row _ index item old new delivery found busy rfl rfl rfl
    (fun id _ => same_calls_refl _ id) (fun _ _ => rfl) ?_ ?_ known safe.sound
  · intro row present claimable
    rw [safe.held_row index item old found busy row present] at claimable
    cases claimable
  · intro progress moved
    rw [ends] at moved
    cases moved

/-- A step that writes no attempts and records no call, given that the claims
stay safe. -/
theorem RetrySafe.beside {options : Options} {system : System} (next : System)
    (safe : RetrySafe options system) (delivery : DeliverySafe next)
    (stored : next.store = system.store) (log : next.log = system.log)
    (batch : ∀ item ∈ next.scheduler.batch, item ∈ system.scheduler.batch)
    (workers : ∀ worker ∈ next.workers, worker ∈ system.workers ∨
      worker.phase = .starting ∧ worker.item ∈ system.scheduler.batch) : RetrySafe options next := by
  refine safe.frame next delivery (by rw [stored]) ?_ ?_ (fun item held => Or.inl (batch item held))
    workers (log ▸ safe.sound)
  · rw [log]
    exact same_calls_refl system.log
  · rw [stored]
    exact rows_carry_over_refl _

theorem step_retry_safe (action : Action) (next : System)
    (safe : RetrySafe options system) (counts : CountsOnlyCalls options system action)
    (ran : (machine options).step system action = some next) : RetrySafe options next := by
  have delivery := step_delivery_safe options system action next safe.delivery
    (no_operator_spares system action counts.1) ran
  have ran : system.step options action = some next := ran
  have nextID := system.step_next_id options next action ran
  obtain ⟨automatic, asked⟩ := counts
  cases action with
  | listStale failed =>
    simp only [System.step] at ran
    split at ran
    case h_2 => cases ran
    case h_1 idle =>
      cases Option.some.inj ran
      refine safe.beside _ delivery rfl rfl ?_ fun _ => Or.inl
      cases failed <;> simp [Scheduler.batch]
  | sweepNext now failed =>
    rcases System.sweep_next_cases options now failed system next ran with
      ⟨listed, rfl⟩ | ⟨row, rows, listed, ⟨_, rfl⟩ | ⟨stale, rfl⟩⟩
    · exact safe.beside _ delivery rfl rfl (by simp [Scheduler.batch]) fun _ => Or.inl
    · exact safe.beside _ delivery rfl rfl (by simp [Scheduler.batch]) fun _ => Or.inl
    · simp [System.spendsWithoutCall, listed, stale] at asked
  | claim now failed =>
    rcases System.claim_cases options now failed system next ran with
      ⟨polls, rfl | ⟨budget, rfl⟩⟩
    · exact safe
    · exact claim_retry_safe options system now budget polls safe
  | dispatchNext now shutdown failed =>
    rcases System.dispatch_next_cases options now shutdown failed system next ran with
      ⟨empty, rfl⟩ | ⟨item, batch, claimed, ⟨stops, rfl⟩ | ⟨capped, rfl⟩ | rfl⟩
    · exact safe.beside _ delivery rfl rfl (by simp [Scheduler.batch]) fun _ => Or.inl
    · simp [System.spendsWithoutCall, claimed, stops] at asked
    · simp only [System.spendsWithoutCall, claimed, Bool.or_eq_false_iff,
        decide_eq_false_iff_not] at asked
      exact absurd capped asked.2
    · refine safe.beside _ delivery rfl rfl ?_ ?_
      · intro other held
        rw [claimed]
        exact List.mem_cons_of_mem item held
      · intro worker held
        rw [List.mem_append, List.mem_singleton] at held
        rcases held with old | rfl
        · exact Or.inl old
        · rw [claimed]
          exact Or.inr ⟨rfl, List.mem_cons_self⟩
  | prepare index preparation =>
    rcases System.prepare_cases index preparation system next ran with
      ⟨item, found, ⟨_, rfl⟩ | ⟨outcome, abandoned, rfl⟩⟩
    · exact call_retry_safe options system index item found safe
    · have permanent : outcome.status ≠ .transient := by
        simpa [System.spendsWithoutCall, abandoned] using asked
      refine safe.abandons index item .starting (.settling outcome) found (by simp) delivery
        (if_neg permanent) ?_
      intro other same
      cases same
      exact prepared_known preparation outcome abandoned
  | deliverReturns index outcome error =>
    obtain ⟨item, found, rfl⟩ := System.deliver_returns_cases index outcome error system next ran
    exact return_retry_safe options system index item _ found (classify_known outcome error) safe
  | settle index now failed =>
    rcases System.settle_cases options index now failed system next ran with
      ⟨item, outcome, found, rfl | ⟨store, event, settled, rfl⟩⟩
    · exact safe.abandons index item (.settling outcome) .finished found (by simp) delivery rfl
        (by simp)
    · exact settlement_retry_safe options system index now item outcome store event found settled
        nextID safe
  | exit index =>
    obtain ⟨item, found, rfl⟩ := System.exit_cases index system next ran
    refine safe.beside _ delivery rfl rfl (fun _ held => held) ?_
    intro worker held
    exact Or.inl (List.mem_of_mem_eraseIdx held)
  | enqueue now item =>
    simp only [System.step, Option.some.injEq] at ran
    cases enqueued : system.store.enqueueMessage now { item with state := .queued, attempts := 0 } with
    | error cause =>
      rw [enqueued] at ran
      exact ran ▸ safe
    | ok pair =>
      rw [enqueued] at ran
      subst ran
      exact safe.frame _ delivery nextID (same_calls_refl _)
        (enqueue_carries_over now item system.store pair.2 pair.1 enqueued)
        (fun _ => Or.inl) (fun _ => Or.inl) safe.sound
  | retryQueueItem now id | releaseQueueItem now id | deleteQueueItem now id => cases automatic
  | holdQueueItem id => cases automatic
  | flushStart now | flushPage index => cases automatic
  | flushNext index failed => cases automatic
  | cancelStart envelope =>
    simp only [System.step, Option.some.injEq] at ran
    subst ran
    exact safe.beside _ delivery rfl rfl (fun _ held => held) fun _ => Or.inl
  | cancelNext index now failed =>
    rcases System.cancel_next_cases index now failed system next ran with
      ⟨cancels, rfl | ⟨id, store, _, deleted, rfl⟩⟩
    · exact safe.beside _ delivery rfl rfl (fun _ held => held) fun _ => Or.inl
    · refine safe.frame _ delivery nextID ?_ (delete_carries_over now id _ _ deleted)
        (fun _ => Or.inl) (fun _ => Or.inl) (every_event_append _ _ _ safe.sound trivial)
      intro other
      exact same_calls_append _ _ other (by simp) (by simp)
  | restart =>
    simp only [System.step, Option.some.injEq] at ran
    subst ran
    refine safe.frame _ delivery nextID ?_ (rows_carry_over_refl _)
      (by simp [Scheduler.batch, System.start]) (by simp [System.start])
      (every_event_append _ _ _ safe.sound trivial)
    intro other
    exact same_calls_append _ _ other (by simp) (by simp)

end

/-- Whatever the schedule, the concurrency, the cap and the hosts: in every run
from an empty queue in which no operator intervenes and only calls count, a row
is exhausted after exactly one call more than the schedule has delays, all of
them transient. -/
theorem retry_budget_when_only_calls_count (options : Options) (actions : List Action)
    (final : System)
    (ran : ((machine options).guarded (CountsOnlyCalls options)).execute
      (System.start Store.empty) actions = some final) : RetryBudget options final.log := by
  have safe := (machine options).guarded_keeps (CountsOnlyCalls options) (RetrySafe options)
    (step_retry_safe options) actions (System.start Store.empty) final (start_retry_safe options) ran
  exact safe.sound

def onePerHost : Options where
  concurrency := 2
  perHostMax := 1
  pollInterval := 5
  schedule := some [10]

def secondRow : QueueItem where
  mailFrom := ascii "a@x"
  rcptTo := ascii "c@y"

def attempt (now : Micros) (status : DeliveryStatus) : List Action :=
  [.claim now false, .dispatchNext now false false, .dispatchNext now false false,
    .prepare 0 .ready, .deliverReturns 0 ⟨status, 0, [], []⟩ none, .settle 0 now false, .exit 0]

def sharedHost : List Action :=
  [.enqueue 10 oneRow, .enqueue 10 secondRow, .listStale false, .sweepNext 20 false] ++
    attempt 20 .success ++ [.dispatchNext 20 false false] ++ attempt 30 .transient

theorem capped_row_exhausted_after_one_call :
    ((machine onePerHost).execute (System.start Store.empty) sharedHost).map System.log =
        some [.deliverCalled 1, .deliverReturned 1 .success, .delivered 1, .deliverCalled 2,
          .deliverReturned 2 .transient, .exhausted 2] ∧
      (∀ action ∈ sharedHost, action.isOperator = false) ∧
      ¬RetryBudget onePerHost [.deliverCalled 1, .deliverReturned 1 .success, .delivered 1,
        .deliverCalled 2, .deliverReturned 2 .transient, .exhausted 2] := by
  refine ⟨by decide +kernel, by simp [sharedHost, attempt, Action.isOperator], ?_⟩
  intro sound
  have spent := (sound [.deliverCalled 1, .deliverReturned 1 .success, .delivered 1,
    .deliverCalled 2, .deliverReturned 2 .transient] (.exhausted 2) [] rfl).1
  exact absurd spent (by decide)

def loneRow : List Action :=
  [.enqueue 10 oneRow, .listStale false, .sweepNext 20 false] ++ attempt 20 .transient ++
    attempt 40 .transient

theorem retry_budget_when_only_calls_count_of_lone_row :
    ∃ final, ((machine onePerHost).guarded (CountsOnlyCalls onePerHost)).execute
        (System.start Store.empty) loneRow = some final ∧
      final.log = [.deliverCalled 1, .deliverReturned 1 .transient, .deliverCalled 1,
        .deliverReturned 1 .transient, .exhausted 1] ∧ RetryBudget onePerHost final.log := by
  refine ⟨_, rfl, rfl, ?_⟩
  exact retry_budget_when_only_calls_count onePerHost loneRow _ rfl

end Herold.Queue

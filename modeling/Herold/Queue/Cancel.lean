import Herold.Queue.Claims

/-!
# Cancelling a submission

`Queue.Cancel` lists the rows of an envelope and deletes those it saw queued,
deferred or held. A row it counts as cancelled must not reach the deliverer
any more, whatever the scheduler and the workers do in between.
-/

namespace Herold.Queue

open Herold.Go Herold.Store Herold.Machine

/-- A row is counted while no call of the deliverer is open for it, and a row
handed to the deliverer was not counted before. -/
def cancelCheck (before : List Event) : Event → Prop
  | .cancelled id => runningCalls before id = 0
  | .deliverCalled id => .cancelled id ∉ before
  | _ => True

def CancelSound (log : List Event) : Prop := EveryEvent cancelCheck log

/-- A deletion of `Cancel` that finds its row finds it unclaimed: no delivery
of it is pending in the scheduler's batch or a worker, and none is running. -/
def CancelsUnclaimed (system : System) (action : Action) : Prop :=
  ∀ id ∈ system.cancelTarget action, system.waiting id = 0 ∧ system.delivering id = 0

instance (system : System) (action : Action) : Decidable (CancelsUnclaimed system action) :=
  inferInstanceAs (Decidable (∀ id ∈ system.cancelTarget action,
    system.waiting id = 0 ∧ system.delivering id = 0))

structure CancelSafe (system : System) : Prop where
  gone : ∀ id, .cancelled id ∈ system.log →
    system.store.Gone id ∧ system.waiting id = 0 ∧ system.delivering id = 0
  calls : ∀ id, runningCalls system.log id = system.delivering id
  sound : CancelSound system.log

theorem start_cancel_safe (store : Store) : CancelSafe (System.start store) where
  gone := by simp [System.start]
  calls := by simp [System.start, runningCalls, System.delivering]
  sound := every_event_nil cancelCheck

namespace CancelSafe

variable {system : System} (next : System)

/-- A step that records nothing keeps the invariant when it starts no delivery
and claims no deleted row. -/
theorem frame (safe : CancelSafe system)
    (stored : next.store = system.store ∨ Store.Transaction system.store next.store)
    (log : next.log = system.log)
    (waits : ∀ id, system.store.Gone id → next.waiting id ≤ system.waiting id)
    (delivers : ∀ id, next.delivering id = system.delivering id) : CancelSafe next where
  gone := by
    intro id counted
    rw [log] at counted
    obtain ⟨gone, idle, quiet⟩ := safe.gone id counted
    refine ⟨?_, ?_, ?_⟩
    · rcases stored with same | transaction
      · rwa [same]
      · exact Store.transaction_keeps_gone _ _ transaction id gone
    · exact Nat.le_zero.mp (idle ▸ waits id gone)
    · rw [delivers, quiet]
  calls := by
    intro id
    rw [log, delivers]
    exact safe.calls id
  sound := log ▸ safe.sound

theorem untouched (safe : CancelSafe system)
    (stored : next.store = system.store ∨ Store.Transaction system.store next.store)
    (batch : next.scheduler.batch = system.scheduler.batch)
    (workers : next.workers = system.workers) (log : next.log = system.log) : CancelSafe next := by
  apply safe.frame next stored log
  · intro id _
    simp [System.waiting, batch, workers]
  · intro id
    simp [System.delivering, workers]

end CancelSafe

theorem cancelled_mem_append (log : List Event) (event : Event) (id : Nat)
    (other : ∀ id, event ≠ .cancelled id) :
    .cancelled id ∈ log ++ [event] ↔ .cancelled id ∈ log := by
  have differs : ¬Event.cancelled id = event := fun same => other id same.symm
  simp [differs]

theorem claim_cancel_safe (system : System) (now : Micros) (budget : Int)
    (polls : system.scheduler = .polling) (safe : CancelSafe system) :
    CancelSafe { system with
      store := (system.store.claimDueQueueItems now budget).2
      scheduler := .dispatching (system.store.claimDueQueueItems now budget).1 } := by
  refine safe.frame _ (Or.inr (.claim now budget)) rfl ?_ ?_
  · intro id gone
    have absent : (system.store.claimDueQueueItems now budget).1.countP
        (fun item => item.id = id) = 0 := by
      rw [List.countP_eq_zero]
      intro item claimed same
      obtain ⟨row, found, _⟩ := Store.claimed_item_found now budget system.store item claimed
      have same : item.id = id := by simpa using same
      rw [same, gone.2] at found
      cases found
    simp [System.waiting, Scheduler.batch, absent, polls]
  · intro id
    rfl

/-- Handing a row to the deliverer: it was waiting, so it was never counted. -/
theorem call_cancel_safe (system : System) (index : Nat) (item : QueueItem)
    (found : system.workers[index]? = some ⟨item, .starting⟩) (safe : CancelSafe system) :
    CancelSafe ((system.setPhase index ⟨item, .starting⟩ .delivering).record
      (.deliverCalled item.id)) := by
  have counts := system.called_counts index item found
  have uncounted : .cancelled item.id ∉ system.log := by
    intro counted
    have idle := (safe.gone item.id counted).2.1
    have moved := (counts item.id).1
    simp only [hit, if_true] at moved
    omega
  refine ⟨?_, ?_, every_event_append cancelCheck _ _ safe.sound uncounted⟩
  · intro id counted
    have counted : .cancelled id ∈ system.log :=
      (cancelled_mem_append _ _ id (by simp)).mp counted
    obtain ⟨gone, idle, quiet⟩ := safe.gone id counted
    have other : item.id ≠ id := by
      intro same
      rw [same] at uncounted
      exact uncounted counted
    have moved := counts id
    simp only [hit, other, if_false, Nat.add_zero] at moved
    exact ⟨gone, moved.1.trans idle, moved.2.1.trans quiet⟩
  · intro id
    have moved := (counts id).2.1
    show runningCalls (system.log ++ [.deliverCalled item.id]) id =
      (system.setPhase index ⟨item, .starting⟩ .delivering).delivering id
    rw [running_calls_called, safe.calls id, moved]

theorem return_cancel_safe (system : System) (index : Nat) (item : QueueItem)
    (outcome : DeliveryOutcome) (found : system.workers[index]? = some ⟨item, .delivering⟩)
    (safe : CancelSafe system) :
    CancelSafe ((system.setPhase index ⟨item, .delivering⟩ (.settling outcome)).record
      (.deliverReturned item.id outcome.status)) := by
  have counts := system.returned_counts index item outcome found
  refine ⟨?_, ?_, every_event_append cancelCheck _ _ safe.sound trivial⟩
  · intro id counted
    have counted : .cancelled id ∈ system.log :=
      (cancelled_mem_append _ _ id (by simp)).mp counted
    obtain ⟨gone, idle, quiet⟩ := safe.gone id counted
    obtain ⟨waits, delivers, _⟩ := counts id
    exact ⟨gone, waits.trans idle, by
      show (system.setPhase index ⟨item, .delivering⟩ (.settling outcome)).delivering id = 0
      omega⟩
  · intro id
    have moved := (counts id).2.1
    show runningCalls (system.log ++ [.deliverReturned item.id outcome.status]) id =
      (system.setPhase index ⟨item, .delivering⟩ (.settling outcome)).delivering id
    rw [running_calls_returned, safe.calls id]
    omega

theorem note_cancel_safe (system : System) (event : Event) (note : event.isNote = true)
    (other : ∀ id, event ≠ .cancelled id) (safe : CancelSafe system) :
    CancelSafe (system.record event) where
  gone := by
    intro id counted
    exact safe.gone id ((cancelled_mem_append _ _ id other).mp counted)
  calls := by
    intro id
    show runningCalls (system.log ++ [event]) id = _
    rw [running_calls_note _ _ _ note]
    exact safe.calls id
  sound := by
    apply every_event_append cancelCheck _ _ safe.sound
    cases event with
    | delivered _ | exhausted _ => trivial
    | cancelled id => exact absurd rfl (other id)
    | deliverCalled _ | deliverReturned _ _ | restarted => simp [Event.isNote] at note

theorem settle_cancel_safe (options : Options) (system : System) (index : Nat) (now : Micros)
    (item : QueueItem) (outcome : DeliveryOutcome) (store : Store) (event : Option Event)
    (found : system.workers[index]? = some ⟨item, .settling outcome⟩)
    (settled : System.settlement options now item outcome system.store = some (.ok store, event))
    (stored : store = system.store ∨ Store.Transaction system.store store)
    (safe : CancelSafe system) :
    CancelSafe { system.setPhase index ⟨item, .settling outcome⟩ .finished with
      store, log := system.log ++ event.toList } := by
  have counts := system.settled_counts index item outcome found
  have unlogged : CancelSafe
      { system.setPhase index ⟨item, .settling outcome⟩ .finished with store } := by
    refine safe.frame _ stored rfl ?_ ?_
    · intro id _
      exact Nat.le_of_eq (counts id).1
    · intro id
      exact (counts id).2.1
  have noted (event : Event) (note : event.isNote = true) (other : ∀ id, event ≠ .cancelled id) :=
    note_cancel_safe _ event note other unlogged
  rcases System.settlement_cases options now item outcome system.store store event settled with
    ⟨_, rfl, _⟩ | ⟨rfl, _⟩ | ⟨rfl, _⟩ | ⟨_, handled⟩
  · exact noted _ rfl (by simp)
  · simpa [System.setPhase] using unlogged
  · simpa [System.setPhase] using unlogged
  · rcases System.handle_transient_cases options now item outcome system.store store event handled
      with ⟨_, rfl, _⟩ | ⟨rfl, _⟩
    · exact noted _ rfl (by simp)
    · simpa [System.setPhase] using unlogged

theorem delete_cancel_safe (system : System) (cancels : List CancelCall) (now : Micros) (id : Nat)
    (store : Store) (deleted : system.store.deleteQueueItem now id = .ok store)
    (unclaimed : system.waiting id = 0 ∧ system.delivering id = 0) (safe : CancelSafe system) :
    CancelSafe (System.record { system with store, cancels } (.cancelled id)) where
  gone := by
    intro other counted
    have counted : .cancelled other ∈ system.log ++ [.cancelled id] := counted
    rw [List.mem_append, List.mem_singleton, Event.cancelled.injEq] at counted
    rcases counted with earlier | rfl
    · obtain ⟨gone, idle, quiet⟩ := safe.gone other earlier
      exact ⟨Store.transaction_keeps_gone _ _ (.delete _ _ _ deleted) other gone, idle, quiet⟩
    · obtain ⟨row, present, rfl⟩ := Store.delete_ok now other system.store store deleted
      refine ⟨⟨system.store.queue.find_some_issued other row present, ?_⟩, unclaimed⟩
      exact (system.store.queue.find_delete other other).trans (if_pos rfl)
  calls := by
    intro other
    show runningCalls (system.log ++ [.cancelled id]) other = _
    rw [running_calls_note _ _ _ rfl]
    exact safe.calls other
  sound := by
    apply every_event_append cancelCheck _ _ safe.sound
    show runningCalls system.log id = 0
    rw [safe.calls id]
    exact unclaimed.2

theorem restart_cancel_safe (system : System) (safe : CancelSafe system) :
    CancelSafe { System.start system.store with log := system.log ++ [.restarted] } where
  gone := by
    intro id counted
    have counted : .cancelled id ∈ system.log :=
      (cancelled_mem_append _ _ id (by simp)).mp counted
    exact ⟨(safe.gone id counted).1, rfl, rfl⟩
  calls := by
    intro id
    show runningCalls (system.log ++ [.restarted]) id = 0
    exact running_calls_restarted system.log id
  sound := every_event_append cancelCheck _ _ safe.sound trivial

theorem step_cancel_safe (options : Options) (system : System) (action : Action) (next : System)
    (safe : CancelSafe system) (unclaimed : CancelsUnclaimed system action)
    (ran : (machine options).step system action = some next) : CancelSafe next := by
  have ran : system.step options action = some next := ran
  have stored := system.step_store options next action ran
  cases action with
  | listStale failed =>
    simp only [System.step] at ran
    split at ran
    case h_2 => cases ran
    case h_1 idle =>
      rw [← Option.some.inj ran]
      refine safe.untouched _ (Or.inl rfl) ?_ rfl rfl
      cases failed <;> simp [Scheduler.batch, idle]
  | sweepNext now failed =>
    rcases System.sweep_next_cases options now failed system next ran with
      ⟨listed, rfl⟩ | ⟨row, rows, listed, ⟨_, rfl⟩ | ⟨_, rfl⟩⟩
    all_goals
      apply safe.untouched _ stored <;> simp [Scheduler.batch, listed]
  | claim now failed =>
    rcases System.claim_cases options now failed system next ran with
      ⟨polls, rfl | ⟨budget, rfl⟩⟩
    · exact safe
    · exact claim_cancel_safe system now budget polls safe
  | dispatchNext now shutdown failed =>
    rcases System.dispatch_next_cases options now shutdown failed system next ran with
      ⟨empty, rfl⟩ | ⟨item, batch, claimed, ⟨_, rfl⟩ | ⟨_, rfl⟩ | rfl⟩
    · apply safe.untouched _ stored <;> simp [Scheduler.batch, empty]
    · apply safe.frame _ stored
      · simp
      · intro id _
        simp [System.waiting, Scheduler.batch]
      · intro id
        simp [System.delivering]
    · apply safe.frame _ stored
      · simp
      · intro id _
        simp [System.waiting, Scheduler.batch, claimed, List.countP_cons]
      · intro id
        simp [System.delivering]
    · apply safe.frame _ stored rfl
      · intro id _
        exact Nat.le_of_eq (system.spawned_counts item batch claimed id).1
      · intro id
        exact (system.spawned_counts item batch claimed id).2.1
  | prepare index preparation =>
    rcases System.prepare_cases index preparation system next ran with
      ⟨item, found, ⟨_, rfl⟩ | ⟨outcome, _, rfl⟩⟩
    · exact call_cancel_safe system index item found safe
    · apply safe.frame _ stored rfl
      · intro id _
        have moved := (system.abandoned_counts index item outcome found id).1
        omega
      · intro id
        exact (system.abandoned_counts index item outcome found id).2.1
  | deliverReturns index outcome error =>
    obtain ⟨item, found, rfl⟩ := System.deliver_returns_cases index outcome error system next ran
    exact return_cancel_safe system index item _ found safe
  | settle index now failed =>
    rcases System.settle_cases options index now failed system next ran with
      ⟨item, outcome, found, rfl | ⟨store, event, settled, rfl⟩⟩
    · apply safe.frame _ stored rfl
      · intro id _
        exact Nat.le_of_eq (system.settled_counts index item outcome found id).1
      · intro id
        exact (system.settled_counts index item outcome found id).2.1
    · exact settle_cancel_safe options system index now item outcome store event found settled
        stored safe
  | exit index =>
    obtain ⟨item, found, rfl⟩ := System.exit_cases index system next ran
    apply safe.frame _ stored rfl
    · intro id _
      exact Nat.le_of_eq (system.exited_counts index item found id).1
    · intro id
      exact (system.exited_counts index item found id).2.1
  | enqueue now item | retryQueueItem now id | releaseQueueItem now id | deleteQueueItem now id =>
    simp only [System.step, Option.some.injEq] at ran
    subst ran
    apply safe.untouched _ stored <;> simp
  | holdQueueItem id =>
    simp only [System.step, Option.some.injEq] at ran
    subst ran
    apply safe.untouched _ stored <;> simp
  | flushStart now | cancelStart envelope =>
    simp only [System.step, Option.some.injEq] at ran
    subst ran
    exact safe.untouched _ stored rfl rfl rfl
  | flushNext index failed =>
    obtain ⟨call, row, pending, flushes, _, _, rfl⟩ :=
      System.flush_next_cases index failed system next ran
    apply safe.untouched _ stored <;> simp
  | flushPage index =>
    obtain ⟨flushes, rfl⟩ := System.flush_page_cases index system next ran
    exact safe.untouched _ stored rfl rfl rfl
  | cancelNext index now failed =>
    rcases System.cancel_next_cases index now failed system next ran with
      ⟨cancels, rfl | ⟨id, store, target, deleted, rfl⟩⟩
    · exact safe.untouched _ stored rfl rfl rfl
    · exact delete_cancel_safe system cancels now id store deleted (unclaimed id target) safe
  | restart =>
    simp only [System.step, Option.some.injEq] at ran
    subst ran
    exact restart_cancel_safe system safe

/-- In every run in which `Cancel` deletes no claimed row, a counted row is
never handed to the deliverer afterwards and no call for it is open at the
count. -/
theorem cancel_sound_when_unclaimed (options : Options) (store : Store) (actions : List Action)
    (final : System)
    (ran : ((machine options).guarded CancelsUnclaimed).execute (System.start store) actions =
      some final) : CancelSound final.log := by
  have safe := (machine options).guarded_keeps CancelsUnclaimed CancelSafe
    (step_cancel_safe options) actions (System.start store) final (start_cancel_safe store) ran
  exact safe.sound

def oneSlot : Options where
  concurrency := 2
  perHostMax := 1
  pollInterval := 5
  schedule := some [10]

def queuedRow : QueueItem where
  mailFrom := ascii "a@x"
  rcptTo := ascii "b@y"
  envelopeID := ascii "e"

def claimBeforeDelete : List Action :=
  [.enqueue 10 queuedRow, .listStale false, .sweepNext 20 false, .cancelStart (ascii "e"),
    .claim 20 false, .dispatchNext 20 false false, .cancelNext 0 30 false, .prepare 0 .ready]

/-- The row is counted as cancelled and handed to the deliverer afterwards. -/
theorem cancelled_row_is_delivered :
    ((machine oneSlot).execute (System.start Store.empty) claimBeforeDelete).map System.log =
        some [.cancelled 1, .deliverCalled 1] ∧
      ¬CancelSound [.cancelled 1, .deliverCalled 1] := by
  refine ⟨by decide +kernel, ?_⟩
  intro sound
  exact sound [.cancelled 1] (.deliverCalled 1) [] rfl (by simp)

theorem cancel_sound_when_unclaimed_of_queued_row :
    ∃ final, ((machine oneSlot).guarded CancelsUnclaimed).execute (System.start Store.empty)
        [.enqueue 10 queuedRow, .cancelStart (ascii "e"), .cancelNext 0 30 false] = some final ∧
      final.log = [.cancelled 1] ∧ CancelSound final.log := by
  refine ⟨_, rfl, rfl, ?_⟩
  exact cancel_sound_when_unclaimed oneSlot Store.empty
    [.enqueue 10 queuedRow, .cancelStart (ascii "e"), .cancelNext 0 30 false] _ rfl

end Herold.Queue

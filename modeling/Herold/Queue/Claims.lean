import Herold.Queue.System

/-!
# Claims on rows

Between a claim and the store call that settles it, a row is held by the
scheduler's batch or by a worker. The counts below say how many hold it and
how far each has come; the log says how many calls of the deliverer are open.
-/

namespace Herold.Queue

open Herold.Go Herold.Store Herold.Machine

def Scheduler.batch : Scheduler → List QueueItem
  | dispatching batch => batch
  | _ => []

def Worker.isStarting (id : Nat) (worker : Worker) : Bool :=
  worker.phase = .starting && worker.item.id = id

def Worker.isDelivering (id : Nat) (worker : Worker) : Bool :=
  worker.phase = .delivering && worker.item.id = id

def Worker.isSettling (id : Nat) (worker : Worker) : Bool :=
  match worker.phase with
  | .settling _ => worker.item.id = id
  | _ => false

namespace System

def waiting (system : System) (id : Nat) : Nat :=
  system.scheduler.batch.countP (fun item => item.id = id) +
    system.workers.countP (Worker.isStarting id)

def delivering (system : System) (id : Nat) : Nat :=
  system.workers.countP (Worker.isDelivering id)

def settling (system : System) (id : Nat) : Nat :=
  system.workers.countP (Worker.isSettling id)

def claims (system : System) (id : Nat) : Nat :=
  system.waiting id + system.delivering id + system.settling id

section

variable (system : System) (failed : Bool) (result : Except StoreError Store)

@[simp]
theorem commit_scheduler : (system.commit failed result).scheduler = system.scheduler := by
  unfold commit
  split <;> rfl

@[simp]
theorem commit_workers : (system.commit failed result).workers = system.workers := by
  unfold commit
  split <;> rfl

@[simp]
theorem commit_log : (system.commit failed result).log = system.log := by
  unfold commit
  split <;> rfl

theorem commit_store : (system.commit failed result).store = system.store ∨
      result = .ok (system.commit failed result).store := by
  unfold commit
  split
  · exact Or.inr rfl
  · exact Or.inl rfl

end

end System

theorem count_set (workers : List Worker) (index : Nat) (old new : Worker)
    (found : workers[index]? = some old) (chosen : Worker → Bool) :
    (workers.set index new).countP chosen + (chosen old).toNat =
      workers.countP chosen + (chosen new).toNat := by
  induction workers generalizing index with
  | nil => simp at found
  | cons first workers ih =>
    cases index with
    | zero =>
      simp only [List.getElem?_cons_zero, Option.some.injEq] at found
      subst found
      simp only [List.set_cons_zero, List.countP_cons]
      cases chosen first <;> cases chosen new <;> simp
    | succ index =>
      simp only [List.getElem?_cons_succ] at found
      have rest := ih index found
      simp only [List.set_cons_succ, List.countP_cons]
      omega

theorem count_erase (workers : List Worker) (index : Nat) (old : Worker)
    (found : workers[index]? = some old) (chosen : Worker → Bool) :
    (workers.eraseIdx index).countP chosen + (chosen old).toNat = workers.countP chosen := by
  induction workers generalizing index with
  | nil => simp at found
  | cons first workers ih =>
    cases index with
    | zero =>
      simp only [List.getElem?_cons_zero, Option.some.injEq] at found
      subst found
      simp only [List.eraseIdx_cons_zero, List.countP_cons]
      cases chosen first <;> simp
    | succ index =>
      simp only [List.getElem?_cons_succ] at found
      have rest := ih index found
      simp only [List.eraseIdx_cons_succ, List.countP_cons]
      omega

def hit (item : QueueItem) (id : Nat) : Nat := if item.id = id then 1 else 0

theorem starting_hit (item : QueueItem) (phase : Phase) (id : Nat) :
    (Worker.isStarting id ⟨item, phase⟩).toNat = if phase = .starting then hit item id else 0 := by
  by_cases here : item.id = id <;> by_cases now : phase = .starting <;>
    simp [Worker.isStarting, hit, here, now]

theorem delivering_hit (item : QueueItem) (phase : Phase) (id : Nat) :
    (Worker.isDelivering id ⟨item, phase⟩).toNat =
      if phase = .delivering then hit item id else 0 := by
  by_cases here : item.id = id <;> by_cases now : phase = .delivering <;>
    simp [Worker.isDelivering, hit, here, now]

def Phase.isSettling : Phase → Bool
  | settling _ => true
  | _ => false

theorem settling_hit (item : QueueItem) (phase : Phase) (id : Nat) :
    (Worker.isSettling id ⟨item, phase⟩).toNat = if phase.isSettling then hit item id else 0 := by
  cases phase <;> by_cases here : item.id = id <;>
    simp [Worker.isSettling, Phase.isSettling, hit, here]

namespace System

section

variable (system : System) (index : Nat) (item : QueueItem) (outcome : DeliveryOutcome)

theorem set_phase_counts (old new : Phase)
    (found : system.workers[index]? = some ⟨item, old⟩) (id : Nat) :
    (system.setPhase index ⟨item, old⟩ new).waiting id + (if old = .starting then hit item id else 0) =
        system.waiting id + (if new = .starting then hit item id else 0) ∧
      (system.setPhase index ⟨item, old⟩ new).delivering id +
          (if old = .delivering then hit item id else 0) =
        system.delivering id + (if new = .delivering then hit item id else 0) ∧
      (system.setPhase index ⟨item, old⟩ new).settling id +
          (if old.isSettling then hit item id else 0) =
        system.settling id + (if new.isSettling then hit item id else 0) := by
  have starts := count_set system.workers index ⟨item, old⟩ ⟨item, new⟩ found (Worker.isStarting id)
  have delivers :=
    count_set system.workers index ⟨item, old⟩ ⟨item, new⟩ found (Worker.isDelivering id)
  have settles := count_set system.workers index ⟨item, old⟩ ⟨item, new⟩ found (Worker.isSettling id)
  rw [starting_hit, starting_hit] at starts
  rw [delivering_hit, delivering_hit] at delivers
  rw [settling_hit, settling_hit] at settles
  simp only [waiting, delivering, settling, setPhase]
  omega

theorem called_counts (found : system.workers[index]? = some ⟨item, .starting⟩) (id : Nat) :
    (system.setPhase index ⟨item, .starting⟩ .delivering).waiting id + hit item id =
        system.waiting id ∧
      (system.setPhase index ⟨item, .starting⟩ .delivering).delivering id =
        system.delivering id + hit item id ∧
      (system.setPhase index ⟨item, .starting⟩ .delivering).settling id = system.settling id := by
  simpa [Phase.isSettling] using set_phase_counts system index item .starting .delivering found id

theorem abandoned_counts (found : system.workers[index]? = some ⟨item, .starting⟩) (id : Nat) :
    (system.setPhase index ⟨item, .starting⟩ (.settling outcome)).waiting id + hit item id =
        system.waiting id ∧
      (system.setPhase index ⟨item, .starting⟩ (.settling outcome)).delivering id =
        system.delivering id ∧
      (system.setPhase index ⟨item, .starting⟩ (.settling outcome)).settling id =
        system.settling id + hit item id := by
  simpa [Phase.isSettling] using
    set_phase_counts system index item .starting (.settling outcome) found id

theorem returned_counts (found : system.workers[index]? = some ⟨item, .delivering⟩) (id : Nat) :
    (system.setPhase index ⟨item, .delivering⟩ (.settling outcome)).waiting id =
        system.waiting id ∧
      (system.setPhase index ⟨item, .delivering⟩ (.settling outcome)).delivering id +
        hit item id = system.delivering id ∧
      (system.setPhase index ⟨item, .delivering⟩ (.settling outcome)).settling id =
        system.settling id + hit item id := by
  simpa [Phase.isSettling] using
    set_phase_counts system index item .delivering (.settling outcome) found id

theorem settled_counts (found : system.workers[index]? = some ⟨item, .settling outcome⟩)
    (id : Nat) :
    (system.setPhase index ⟨item, .settling outcome⟩ .finished).waiting id = system.waiting id ∧
      (system.setPhase index ⟨item, .settling outcome⟩ .finished).delivering id =
        system.delivering id ∧
      (system.setPhase index ⟨item, .settling outcome⟩ .finished).settling id + hit item id =
        system.settling id := by
  simpa [Phase.isSettling] using
    set_phase_counts system index item (.settling outcome) .finished found id

theorem exited_counts (found : system.workers[index]? = some ⟨item, .finished⟩) (id : Nat) :
    let next : System := { system with workers := system.workers.eraseIdx index }
    next.waiting id = system.waiting id ∧ next.delivering id = system.delivering id ∧
      next.settling id = system.settling id := by
  have starts := count_erase system.workers index ⟨item, .finished⟩ found (Worker.isStarting id)
  have delivers := count_erase system.workers index ⟨item, .finished⟩ found (Worker.isDelivering id)
  have settles := count_erase system.workers index ⟨item, .finished⟩ found (Worker.isSettling id)
  simp only [starting_hit, delivering_hit, settling_hit, Phase.isSettling, reduceCtorEq,
    if_false, Bool.false_eq_true, Nat.add_zero] at starts delivers settles
  simp only [waiting, delivering, settling, starts, delivers, settles, and_self]

theorem spawned_counts (batch : List QueueItem)
    (claimed : system.scheduler = .dispatching (item :: batch)) (id : Nat) :
    let next : System :=
      { system with
        scheduler := .dispatching batch
        workers := system.workers ++ [⟨item, .starting⟩] }
    next.waiting id = system.waiting id ∧ next.delivering id = system.delivering id ∧
      next.settling id = system.settling id := by
  by_cases here : item.id = id
  · simp [waiting, delivering, settling, claimed, Scheduler.batch, Worker.isStarting,
      Worker.isDelivering, Worker.isSettling, here]
    omega
  · simp [waiting, delivering, settling, claimed, Scheduler.batch, Worker.isStarting,
      Worker.isDelivering, Worker.isSettling, here]

theorem claims_congr (system next : System) (batch : next.scheduler.batch = system.scheduler.batch)
    (workers : next.workers = system.workers) (id : Nat) :
    next.claims id = system.claims id ∧ next.delivering id = system.delivering id := by
  simp [claims, waiting, delivering, settling, batch, workers]

theorem batch_claimed (member : item ∈ system.scheduler.batch) : 0 < system.claims item.id := by
  have counted : 0 < system.scheduler.batch.countP (fun other => other.id = item.id) :=
    List.countP_pos_iff.mpr ⟨item, member, by simp⟩
  simp only [claims, waiting]
  omega

theorem worker_claimed (worker : Worker) (member : worker ∈ system.workers)
    (busy : worker.phase ≠ .finished) : 0 < system.claims worker.item.id := by
  have counted (chosen : Worker → Bool) (hits : chosen worker = true) :
      0 < system.workers.countP chosen := List.countP_pos_iff.mpr ⟨worker, member, hits⟩
  simp only [claims, waiting, delivering, settling]
  cases phase : worker.phase with
  | starting =>
    have one := counted (Worker.isStarting worker.item.id) (by simp [Worker.isStarting, phase])
    omega
  | delivering =>
    have one := counted (Worker.isDelivering worker.item.id) (by simp [Worker.isDelivering, phase])
    omega
  | settling outcome =>
    have one := counted (Worker.isSettling worker.item.id) (by simp [Worker.isSettling, phase])
    omega
  | finished => exact absurd phase busy

theorem sole_claim (phase : Phase)
    (found : system.workers[index]? = some ⟨item, phase⟩) (busy : phase ≠ .finished)
    (single : system.claims item.id ≤ 1) :
    (system.setPhase index ⟨item, phase⟩ .finished).claims item.id = 0 := by
  have counts := set_phase_counts system index item phase .finished found item.id
  simp only [claims] at single ⊢
  cases phase with
  | starting | delivering | settling _ =>
    simp [hit, Phase.isSettling] at counts
    omega
  | finished => exact absurd rfl busy

theorem set_phase_member (changed : Worker) (phase : Phase)
    (worker : Worker) (member : worker ∈ (system.setPhase index changed phase).workers) :
    worker = { changed with phase } ∨
      worker ∈ (system.setPhase index changed .finished).workers := by
  obtain ⟨position, found⟩ := List.mem_iff_getElem?.mp member
  simp only [setPhase, List.getElem?_set] at found
  split at found
  case isTrue here =>
    split at found
    · exact Or.inl (Option.some.inj found).symm
    · cases found
  case isFalse elsewhere =>
    refine Or.inr (List.mem_iff_getElem?.mpr ⟨position, ?_⟩)
    simp only [setPhase, List.getElem?_set, elsewhere, if_false]
    exact found

theorem other_holder (phase new : Phase)
    (found : system.workers[index]? = some ⟨item, phase⟩) (busy : phase ≠ .finished)
    (single : system.claims item.id ≤ 1) (worker : Worker)
    (member : worker ∈ (system.setPhase index ⟨item, phase⟩ new).workers)
    (holds : worker.phase ≠ .finished) :
    worker = ⟨item, new⟩ ∨ worker ∈ system.workers ∧ worker.item.id ≠ item.id := by
  rcases system.set_phase_member index _ new worker member with same | elsewhere
  · exact Or.inl same
  · right
    constructor
    · rcases List.mem_or_eq_of_mem_set elsewhere with old | rfl
      · exact old
      · exact absurd rfl holds
    · intro same
      have free := system.sole_claim index item phase found busy single
      have claimed := worker_claimed _ worker elsewhere holds
      rw [same] at claimed
      omega

theorem other_batch (phase : Phase)
    (found : system.workers[index]? = some ⟨item, phase⟩) (busy : phase ≠ .finished)
    (single : system.claims item.id ≤ 1) (other : QueueItem)
    (member : other ∈ system.scheduler.batch) : other.id ≠ item.id := by
  intro same
  have free := system.sole_claim index item phase found busy single
  have claimed := batch_claimed (system.setPhase index ⟨item, phase⟩ .finished) other member
  rw [same] at claimed
  omega

end

theorem step_store (options : Options) (system next : System) (action : Action)
    (ran : system.step options action = some next) :
    next.store = system.store ∨ Store.Transaction system.store next.store := by
  have committed (base : System) (failed : Bool) (result : Except StoreError Store)
      (same : base.store = system.store)
      (transaction : ∀ store, result = .ok store → Store.Transaction system.store store) :
      (base.commit failed result).store = system.store ∨
        Store.Transaction system.store (base.commit failed result).store := by
    rcases commit_store base failed result with unchanged | changed
    · exact Or.inl (unchanged.trans same)
    · exact Or.inr (transaction _ changed)
  cases action with
  | listStale failed =>
    simp only [step] at ran
    split at ran
    · exact Or.inl (by rw [← Option.some.inj ran])
    · cases ran
  | sweepNext now failed =>
    rcases sweep_next_cases options now failed system next ran with
      ⟨_, rfl⟩ | ⟨row, rows, _, ⟨_, rfl⟩ | ⟨_, rfl⟩⟩
    · exact Or.inl rfl
    · exact Or.inl rfl
    · exact committed _ _ _ rfl fun store updated => .update _ _ store updated
  | claim now failed =>
    rcases claim_cases options now failed system next ran with ⟨_, rfl | ⟨budget, rfl⟩⟩
    · exact Or.inl rfl
    · exact Or.inr (.claim now budget)
  | dispatchNext now shutdown failed =>
    rcases dispatch_next_cases options now shutdown failed system next ran with
      ⟨_, rfl⟩ | ⟨item, batch, _, ⟨_, rfl⟩ | ⟨_, rfl⟩ | rfl⟩
    · exact Or.inl rfl
    · exact committed _ _ _ rfl fun store updated => .update _ _ store updated
    · exact committed _ _ _ rfl fun store updated => .update _ _ store updated
    · exact Or.inl rfl
  | prepare index preparation =>
    rcases prepare_cases index preparation system next ran with
      ⟨item, _, ⟨_, rfl⟩ | ⟨outcome, _, rfl⟩⟩
    · exact Or.inl rfl
    · exact Or.inl rfl
  | deliverReturns index outcome error =>
    obtain ⟨item, _, rfl⟩ := deliver_returns_cases index outcome error system next ran
    exact Or.inl rfl
  | settle index now failed =>
    rcases settle_cases options index now failed system next ran with
      ⟨item, outcome, _, rfl | ⟨store, event, settled, rfl⟩⟩
    · exact Or.inl rfl
    · right
      rcases settlement_cases options now item outcome system.store store event settled with
        ⟨_, _, completed⟩ | ⟨_, _, completed⟩ | ⟨_, held⟩ | ⟨_, handled⟩
      · exact .complete _ _ _ _ store completed
      · exact .complete _ _ _ _ store completed
      · exact .update _ _ store held
      · rcases handle_transient_cases options now item outcome system.store store event handled
          with ⟨_, _, _, completed⟩ | ⟨_, _, _, _, updated⟩
        · exact .complete _ _ _ _ store completed
        · exact .update _ _ store updated
  | exit index =>
    obtain ⟨item, _, rfl⟩ := exit_cases index system next ran
    exact Or.inl rfl
  | enqueue now item =>
    simp only [step, Option.some.injEq] at ran
    subst ran
    refine committed _ _ _ rfl ?_
    intro store stored
    cases enqueued : system.store.enqueueMessage now { item with state := .queued, attempts := 0 } with
    | error _ => simp [enqueued, Except.map] at stored
    | ok pair =>
      simp only [enqueued, Except.map, Except.ok.injEq] at stored
      exact .enqueue now _ pair.1 store (by rw [enqueued, ← stored])
  | retryQueueItem now id =>
    simp only [step, Option.some.injEq] at ran
    subst ran
    exact committed _ _ _ rfl fun store updated => .update _ _ store updated
  | holdQueueItem id =>
    simp only [step, Option.some.injEq] at ran
    subst ran
    exact committed _ _ _ rfl fun store updated => .update _ _ store updated
  | releaseQueueItem now id =>
    simp only [step, Option.some.injEq] at ran
    subst ran
    exact committed _ _ _ rfl fun store updated => .update _ _ store updated
  | deleteQueueItem now id =>
    simp only [step, Option.some.injEq] at ran
    subst ran
    exact committed _ _ _ rfl fun store deleted => .delete _ _ store deleted
  | flushStart now =>
    simp only [step, Option.some.injEq] at ran
    exact Or.inl (by rw [← ran])
  | flushNext index failed =>
    obtain ⟨call, row, pending, flushes, _, _, rfl⟩ :=
      flush_next_cases index failed system next ran
    exact committed _ _ _ rfl fun store updated => .update _ _ store updated
  | flushPage index =>
    obtain ⟨flushes, rfl⟩ := flush_page_cases index system next ran
    exact Or.inl rfl
  | cancelStart envelope =>
    simp only [step, Option.some.injEq] at ran
    exact Or.inl (by rw [← ran])
  | cancelNext index now failed =>
    rcases cancel_next_cases index now failed system next ran with
      ⟨cancels, rfl | ⟨id, store, _, deleted, rfl⟩⟩
    · exact Or.inl rfl
    · exact Or.inr (.delete _ _ store deleted)
  | restart =>
    simp only [step, Option.some.injEq] at ran
    exact Or.inl (by rw [← ran]; rfl)

theorem step_next_id (options : Options) (system next : System) (action : Action)
    (ran : system.step options action = some next) :
    system.store.queue.nextID ≤ next.store.queue.nextID := by
  rcases step_store options system next action ran with same | transaction
  · rw [same]
  · exact Store.transaction_next_id system.store next.store transaction

end System

/-- The number of calls for the row the deliverer has not answered yet. A
restart ends the calls of the process. -/
def runningCalls (log : List Event) (id : Nat) : Nat :=
  log.foldl (fun running event => match event with
    | .deliverCalled other => if other = id then running + 1 else running
    | .deliverReturned other _ => if other = id then running - 1 else running
    | .restarted => 0
    | _ => running) 0

theorem running_calls_called (log : List Event) (item : QueueItem) (id : Nat) :
    runningCalls (log ++ [.deliverCalled item.id]) id = runningCalls log id + hit item id := by
  simp only [runningCalls, List.foldl_append, List.foldl_cons, List.foldl_nil, hit]
  split <;> rfl

theorem running_calls_returned (log : List Event) (item : QueueItem) (status : DeliveryStatus)
    (id : Nat) :
    runningCalls (log ++ [.deliverReturned item.id status]) id =
      runningCalls log id - hit item id := by
  simp only [runningCalls, List.foldl_append, List.foldl_cons, List.foldl_nil, hit]
  split <;> rfl

theorem running_calls_restarted (log : List Event) (id : Nat) :
    runningCalls (log ++ [.restarted]) id = 0 := by
  simp only [runningCalls, List.foldl_append, List.foldl_cons, List.foldl_nil]

def Event.isNote : Event → Bool
  | delivered _ | exhausted _ | cancelled _ => true
  | _ => false

theorem running_calls_note (log : List Event) (event : Event) (id : Nat)
    (note : event.isNote = true) : runningCalls (log ++ [event]) id = runningCalls log id := by
  rw [runningCalls, runningCalls, List.foldl_append]
  cases event <;> simp [Event.isNote] at note <;> rfl

end Herold.Queue

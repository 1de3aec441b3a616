import Herold.Queue.Claims

/-!
# No double delivery

Every transition writes the state column by identifier, so that a row is
handed out once at a time is a property of the order of the calls: the
scheduler and its workers keep to it, and the operator's calls do as long as
they leave claimed and delivered rows alone.
-/

namespace Herold.Queue

open Herold.Go Herold.Store Herold.Machine

/-- A row is handed out while no call for it is open and no success for it was
recorded before. -/
def deliveryCheck (before : List Event) : Event → Prop
  | .deliverCalled id => runningCalls before id = 0 ∧ .delivered id ∉ before
  | _ => True

def NoDoubleDelivery (log : List Event) : Prop := EveryEvent deliveryCheck log

def System.revivedRow (system : System) : Action → Option Nat
  | .retryQueueItem _ id | .releaseQueueItem _ id => some id
  | .flushNext index _ =>
    match system.flushes[index]? with
    | some ⟨_, row :: _, _, _⟩ => some row.id
    | _ => none
  | _ => none

def heldRow : Action → Option Nat
  | .holdQueueItem id => some id
  | _ => none

def isDone (store : Store) (id : Nat) : Bool :=
  (store.queue.find? id).any fun row => row.state = .done

/-- Retry, release and flush write to no row that the scheduler or a worker
holds, and none of the operator's writes touches a delivered row. -/
def SparesClaimedRows (system : System) (action : Action) : Prop :=
  (∀ id ∈ system.revivedRow action, system.claims id = 0 ∧ isDone system.store id = false) ∧
    ∀ id ∈ heldRow action, isDone system.store id = false

instance (system : System) (action : Action) : Decidable (SparesClaimedRows system action) :=
  inferInstanceAs (Decidable ((∀ id ∈ system.revivedRow action,
    system.claims id = 0 ∧ isDone system.store id = false) ∧
      ∀ id ∈ heldRow action, isDone system.store id = false))

structure DeliverySafe (system : System) : Prop where
  exclusive : ∀ id, system.claims id ≤ 1
  issued : ∀ id, 0 < system.claims id → id < system.store.queue.nextID
  unclaimable : ∀ id row, 0 < system.claims id → system.store.queue.find? id = some row →
    row.state.isClaimable = false
  finished : ∀ id, .delivered id ∈ system.log → id < system.store.queue.nextID ∧
    system.claims id = 0 ∧ ∀ row, system.store.queue.find? id = some row → row.state = .done
  calls : ∀ id, runningCalls system.log id = system.delivering id
  starting : system.scheduler = .idle → system.workers = []
  recovering : ∀ rows, system.scheduler = .recovering rows →
    system.workers = [] ∧ ∀ row ∈ rows, .delivered row.id ∉ system.log
  sound : NoDoubleDelivery system.log

theorem start_delivery_safe (store : Store) : DeliverySafe (System.start store) where
  exclusive := fun _ => Nat.zero_le 1
  issued := fun _ claimed => absurd claimed (Nat.lt_irrefl 0)
  unclaimable := fun _ _ claimed _ => absurd claimed (Nat.lt_irrefl 0)
  finished := by simp [System.start]
  calls := fun _ => rfl
  starting := fun _ => rfl
  recovering := by simp [System.start]
  sound := every_event_nil deliveryCheck

/-- What every row must be after a step, given the claims and the log then. -/
def RowsFit (next : System) : Prop :=
  ∀ id row, next.store.queue.find? id = some row →
    (0 < next.claims id → row.state.isClaimable = false) ∧
      (.delivered id ∈ next.log → row.state = .done)

namespace DeliverySafe

variable {system : System} (next : System)

theorem rows_fit (safe : DeliverySafe system) : RowsFit system := by
  intro id row found
  constructor
  · intro claimed
    exact safe.unclaimable id row claimed found
  · intro delivered
    exact (safe.finished id delivered).2.2 row found

theorem undelivered (safe : DeliverySafe system) (id : Nat) (claimed : 0 < system.claims id) :
    .delivered id ∉ system.log := by
  intro delivered
  have free := (safe.finished id delivered).2.1
  omega

theorem frame (safe : DeliverySafe system) (log : next.log = system.log)
    (claims : ∀ id, next.claims id ≤ system.claims id)
    (delivers : ∀ id, next.delivering id = system.delivering id)
    (nextID : system.store.queue.nextID ≤ next.store.queue.nextID) (rows : RowsFit next)
    (starting : next.scheduler = .idle → next.workers = [])
    (recovering : ∀ rows, next.scheduler = .recovering rows →
      next.workers = [] ∧ ∀ row ∈ rows, .delivered row.id ∉ system.log) : DeliverySafe next where
  exclusive := fun id => Nat.le_trans (claims id) (safe.exclusive id)
  issued := by
    intro id claimed
    exact Nat.lt_of_lt_of_le (safe.issued id (Nat.lt_of_lt_of_le claimed (claims id))) nextID
  unclaimable := fun id row claimed found => (rows id row found).1 claimed
  finished := by
    intro id delivered
    rw [log] at delivered
    obtain ⟨given, free, _⟩ := safe.finished id delivered
    refine ⟨Nat.lt_of_lt_of_le given nextID, Nat.le_zero.mp (free ▸ claims id), ?_⟩
    intro row found
    exact (rows id row found).2 (log ▸ delivered)
  calls := by
    intro id
    rw [log, delivers]
    exact safe.calls id
  starting := starting
  recovering := by
    intro listed same
    rw [log]
    exact recovering listed same
  sound := log ▸ safe.sound

theorem frame_same_store (safe : DeliverySafe system) (log : next.log = system.log)
    (stored : next.store = system.store)
    (claims : ∀ id, next.claims id ≤ system.claims id)
    (delivers : ∀ id, next.delivering id = system.delivering id)
    (starting : next.scheduler = .idle → next.workers = [])
    (recovering : ∀ rows, next.scheduler = .recovering rows →
      next.workers = [] ∧ ∀ row ∈ rows, .delivered row.id ∉ system.log) : DeliverySafe next := by
  refine safe.frame next log claims delivers (by rw [stored]) ?_ starting recovering
  intro id row found
  rw [stored] at found
  obtain ⟨claimed, delivered⟩ := safe.rows_fit id row found
  rw [log]
  exact ⟨fun more => claimed (Nat.lt_of_lt_of_le more (claims id)), delivered⟩

/-- A step beside the scheduler that leaves each row as it was, drops it or adds
a row under a new identifier. -/
theorem beside (safe : DeliverySafe system) (scheduler : next.scheduler = system.scheduler)
    (workers : next.workers = system.workers) (log : next.log = system.log)
    (nextID : system.store.queue.nextID ≤ next.store.queue.nextID)
    (rows : ∀ id row, next.store.queue.find? id = some row →
      system.store.queue.find? id = some row ∨ system.store.queue.nextID ≤ id) :
    DeliverySafe next := by
  have counts := System.claims_congr system next (by rw [scheduler]) workers
  have claims (id : Nat) : next.claims id ≤ system.claims id := Nat.le_of_eq (counts id).1
  refine safe.frame next log claims (fun id => (counts id).2) nextID ?_ ?_ ?_
  · intro id row found
    rw [log, (counts id).1]
    rcases rows id row found with old | new
    · exact safe.rows_fit id row old
    · constructor
      · intro claimed
        exact absurd (safe.issued id claimed) (Nat.not_lt.mpr new)
      · intro delivered
        exact absurd (safe.finished id delivered).1 (Nat.not_lt.mpr new)
  · intro idle
    rw [workers]
    exact safe.starting (scheduler ▸ idle)
  · intro listed same
    rw [workers]
    exact safe.recovering listed (scheduler ▸ same)

end DeliverySafe

/-- Rows that fit still do after an update of one row that is free, or that the
update does not make due. -/
theorem rows_fit_update (system next : System) (target : Nat) (change : RowUpdate)
    (safe : DeliverySafe system) (log : next.log = system.log)
    (claims : ∀ id, next.claims id ≤ system.claims id)
    (stored : next.store = system.store ∨
      next.store.queue = system.store.queue.update change fun row => row.id = target)
    (spared : next.claims target = 0 ∨ ∀ row, (change.apply row).state.isClaimable = false)
    (undelivered : .delivered target ∉ system.log) : RowsFit next := by
  intro id row found
  rw [log]
  have unchanged (old : system.store.queue.find? id = some row) :
      (0 < next.claims id → row.state.isClaimable = false) ∧
        (.delivered id ∈ system.log → row.state = .done) := by
    obtain ⟨claimed, delivered⟩ := safe.rows_fit id row old
    exact ⟨fun more => claimed (Nat.lt_of_lt_of_le more (claims id)), delivered⟩
  rcases stored with same | updated
  · rw [same] at found
    exact unchanged found
  · rw [updated, QueueTable.find_update_id] at found
    split at found
    case isFalse => exact unchanged found
    case isTrue here =>
      obtain ⟨old, _, rfl⟩ := Option.map_eq_some_iff.mp found
      subst here
      constructor
      · intro claimed
        rcases spared with free | never
        · omega
        · exact never old
      · intro delivered
        exact absurd delivered undelivered

/-- An operator's write by identifier to a row that is free or that it does not
make due, and that was not delivered. -/
theorem operator_delivery_safe (system next : System) (target : Nat) (change : RowUpdate)
    (safe : DeliverySafe system) (scheduler : next.scheduler = system.scheduler)
    (workers : next.workers = system.workers) (log : next.log = system.log)
    (nextID : system.store.queue.nextID ≤ next.store.queue.nextID)
    (stored : next.store = system.store ∨
      system.store.updateQueueItem target change = .ok next.store)
    (spared : system.claims target = 0 ∨ ∀ row, (change.apply row).state.isClaimable = false)
    (notDone : isDone system.store target = false) : DeliverySafe next := by
  have counts := System.claims_congr system next (by rw [scheduler]) workers
  have claims (id : Nat) : next.claims id ≤ system.claims id := Nat.le_of_eq (counts id).1
  have starting (idle : next.scheduler = .idle) : next.workers = [] := by
    rw [workers]
    exact safe.starting (scheduler ▸ idle)
  have recovering (rows : List QueueItem) (listed : next.scheduler = .recovering rows) :
      next.workers = [] ∧ ∀ row ∈ rows, .delivered row.id ∉ system.log := by
    rw [workers]
    exact safe.recovering rows (scheduler ▸ listed)
  by_cases delivered : .delivered target ∈ system.log
  · -- a delivered row is done or gone, so the write cannot have found it
    have untouched : next.store = system.store := by
      rcases stored with same | updated
      · exact same
      · obtain ⟨row, found, _⟩ := Store.update_ok target change system.store next.store updated
        have done := (safe.finished target delivered).2.2 row found
        simp [isDone, found, done] at notDone
    exact safe.frame_same_store next log untouched claims (fun id => (counts id).2) starting
      recovering
  · refine safe.frame next log claims (fun id => (counts id).2) nextID ?_ starting recovering
    refine rows_fit_update system next target change safe log claims
      (stored.imp_right Store.update_queue) ?_ delivered
    rcases spared with free | never
    · exact Or.inl ((counts target).1.trans free)
    · exact Or.inr never

theorem rollback_delivery_safe (system next : System) (item : QueueItem)
    (batch rest : List QueueItem) (nextAttempt : Micros) (errMsg : Bytes)
    (safe : DeliverySafe system) (claimed : system.scheduler = .dispatching (item :: batch))
    (scheduler : next.scheduler = .polling ∧ rest = [] ∨
      next.scheduler = .dispatching batch ∧ rest = batch)
    (workers : next.workers = system.workers) (log : next.log = system.log)
    (nextID : system.store.queue.nextID ≤ next.store.queue.nextID)
    (stored : next.store = system.store ∨
      system.store.rescheduleQueueItem item.id nextAttempt errMsg = .ok next.store) :
    DeliverySafe next := by
  have left : next.scheduler.batch = rest := by
    rcases scheduler with ⟨polls, rfl⟩ | ⟨more, rfl⟩
    · rw [polls]
      rfl
    · rw [more]
      rfl
  have held : system.scheduler.batch = item :: batch := by
    rw [claimed]
    rfl
  have shorter (id : Nat) : rest.countP (fun other => other.id = id) ≤
      batch.countP (fun other => other.id = id) := by
    rcases scheduler with ⟨_, rfl⟩ | ⟨_, rfl⟩
    · simp
    · exact Nat.le_refl _
  have claims (id : Nat) : next.claims id + hit item id ≤ system.claims id := by
    have fewer := shorter id
    simp only [System.claims, System.waiting, System.delivering, System.settling, left, held,
      workers, List.countP_cons, hit, decide_eq_true_eq]
    omega
  have fewerClaims (id : Nat) : next.claims id ≤ system.claims id :=
    Nat.le_trans (Nat.le_add_right _ _) (claims id)
  have own := claims item.id
  have single := safe.exclusive item.id
  simp only [hit, if_true] at own
  have delivers (id : Nat) : next.delivering id = system.delivering id := by
    simp [System.delivering, workers]
  refine safe.frame next log fewerClaims delivers nextID ?_ ?_ ?_
  · refine rows_fit_update system next item.id _ safe log fewerClaims
      (stored.imp_right Store.update_queue) (Or.inl ?_) (safe.undelivered item.id ?_)
    · omega
    · omega
  · intro idle
    rcases scheduler with ⟨polls, _⟩ | ⟨more, _⟩
    · rw [polls] at idle
      cases idle
    · rw [more] at idle
      cases idle
  · intro rows listed
    rcases scheduler with ⟨polls, _⟩ | ⟨more, _⟩
    · rw [polls] at listed
      cases listed
    · rw [more] at listed
      cases listed

section

variable (system : System) (now : Micros) (index : Nat) (item : QueueItem) (id : Nat)

theorem polled_claims (now : Micros) (budget : Int)
    (polls : system.scheduler = .polling) (id : Nat) :
    System.claims { system with
        store := (system.store.claimDueQueueItems now budget).2
        scheduler := .dispatching (system.store.claimDueQueueItems now budget).1 } id =
      system.claims id +
        if id ∈ (system.store.claimDueQueueItems now budget).1.map QueueItem.id then 1 else 0 := by
  have once := Store.claimed_once now budget system.store id
  have counted : (system.store.claimDueQueueItems now budget).1.countP (fun item => item.id = id) =
      if id ∈ (system.store.claimDueQueueItems now budget).1.map QueueItem.id then 1 else 0 := by
    split
    case isTrue member =>
      obtain ⟨item, claimed, same⟩ := List.mem_map.mp member
      have some : 0 < (system.store.claimDueQueueItems now budget).1.countP
          (fun item => item.id = id) :=
        List.countP_pos_iff.mpr ⟨item, claimed, decide_eq_true same⟩
      omega
    case isFalse absent =>
      rw [List.countP_eq_zero]
      intro item claimed same
      exact absent (List.mem_map.mpr ⟨item, claimed, of_decide_eq_true same⟩)
  simp only [System.claims, System.waiting, System.delivering, System.settling, polls,
    Scheduler.batch, List.countP_nil, counted]
  omega

/-- A poll claims only rows that exist, that nobody holds and that were not
delivered. -/
theorem polled_row_free (budget : Int) (id : Nat) (safe : DeliverySafe system)
    (member : id ∈ (system.store.claimDueQueueItems now budget).1.map QueueItem.id) :
    id < system.store.queue.nextID ∧ system.claims id = 0 ∧ .delivered id ∉ system.log := by
  obtain ⟨item, claimed, rfl⟩ := List.mem_map.mp member
  obtain ⟨row, found, due, _⟩ := Store.claimed_item_found now budget system.store item claimed
  simp only [Store.isDue, Bool.and_eq_true] at due
  refine ⟨system.store.queue.find_some_issued _ row found, ?_, ?_⟩
  · by_contra held
    have refused := safe.unclaimable _ row (Nat.pos_of_ne_zero held) found
    rw [due.1] at refused
    cases refused
  · intro delivered
    rw [(safe.finished _ delivered).2.2 row found] at due
    cases due.1

theorem claim_delivery_safe (now : Micros) (budget : Int)
    (polls : system.scheduler = .polling) (safe : DeliverySafe system) :
    DeliverySafe { system with
      store := (system.store.claimDueQueueItems now budget).2
      scheduler := .dispatching (system.store.claimDueQueueItems now budget).1 } where
  exclusive := by
    intro id
    rw [polled_claims system now budget polls id]
    have before := safe.exclusive id
    split
    case isTrue member =>
      have free := (polled_row_free system now budget id safe member).2.1
      omega
    case isFalse => exact before
  issued := by
    intro id claimed
    rw [polled_claims system now budget polls id] at claimed
    split at claimed
    case isTrue member => exact (polled_row_free system now budget id safe member).1
    case isFalse => exact safe.issued id claimed
  unclaimable := by
    intro id row claimed found
    rw [polled_claims system now budget polls id] at claimed
    rw [Store.find_claim] at found
    obtain ⟨old, present, rfl⟩ := Option.map_eq_some_iff.mp found
    by_cases member : id ∈ (system.store.claimDueQueueItems now budget).1.map QueueItem.id
    · rw [if_pos member]
      rfl
    · rw [if_neg member] at claimed ⊢
      exact safe.unclaimable id old claimed present
  finished := by
    intro id delivered
    obtain ⟨given, unheld, done⟩ := safe.finished id delivered
    have member : id ∉ (system.store.claimDueQueueItems now budget).1.map QueueItem.id :=
      fun claimed => (polled_row_free system now budget id safe claimed).2.2 delivered
    refine ⟨given, ?_, ?_⟩
    · rw [polled_claims system now budget polls id, unheld, if_neg member]
    · intro row found
      rw [Store.find_claim] at found
      obtain ⟨old, present, rfl⟩ := Option.map_eq_some_iff.mp found
      rw [if_neg member]
      exact done old present
  calls := safe.calls
  starting := by
    intro idle
    cases idle
  recovering := by
    intro rows listed
    cases listed
  sound := safe.sound

theorem delivered_mem_append (log : List Event) (event : Event) (id : Nat)
    (other : ∀ id, event ≠ .delivered id) :
    .delivered id ∈ log ++ [event] ↔ .delivered id ∈ log := by
  have differs : ¬Event.delivered id = event := fun same => other id same.symm
  simp [differs]

theorem worker_running (safe : DeliverySafe system) (index : Nat)
    (worker : Worker) (found : system.workers[index]? = some worker) :
    system.scheduler ≠ .idle ∧ ∀ rows, system.scheduler ≠ .recovering rows := by
  constructor
  · intro idle
    rw [safe.starting idle] at found
    simp at found
  · intro rows listed
    rw [(safe.recovering rows listed).1] at found
    simp at found

theorem phase_delivery_safe (old new : Phase)
    (event : Event) (found : system.workers[index]? = some ⟨item, old⟩)
    (safe : DeliverySafe system) (other : ∀ id, event ≠ .delivered id)
    (claims : ∀ id, (system.setPhase index ⟨item, old⟩ new).claims id = system.claims id)
    (calls : ∀ id, runningCalls (system.log ++ [event]) id =
      (system.setPhase index ⟨item, old⟩ new).delivering id)
    (check : deliveryCheck system.log event) :
    DeliverySafe ((system.setPhase index ⟨item, old⟩ new).record event) where
  exclusive := by
    intro id
    exact (claims id).trans_le (safe.exclusive id)
  issued := by
    intro id claimed
    exact safe.issued id ((claims id) ▸ claimed)
  unclaimable := by
    intro id row claimed present
    exact safe.unclaimable id row ((claims id) ▸ claimed) present
  finished := by
    intro id delivered
    have delivered : .delivered id ∈ system.log :=
      (delivered_mem_append _ _ id other).mp delivered
    obtain ⟨given, free, done⟩ := safe.finished id delivered
    exact ⟨given, (claims id).trans free, done⟩
  calls := calls
  starting := fun idle => absurd idle (worker_running system safe index _ found).1
  recovering := fun rows listed =>
    absurd listed ((worker_running system safe index _ found).2 rows)
  sound := every_event_append deliveryCheck _ _ safe.sound check

theorem call_delivery_safe (found : system.workers[index]? = some ⟨item, .starting⟩)
    (safe : DeliverySafe system) :
    DeliverySafe ((system.setPhase index ⟨item, .starting⟩ .delivering).record
      (.deliverCalled item.id)) := by
  have counts := system.called_counts index item found
  have own := counts item.id
  have single := safe.exclusive item.id
  simp only [hit, if_true] at own
  simp only [System.claims] at single
  refine phase_delivery_safe system index item _ _ _ found safe (by simp) ?_ ?_ ⟨?_, ?_⟩
  · intro id
    have moved := counts id
    simp only [System.claims]
    omega
  · intro id
    rw [running_calls_called, safe.calls id, (counts id).2.1]
  · rw [safe.calls item.id]
    omega
  · apply safe.undelivered item.id
    simp only [System.claims]
    omega

theorem return_delivery_safe (outcome : DeliveryOutcome)
    (found : system.workers[index]? = some ⟨item, .delivering⟩)
    (safe : DeliverySafe system) :
    DeliverySafe ((system.setPhase index ⟨item, .delivering⟩ (.settling outcome)).record
      (.deliverReturned item.id outcome.status)) := by
  have counts := system.returned_counts index item outcome found
  refine phase_delivery_safe system index item _ _ _ found safe (by simp) ?_ ?_ trivial
  · intro id
    have moved := counts id
    simp only [System.claims]
    omega
  · intro id
    have moved := (counts id).2.1
    rw [running_calls_returned, safe.calls id]
    omega

theorem delivered_delivery_safe (safe : DeliverySafe system)
    (issued : id < system.store.queue.nextID) (free : system.claims id = 0)
    (done : ∀ row, system.store.queue.find? id = some row → row.state = .done)
    (running : ∀ rows, system.scheduler ≠ .recovering rows) :
    DeliverySafe (system.record (.delivered id)) where
  exclusive := safe.exclusive
  issued := safe.issued
  unclaimable := safe.unclaimable
  finished := by
    intro other delivered
    have delivered : .delivered other ∈ system.log ++ [.delivered id] := delivered
    rw [List.mem_append, List.mem_singleton, Event.delivered.injEq] at delivered
    rcases delivered with earlier | rfl
    · exact safe.finished other earlier
    · exact ⟨issued, free, done⟩
  calls := by
    intro other
    show runningCalls (system.log ++ [.delivered id]) other = _
    rw [running_calls_note _ _ _ rfl]
    exact safe.calls other
  starting := safe.starting
  recovering := fun rows listed => absurd listed (running rows)
  sound := every_event_append deliveryCheck _ _ safe.sound trivial

theorem note_delivery_safe (event : Event) (note : event.isNote = true)
    (other : ∀ id, event ≠ .delivered id) (safe : DeliverySafe system) :
    DeliverySafe (system.record event) where
  exclusive := safe.exclusive
  issued := safe.issued
  unclaimable := safe.unclaimable
  finished := by
    intro id delivered
    exact safe.finished id ((delivered_mem_append _ _ id other).mp delivered)
  calls := by
    intro id
    show runningCalls (system.log ++ [event]) id = _
    rw [running_calls_note _ _ _ note]
    exact safe.calls id
  starting := safe.starting
  recovering := by
    intro rows listed
    obtain ⟨alone, undelivered⟩ := safe.recovering rows listed
    refine ⟨alone, ?_⟩
    intro row member delivered
    exact undelivered row member ((delivered_mem_append _ _ row.id other).mp delivered)
  sound := by
    apply every_event_append deliveryCheck _ _ safe.sound
    cases event with
    | delivered _ | exhausted _ | cancelled _ => trivial
    | deliverCalled _ | deliverReturned _ _ | restarted => simp [Event.isNote] at note

/-- The store part of a settlement: the worker lets go of its row and writes it
once. -/
theorem settle_delivery_safe (outcome : DeliveryOutcome) (change : RowUpdate) (store : Store)
    (found : system.workers[index]? = some ⟨item, .settling outcome⟩)
    (nextID : system.store.queue.nextID ≤ store.queue.nextID)
    (stored : store = system.store ∨
      store.queue = system.store.queue.update change fun row => row.id = item.id)
    (safe : DeliverySafe system) :
    DeliverySafe { system.setPhase index ⟨item, .settling outcome⟩ .finished with store } ∧
      System.claims { system.setPhase index ⟨item, .settling outcome⟩ .finished with store }
        item.id = 0 := by
  let next : System := { system.setPhase index ⟨item, .settling outcome⟩ .finished with store }
  have counts := system.settled_counts index item outcome found
  have released (id : Nat) : next.claims id + hit item id = system.claims id := by
    have moved := counts id
    have sameWaiting : next.waiting id =
      (system.setPhase index ⟨item, .settling outcome⟩ .finished).waiting id := rfl
    have sameDelivering : next.delivering id =
      (system.setPhase index ⟨item, .settling outcome⟩ .finished).delivering id := rfl
    have sameSettling : next.settling id =
      (system.setPhase index ⟨item, .settling outcome⟩ .finished).settling id := rfl
    simp only [System.claims]
    omega
  have own := released item.id
  have single := safe.exclusive item.id
  simp only [hit, if_true] at own
  have fewerClaims (id : Nat) : next.claims id ≤ system.claims id :=
    (Nat.le_add_right _ _).trans_eq (released id)
  have free : next.claims item.id = 0 := by omega
  have running := worker_running system safe index _ found
  refine ⟨?_, free⟩
  refine safe.frame next rfl fewerClaims (fun id => (counts id).2.1) nextID ?_ ?_ ?_
  · refine rows_fit_update system next item.id change safe rfl fewerClaims stored (Or.inl free) ?_
    exact safe.undelivered item.id (by omega)
  · exact fun idle => absurd idle running.1
  · exact fun rows listed => absurd listed (running.2 rows)

theorem enqueue_delivery_safe (safe : DeliverySafe system) :
    DeliverySafe (system.commit false ((system.store.enqueueMessage now item).map Prod.snd)) := by
  cases enqueued : system.store.enqueueMessage now item with
  | error _ => exact safe
  | ok pair =>
    obtain ⟨_, free, stored⟩ := Store.enqueue_ok now item system.store pair.2 pair.1 enqueued
    refine safe.beside _ rfl rfl rfl ?_ ?_
    · show _ ≤ pair.2.queue.nextID
      rw [stored]
      exact Nat.le_succ _
    · intro id row found
      have found : pair.2.queue.find? id = some row := found
      rw [stored, QueueTable.find_insert] at found
      split at found
      case isTrue new => exact Or.inr (Nat.le_of_eq new.symm)
      case isFalse => exact Or.inl found

theorem deleted_rows (target : Nat) (store next : Store)
    (deleted : store.deleteQueueItem now target = .ok next) (id : Nat) (row : QueueItem)
    (found : next.queue.find? id = some row) : store.queue.find? id = some row := by
  obtain ⟨_, _, rfl⟩ := Store.delete_ok now target store next deleted
  rw [QueueTable.find_delete] at found
  split at found
  · cases found
  · exact found

/-- The sweep of a process that has just come up: nobody holds a row, and the
rows it listed were inflight, so none of them was delivered. -/
theorem sweep_delivery_safe (system next : System) (row : QueueItem) (rows : List QueueItem)
    (nextAttempt : Micros) (errMsg : Bytes) (safe : DeliverySafe system)
    (listed : system.scheduler = .recovering (row :: rows))
    (scheduler : next.scheduler = .recovering rows) (workers : next.workers = system.workers)
    (log : next.log = system.log)
    (nextID : system.store.queue.nextID ≤ next.store.queue.nextID)
    (stored : next.store = system.store ∨
      system.store.rescheduleQueueItem row.id nextAttempt errMsg = .ok next.store) :
    DeliverySafe next := by
  obtain ⟨alone, undelivered⟩ := safe.recovering _ listed
  have counts := System.claims_congr system next (by rw [scheduler, listed]; rfl) workers
  have claims (id : Nat) : next.claims id ≤ system.claims id := Nat.le_of_eq (counts id).1
  have free : next.claims row.id = 0 := by
    simp [System.claims, System.waiting, System.delivering, System.settling, scheduler, workers,
      alone, Scheduler.batch]
  refine safe.frame next log claims (fun id => (counts id).2) nextID ?_ ?_ ?_
  · exact rows_fit_update system next row.id _ safe log claims
      (stored.imp_right Store.update_queue) (Or.inl free) (undelivered row (by simp))
  · intro idle
    rw [scheduler] at idle
    cases idle
  · intro left same
    rw [scheduler, Scheduler.recovering.injEq] at same
    subst same
    rw [workers]
    exact ⟨alone, fun other member => undelivered other (by simp [member])⟩

theorem list_stale_delivery_safe (failed : Bool)
    (idle : system.scheduler = .idle) (safe : DeliverySafe system) :
    DeliverySafe { system with
      scheduler := if failed then .polling
        else .recovering (system.store.listQueueItems { state := .inflight, limit := 1000 }) } := by
  let rows := system.store.listQueueItems { state := .inflight, limit := 1000 }
  have counts := System.claims_congr system
    { system with scheduler := if failed then .polling else .recovering rows }
    (by rw [idle]; cases failed <;> rfl) rfl
  have undelivered (row : QueueItem) (member : row ∈ rows) : .delivered row.id ∉ system.log := by
    intro delivered
    have listed := List.mem_filter.mp (List.mem_of_mem_take member)
    have done := (safe.finished row.id delivered).2.2 row
      (system.store.queue.find_of_member row listed.1)
    simp [QueueFilter.selects, done] at listed
  refine safe.frame_same_store _ rfl rfl (fun id => Nat.le_of_eq (counts id).1)
    (fun id => (counts id).2) ?_ ?_
  · intro starts
    cases failed <;> cases starts
  · intro left listed
    cases failed with
    | true => cases listed
    | false =>
      cases listed
      exact ⟨safe.starting idle, undelivered⟩

theorem restart_delivery_safe (safe : DeliverySafe system) :
    DeliverySafe { System.start system.store with log := system.log ++ [.restarted] } where
  exclusive := fun _ => Nat.zero_le 1
  issued := fun _ claimed => absurd claimed (Nat.lt_irrefl 0)
  unclaimable := fun _ _ claimed _ => absurd claimed (Nat.lt_irrefl 0)
  finished := by
    intro id delivered
    obtain ⟨given, _, done⟩ := safe.finished id ((delivered_mem_append _ _ id (by simp)).mp delivered)
    exact ⟨given, rfl, done⟩
  calls := running_calls_restarted system.log
  starting := fun _ => rfl
  recovering := nofun
  sound := every_event_append deliveryCheck _ _ safe.sound trivial

theorem complete_queue (success : Bool) (errMsg : Bytes)
    (store next : Store) (completed : store.completeQueueItem now id success errMsg = .ok next) :
    next.queue = store.queue.update (Store.completeUpdate now success errMsg)
      fun row => row.id = id := by
  obtain ⟨_, _, rfl⟩ := Store.complete_ok now id success errMsg store next completed
  rfl

theorem completed_done (store next : Store)
    (completed : store.completeQueueItem now id true [] = .ok next) (row : QueueItem)
    (found : next.queue.find? id = some row) : row.state = .done := by
  rw [complete_queue now id true [] store next completed, QueueTable.find_update_id,
    if_pos rfl] at found
  obtain ⟨old, _, rfl⟩ := Option.map_eq_some_iff.mp found
  rfl

/-- A committed settlement: the row is written once and let go, and a success is
recorded on a row that is done. -/
theorem settlement_delivery_safe (options : Options) (system : System) (index : Nat) (now : Micros)
    (item : QueueItem) (outcome : DeliveryOutcome) (store : Store) (event : Option Event)
    (found : system.workers[index]? = some ⟨item, .settling outcome⟩)
    (settled : System.settlement options now item outcome system.store = some (.ok store, event))
    (nextID : system.store.queue.nextID ≤ store.queue.nextID) (safe : DeliverySafe system) :
    DeliverySafe { system.setPhase index ⟨item, .settling outcome⟩ .finished with
      store, log := system.log ++ event.toList } := by
  have unlogged (change : RowUpdate)
      (stored : store.queue = system.store.queue.update change fun row => row.id = item.id) :=
    settle_delivery_safe system index item outcome change store found nextID (Or.inr stored) safe
  have completes (success : Bool) (errMsg : Bytes)
      (completed : system.store.completeQueueItem now item.id success errMsg = .ok store) :=
    unlogged _ (complete_queue now item.id success errMsg system.store store completed)
  rcases System.settlement_cases options now item outcome system.store store event settled with
    ⟨_, rfl, completed⟩ | ⟨rfl, errMsg, completed⟩ | ⟨rfl, held⟩ | ⟨_, handled⟩
  · obtain ⟨written, free⟩ := completes true [] completed
    have held : 0 < system.claims item.id := by
      have moved := system.settled_counts index item outcome found item.id
      simp only [hit, if_true] at moved
      simp only [System.claims]
      omega
    exact delivered_delivery_safe _ item.id written
      (Nat.lt_of_lt_of_le (safe.issued item.id held) nextID) free
      (completed_done now item.id system.store store completed)
      (worker_running system safe index _ found).2
  · simpa [System.setPhase] using (completes false errMsg completed).1
  · simpa [System.setPhase] using (unlogged _ (Store.update_queue held)).1
  · rcases System.handle_transient_cases options now item outcome system.store store event handled
      with ⟨_, rfl, errMsg, completed⟩ | ⟨rfl, _, _, _, updated⟩
    · exact note_delivery_safe _ (.exhausted item.id) rfl (by simp)
        (completes false errMsg completed).1
    · simpa [System.setPhase] using (unlogged _ (Store.update_queue updated)).1

theorem worker_delivery_safe (workers : List Worker) (index : Nat)
    (worker : Worker) (found : system.workers[index]? = some worker)
    (claims : ∀ id, System.claims { system with workers } id ≤ system.claims id)
    (delivers : ∀ id, System.delivering { system with workers } id = system.delivering id)
    (safe : DeliverySafe system) : DeliverySafe { system with workers } := by
  have running := worker_running system safe index worker found
  refine safe.frame_same_store _ rfl rfl claims delivers ?_ ?_
  · exact fun idle => absurd idle running.1
  · exact fun rows listed => absurd listed (running.2 rows)

end

theorem step_delivery_safe (options : Options) (system : System) (action : Action) (next : System)
    (safe : DeliverySafe system) (spares : SparesClaimedRows system action)
    (ran : (machine options).step system action = some next) : DeliverySafe next := by
  have ran : system.step options action = some next := ran
  have nextID := system.step_next_id options next action ran
  cases action with
  | listStale failed =>
    simp only [System.step] at ran
    split at ran
    case h_2 => cases ran
    case h_1 idle =>
      rw [← Option.some.inj ran]
      exact list_stale_delivery_safe system failed idle safe
  | sweepNext now failed =>
    rcases System.sweep_next_cases options now failed system next ran with
      ⟨listed, rfl⟩ | ⟨row, rows, listed, ⟨_, rfl⟩ | ⟨_, rfl⟩⟩
    · have counts := System.claims_congr system { system with scheduler := .polling }
        (by rw [listed]; rfl) rfl
      exact safe.frame_same_store _ rfl rfl (fun id => Nat.le_of_eq (counts id).1)
        (fun id => (counts id).2) (by simp) (by simp)
    · exact sweep_delivery_safe system _ row rows now [] safe listed rfl rfl rfl nextID
        (Or.inl rfl)
    · exact sweep_delivery_safe system _ row rows now _ safe listed (by simp) (by simp) (by simp)
        nextID (System.commit_store _ failed _)
  | claim now failed =>
    rcases System.claim_cases options now failed system next ran with
      ⟨polls, rfl | ⟨budget, rfl⟩⟩
    · exact safe
    · exact claim_delivery_safe system now budget polls safe
  | dispatchNext now shutdown failed =>
    rcases System.dispatch_next_cases options now shutdown failed system next ran with
      ⟨empty, rfl⟩ | ⟨item, batch, claimed, ⟨_, rfl⟩ | ⟨_, rfl⟩ | rfl⟩
    · have counts := System.claims_congr system { system with scheduler := .polling }
        (by rw [empty]; rfl) rfl
      exact safe.frame_same_store _ rfl rfl (fun id => Nat.le_of_eq (counts id).1)
        (fun id => (counts id).2) (by simp) (by simp)
    · exact rollback_delivery_safe system _ item batch [] now _ safe claimed
        (Or.inl (by simp)) (by simp) (by simp) nextID (System.commit_store _ failed _)
    · exact rollback_delivery_safe system _ item batch batch now _ safe claimed
        (Or.inr (by simp)) (by simp) (by simp) nextID (System.commit_store _ failed _)
    · have counts := system.spawned_counts item batch claimed
      refine safe.frame_same_store _ rfl rfl ?_ (fun id => (counts id).2.1) (by simp) (by simp)
      intro id
      have same := counts id
      simp only [System.claims]
      omega
  | prepare index preparation =>
    rcases System.prepare_cases index preparation system next ran with
      ⟨item, found, ⟨_, rfl⟩ | ⟨outcome, _, rfl⟩⟩
    · exact call_delivery_safe system index item found safe
    · have counts := system.abandoned_counts index item outcome found
      refine worker_delivery_safe system _ index _ found ?_ (fun id => (counts id).2.1) safe
      intro id
      have moved := counts id
      simp only [System.setPhase] at moved
      simp only [System.claims]
      omega
  | deliverReturns index outcome error =>
    obtain ⟨item, found, rfl⟩ := System.deliver_returns_cases index outcome error system next ran
    exact return_delivery_safe system index item _ found safe
  | settle index now failed =>
    rcases System.settle_cases options index now failed system next ran with
      ⟨item, outcome, found, rfl | ⟨store, event, settled, rfl⟩⟩
    · exact (settle_delivery_safe system index item outcome Store.holdUpdate system.store found
        nextID (Or.inl rfl) safe).1
    · exact settlement_delivery_safe options system index now item outcome store event found
        settled nextID safe
  | exit index =>
    obtain ⟨item, found, rfl⟩ := System.exit_cases index system next ran
    have counts := system.exited_counts index item found
    refine worker_delivery_safe system _ index _ found ?_ (fun id => (counts id).2.1) safe
    intro id
    have same := counts id
    simp only [System.claims]
    omega
  | enqueue now item =>
    simp only [System.step, Option.some.injEq] at ran
    subst ran
    exact enqueue_delivery_safe system now _ safe
  | retryQueueItem now id | releaseQueueItem now id =>
    simp only [System.step, Option.some.injEq] at ran
    subst ran
    obtain ⟨free, notDone⟩ := spares.1 id rfl
    exact operator_delivery_safe system _ id _ safe (by simp) (by simp) (by simp) nextID
      (System.commit_store _ false _) (Or.inl free) notDone
  | holdQueueItem id =>
    simp only [System.step, Option.some.injEq] at ran
    subst ran
    exact operator_delivery_safe system _ id Store.holdUpdate safe (by simp) (by simp) (by simp)
      nextID (System.commit_store _ false _) (Or.inr fun _ => rfl) (spares.2 id rfl)
  | deleteQueueItem now id =>
    simp only [System.step, Option.some.injEq] at ran
    subst ran
    refine safe.beside _ (by simp) (by simp) (by simp) nextID ?_
    intro other row found
    rcases System.commit_store system false (system.store.deleteQueueItem now id) with
      same | deleted
    · rw [same] at found
      exact Or.inl found
    · exact Or.inl (deleted_rows now id _ _ deleted other row found)
  | flushStart now | cancelStart envelope =>
    simp only [System.step, Option.some.injEq] at ran
    subst ran
    exact safe.beside _ rfl rfl rfl nextID fun _ _ => Or.inl
  | flushNext index failed =>
    obtain ⟨call, row, pending, flushes, found, listed, rfl⟩ :=
      System.flush_next_cases index failed system next ran
    obtain ⟨free, notDone⟩ := spares.1 row.id (by
      cases call
      cases listed
      simp [System.revivedRow, found])
    exact operator_delivery_safe system _ row.id _ safe (by simp) (by simp) (by simp) nextID
      (System.commit_store _ failed _) (Or.inl free) notDone
  | flushPage index =>
    obtain ⟨flushes, rfl⟩ := System.flush_page_cases index system next ran
    exact safe.beside _ rfl rfl rfl nextID fun _ _ => Or.inl
  | cancelNext index now failed =>
    rcases System.cancel_next_cases index now failed system next ran with
      ⟨cancels, rfl | ⟨id, store, _, deleted, rfl⟩⟩
    · exact safe.beside _ rfl rfl rfl nextID fun _ _ => Or.inl
    · apply note_delivery_safe { system with store, cancels } (.cancelled id) rfl (by simp)
      refine safe.beside _ rfl rfl rfl nextID ?_
      intro other row found
      exact Or.inl (deleted_rows now id _ _ deleted other row found)
  | restart =>
    simp only [System.step, Option.some.injEq] at ran
    subst ran
    exact restart_delivery_safe system safe

/-- In every run in which the operator's calls spare the claimed and the
delivered rows, no row is handed out twice at a time or after its success. -/
theorem no_double_delivery_when_spared (options : Options) (store : Store) (actions : List Action)
    (final : System)
    (ran : ((machine options).guarded SparesClaimedRows).execute (System.start store) actions =
      some final) : NoDoubleDelivery final.log := by
  have safe := (machine options).guarded_keeps SparesClaimedRows DeliverySafe
    (step_delivery_safe options) actions (System.start store) final (start_delivery_safe store) ran
  exact safe.sound

def twoPerHost : Options where
  concurrency := 2
  perHostMax := 2
  pollInterval := 5
  schedule := some [10]

def oneRow : QueueItem where
  mailFrom := ascii "a@x"
  rcptTo := ascii "b@y"

def firstCall : List Action :=
  [.enqueue 10 oneRow, .listStale false, .sweepNext 20 false, .claim 20 false,
    .dispatchNext 20 false false, .dispatchNext 20 false false, .prepare 0 .ready]

def releaseDuringCall : List Action :=
  firstCall ++ [.releaseQueueItem 30 1, .claim 40 false, .dispatchNext 40 false false,
    .prepare 1 .ready]

theorem released_row_is_delivered_twice :
    ((machine twoPerHost).execute (System.start Store.empty) releaseDuringCall).map System.log =
        some [.deliverCalled 1, .deliverCalled 1] ∧
      ¬NoDoubleDelivery [.deliverCalled 1, .deliverCalled 1] := by
  refine ⟨by decide +kernel, ?_⟩
  intro sound
  have quiet := (sound [.deliverCalled 1] (.deliverCalled 1) [] rfl).1
  exact absurd quiet (by decide)

def releaseAfterHold : List Action :=
  firstCall ++ [.deliverReturns 0 ⟨.hold, 0, [], []⟩ none, .settle 0 30 false,
    .releaseQueueItem 40 1, .claim 50 false, .dispatchNext 50 false false, .prepare 1 .ready]

theorem no_double_delivery_when_spared_of_held_row :
    ∃ final, ((machine twoPerHost).guarded SparesClaimedRows).execute (System.start Store.empty)
        releaseAfterHold = some final ∧
      final.log = [.deliverCalled 1, .deliverReturned 1 .hold, .deliverCalled 1] ∧
      NoDoubleDelivery final.log := by
  refine ⟨_, rfl, rfl, ?_⟩
  exact no_double_delivery_when_spared twoPerHost Store.empty releaseAfterHold _ rfl

end Herold.Queue

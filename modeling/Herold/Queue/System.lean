import Herold.Go.Decimal
import Herold.Machine.History
import Herold.Machine.Run
import Herold.Store.Queue

/-!
# The running queue

The scheduler of `Queue.Run`, its workers, the operator's calls of the admin
interface, `Queue.Cancel` and new submissions, interleaved one store transaction
at a time. A restart loses everything that lives in the process and keeps the
store. The log is what an observer beside the deliverer sees.
-/

namespace Herold.Queue

open Herold.Go Herold.Store Herold.Machine

inductive DeliveryStatus where
  | unknown
  | success
  | permanent
  | transient
  | hold
  deriving DecidableEq

structure DeliveryOutcome where
  status : DeliveryStatus
  code : Nat := 0
  enhancedCode : Bytes := []
  detail : Bytes := []
  deriving DecidableEq

/-- `strings.Join` with a space. -/
def joinSpace : List Bytes → Bytes
  | [] => []
  | [part] => part
  | part :: parts => part ++ ascii " " ++ joinSpace parts

def outcomeToErrMsg (outcome : DeliveryOutcome) : Bytes :=
  if outcome.code = 0 ∧ outcome.enhancedCode = [] then outcome.detail
  else
    let parts := (if outcome.code = 0 then [] else [decimal outcome.code]) ++
      (if outcome.enhancedCode = [] then [] else [outcome.enhancedCode]) ++
        if outcome.detail = [] then [] else [outcome.detail]
    (joinSpace parts).take 1024

def minute : Micros := 60 * 1000000

def defaultRetrySchedule : List Micros :=
  [5 * minute, 15 * minute, 60 * minute, 240 * minute, 720 * minute, 1440 * minute,
    2880 * minute, 5760 * minute]

/-- The queue's options after `New` has put the defaults in place. A schedule
that is not set stands for the default one. -/
structure Options where
  concurrency : Nat
  perHostMax : Nat
  pollInterval : Micros
  schedule : Option (List Micros)

def Options.retrySchedule (options : Options) : List Micros :=
  options.schedule.getD defaultRetrySchedule

/-- The row's attempts as `scanQueueItem` reads them into an `int32`. -/
def int32 (attempts : Nat) : Int :=
  let low := attempts % 4294967296
  if low < 2147483648 then low else (low : Int) - 4294967296

inductive RetryDecision where
  | delay (duration : Micros)
  | exhausted
  | panic
  deriving DecidableEq

def next (options : Options) (attempts : Int) : RetryDecision :=
  if (options.retrySchedule.length : Int) ≤ attempts then .exhausted
  else if attempts < 0 then .panic
  else .delay (options.retrySchedule.getD attempts.toNat 0)

def recipientHost (rcpt : Bytes) : Bytes :=
  match cutLastByte 64 rcpt with
  | some (_, host) => toLower host
  | none => []

inductive Phase where
  | starting
  | delivering
  | settling (outcome : DeliveryOutcome)
  | finished
  deriving DecidableEq

structure Worker where
  item : QueueItem
  phase : Phase
  deriving DecidableEq

inductive Scheduler where
  | idle
  | recovering (rows : List QueueItem)
  | polling
  | dispatching (batch : List QueueItem)
  deriving DecidableEq

/-- A `Queue.Cancel` call: the rows still to visit and its two counters. -/
structure CancelCall where
  pending : List QueueItem
  cancelled : Nat
  inflightCount : Nat
  deriving DecidableEq

/-- A `handleQueueFlush` call between two of its store calls. -/
structure FlushCall where
  now : Micros
  pending : List QueueItem
  cursor : Nat
  lastPage : Bool
  deriving DecidableEq

inductive Event where
  | deliverCalled (id : Nat)
  | deliverReturned (id : Nat) (status : DeliveryStatus)
  /-- A success was recorded by `CompleteQueueItem`. -/
  | delivered (id : Nat)
  | exhausted (id : Nat)
  /-- `Queue.Cancel` counted the row as cancelled. -/
  | cancelled (id : Nat)
  | restarted
  deriving DecidableEq

structure System where
  store : Store
  scheduler : Scheduler
  workers : List Worker
  cancels : List CancelCall
  flushes : List FlushCall
  log : List Event

def System.start (store : Store) : System where
  store := store
  scheduler := .idle
  workers := []
  cancels := []
  flushes := []
  log := []

inductive Preparation where
  | ready
  | externalSubmission
  | bodyUnreadable (error : Bytes)
  | noSigner
  | seekFailed (error : Bytes)
  | signerInterrupted (error : Bytes)
  | signerFailed (error : Bytes)
  deriving DecidableEq

/-- The outcome the worker settles with when it never calls the deliverer. -/
def Preparation.outcome : Preparation → Option DeliveryOutcome
  | ready => none
  | externalSubmission =>
    some { status := .permanent, detail := ascii ("queue: external-submission identity must " ++
      "not route through local queue (REQ-AUTH-EXT-SUBMIT-05)") }
  | bodyUnreadable error =>
    some { status := .transient, detail := ascii "blob read error: " ++ error }
  | noSigner =>
    some { status := .permanent, enhancedCode := ascii "5.7.0",
           detail := ascii "queue: Sign=true but no Signer configured" }
  | seekFailed error =>
    some { status := .transient, detail := ascii "blob seek error: " ++ error }
  | signerInterrupted error =>
    some { status := .transient, detail := ascii "queue: signer interrupted: " ++ error }
  | signerFailed error =>
    some { status := .permanent, enhancedCode := ascii "5.7.0",
           detail := ascii "queue: signer failure: " ++ error }

/-- What `deliver` makes of the deliverer's answer: an unclassified error and an
unknown status both become transient. -/
def classify (outcome : DeliveryOutcome) (error : Option Bytes) : DeliveryOutcome :=
  match outcome.status, error with
  | .unknown, some error => { status := .transient, detail := error }
  | .unknown, none =>
    { status := .transient, detail := ascii "deliverer returned unknown status" }
  | _, _ => outcome

inductive Action where
  | listStale (failed : Bool)
  | sweepNext (now : Micros) (failed : Bool)
  | claim (now : Micros) (failed : Bool)
  | dispatchNext (now : Micros) (shutdown failed : Bool)
  | prepare (worker : Nat) (preparation : Preparation)
  | deliverReturns (worker : Nat) (outcome : DeliveryOutcome) (error : Option Bytes)
  | settle (worker : Nat) (now : Micros) (failed : Bool)
  | exit (worker : Nat)
  | enqueue (now : Micros) (item : QueueItem)
  | retryQueueItem (now : Micros) (id : Nat)
  | holdQueueItem (id : Nat)
  | releaseQueueItem (now : Micros) (id : Nat)
  | deleteQueueItem (now : Micros) (id : Nat)
  | flushStart (now : Micros)
  | flushNext (call : Nat) (failed : Bool)
  | flushPage (call : Nat)
  | cancelStart (envelope : Bytes)
  | cancelNext (call : Nat) (now : Micros) (failed : Bool)
  | restart

namespace System

/-- Commit a transaction; one that fails or returns an error changes nothing. -/
def commit (system : System) (failed : Bool) (result : Except StoreError Store) : System :=
  match failed, result with
  | false, .ok store => { system with store }
  | _, _ => system

/-- The factor of `staleInflightFactor`. -/
def isStale (options : Options) (now : Micros) (row : QueueItem) : Bool :=
  row.lastAttemptAt = 0 || decide (row.lastAttemptAt < now - 5 * options.pollInterval)

/-- `recoverStaleInflight` for the next listed row. -/
def sweepNext (options : Options) (now : Micros) (failed : Bool) (system : System) :
    Option System :=
  match system.scheduler with
  | .recovering [] => some { system with scheduler := .polling }
  | .recovering (row :: rows) =>
    let swept := { system with scheduler := .recovering rows }
    if isStale options now row then
      some (swept.commit failed
        (system.store.rescheduleQueueItem row.id now (ascii "recovered from stale inflight")))
    else some swept
  | _ => none

def claim (options : Options) (now : Micros) (failed : Bool) (system : System) : Option System :=
  match system.scheduler with
  | .polling =>
    let budget := (options.concurrency : Int) - system.workers.length
    if failed ∨ budget ≤ 0 then some system
    else
      let (batch, store) := system.store.claimDueQueueItems now budget
      some { system with store, scheduler := .dispatching batch }
  | _ => none

def hostLoad (system : System) (host : Bytes) : Nat :=
  system.workers.countP fun worker => recipientHost worker.item.rcptTo = host

/-- The next claimed row: rolled back at shutdown, which also drops the rest of
the batch, rolled back when its host is at the cap, or handed to a worker. -/
def dispatchNext (options : Options) (now : Micros) (shutdown failed : Bool) (system : System) :
    Option System :=
  match system.scheduler with
  | .dispatching [] => some { system with scheduler := .polling }
  | .dispatching (item :: batch) =>
    if shutdown then
      some (commit { system with scheduler := .polling } failed
        (system.store.rescheduleQueueItem item.id now (ascii "shutdown before delivery")))
    else if options.perHostMax ≤ system.hostLoad (recipientHost item.rcptTo) then
      some (commit { system with scheduler := .dispatching batch } failed
        (system.store.rescheduleQueueItem item.id now (ascii "deferred: per-host cap")))
    else
      some { system with
        scheduler := .dispatching batch
        workers := system.workers ++ [⟨item, .starting⟩] }
  | _ => none

def setPhase (system : System) (index : Nat) (worker : Worker) (phase : Phase) : System :=
  { system with workers := system.workers.set index { worker with phase } }

def record (system : System) (event : Event) : System :=
  { system with log := system.log ++ [event] }

def prepare (index : Nat) (preparation : Preparation) (system : System) : Option System :=
  match system.workers[index]? with
  | some ⟨item, .starting⟩ =>
    match preparation.outcome with
    | none =>
      some ((system.setPhase index ⟨item, .starting⟩ .delivering).record
        (.deliverCalled item.id))
    | some outcome => some (system.setPhase index ⟨item, .starting⟩ (.settling outcome))
  | _ => none

def deliverReturns (index : Nat) (outcome : DeliveryOutcome) (error : Option Bytes)
    (system : System) : Option System :=
  match system.workers[index]? with
  | some ⟨item, .delivering⟩ =>
    let outcome := classify outcome error
    some ((system.setPhase index ⟨item, .delivering⟩ (.settling outcome)).record
      (.deliverReturned item.id outcome.status))
  | _ => none

def exhaustedText : Bytes := ascii "retry schedule exhausted: "

/-- `handleTransient` decides on the attempts of the claimed copy. -/
def handleTransient (options : Options) (now : Micros) (item : QueueItem)
    (outcome : DeliveryOutcome) (store : Store) : Option (Except StoreError Store × Option Event) :=
  match next options (int32 item.attempts) with
  | .exhausted =>
    some (store.completeQueueItem now item.id false (exhaustedText ++ outcomeToErrMsg outcome),
      some (.exhausted item.id))
  | .delay duration =>
    some (store.rescheduleQueueItem item.id (now + duration) (outcomeToErrMsg outcome), none)
  | .panic => none

/-- The store call that ends an attempt, and what the observer notes once it is
committed. -/
def settlement (options : Options) (now : Micros) (item : QueueItem) (outcome : DeliveryOutcome)
    (store : Store) : Option (Except StoreError Store × Option Event) :=
  match outcome.status with
  | .success => some (store.completeQueueItem now item.id true [], some (.delivered item.id))
  | .permanent =>
    some (store.completeQueueItem now item.id false (outcomeToErrMsg outcome), none)
  | .hold => some (store.holdQueueItem item.id, none)
  | .transient | .unknown => handleTransient options now item outcome store

def settle (options : Options) (index : Nat) (now : Micros) (failed : Bool) (system : System) :
    Option System :=
  match system.workers[index]? with
  | some ⟨item, .settling outcome⟩ =>
    let done := system.setPhase index ⟨item, .settling outcome⟩ .finished
    match settlement options now item outcome system.store with
    | some (.ok store, event) =>
      if failed then some done
      else some { done with store, log := done.log ++ event.toList }
    | some (.error _, _) => some done
    | none => none
  | _ => none

def exit (index : Nat) (system : System) : Option System :=
  match system.workers[index]? with
  | some ⟨_, .finished⟩ => some { system with workers := system.workers.eraseIdx index }
  | _ => none

def flushList (store : Store) (now : Micros) (cursor : Nat) : FlushCall :=
  let page := store.listQueueItems { state := .deferred, limit := 1000, afterID := cursor }
  { now, pending := page, cursor, lastPage := page.length < 1000 }

def flushNext (index : Nat) (failed : Bool) (system : System) : Option System :=
  match system.flushes[index]? with
  | some ⟨now, row :: pending, _, lastPage⟩ =>
    some (commit { system with flushes := system.flushes.set index ⟨now, pending, row.id, lastPage⟩ }
      failed (system.store.rescheduleQueueItem row.id now row.lastError))
  | _ => none

def flushPage (index : Nat) (system : System) : Option System :=
  match system.flushes[index]? with
  | some ⟨now, [], cursor, false⟩ =>
    some { system with
      flushes := system.flushes.set index (flushList system.store now cursor) }
  | _ => none

/-- `Queue.Cancel` at its next listed row. The state it looks at is the listed
one; only the deletion itself sees the store. -/
def cancelNext (index : Nat) (now : Micros) (failed : Bool) (system : System) : Option System :=
  match system.cancels[index]? with
  | some ⟨row :: pending, cancelled, inflightCount⟩ =>
    let update (call : CancelCall) : System :=
      { system with cancels := system.cancels.set index call }
    match row.state with
    | .queued | .deferred | .held =>
      if failed then some (update ⟨[], cancelled, inflightCount⟩)
      else match system.store.deleteQueueItem now row.id with
        | .ok store =>
          some (record { update ⟨pending, cancelled + 1, inflightCount⟩ with store }
            (.cancelled row.id))
        | .error _ => some (update ⟨pending, cancelled, inflightCount⟩)
    | .done | .failed => some (update ⟨pending, cancelled, inflightCount⟩)
    | .inflight | .unknown => some (update ⟨pending, cancelled, inflightCount + 1⟩)
  | _ => none

def step (options : Options) (system : System) : Action → Option System
  | .listStale failed =>
    match system.scheduler with
    | .idle =>
      let rows := system.store.listQueueItems { state := .inflight, limit := 1000 }
      some { system with scheduler := if failed then .polling else .recovering rows }
    | _ => none
  | .sweepNext now failed => system.sweepNext options now failed
  | .claim now failed => system.claim options now failed
  | .dispatchNext now shutdown failed => system.dispatchNext options now shutdown failed
  | .prepare worker preparation => system.prepare worker preparation
  | .deliverReturns worker outcome error => system.deliverReturns worker outcome error
  | .settle worker now failed => system.settle options worker now failed
  | .exit worker => system.exit worker
  | .enqueue now item =>
    some (system.commit false
      ((system.store.enqueueMessage now { item with state := .queued, attempts := 0 }).map
        Prod.snd))
  | .retryQueueItem now id =>
    some (system.commit false (system.store.rescheduleQueueItem id now []))
  | .holdQueueItem id => some (system.commit false (system.store.holdQueueItem id))
  | .releaseQueueItem now id => some (system.commit false (system.store.releaseQueueItem now id))
  | .deleteQueueItem now id => some (system.commit false (system.store.deleteQueueItem now id))
  | .flushStart now =>
    some { system with flushes := system.flushes ++ [flushList system.store now 0] }
  | .flushNext call failed => system.flushNext call failed
  | .flushPage call => system.flushPage call
  | .cancelStart envelope =>
    let rows := system.store.listQueueItems { envelopeID := envelope }
    some { system with cancels := system.cancels ++ [⟨rows, 0, 0⟩] }
  | .cancelNext call now failed => system.cancelNext call now failed
  | .restart => some { System.start system.store with log := system.log ++ [.restarted] }

theorem sweep_next_cases (options : Options) (now : Micros) (failed : Bool) (system next : System)
    (ran : system.sweepNext options now failed = some next) :
    (system.scheduler = .recovering [] ∧ next = { system with scheduler := .polling }) ∨
      ∃ row rows, system.scheduler = .recovering (row :: rows) ∧
        (isStale options now row = false ∧ next = { system with scheduler := .recovering rows } ∨
          isStale options now row = true ∧
            next = commit { system with scheduler := .recovering rows } failed
              (system.store.rescheduleQueueItem row.id now
                (ascii "recovered from stale inflight"))) := by
  unfold sweepNext at ran
  split at ran
  case h_1 empty => exact Or.inl ⟨empty, (Option.some.inj ran).symm⟩
  case h_2 row rows listed =>
    refine Or.inr ⟨row, rows, listed, ?_⟩
    split at ran
    case isTrue stale => exact Or.inr ⟨stale, (Option.some.inj ran).symm⟩
    case isFalse fresh => exact Or.inl ⟨by simpa using fresh, (Option.some.inj ran).symm⟩
  case h_3 => cases ran

theorem claim_cases (options : Options) (now : Micros) (failed : Bool) (system next : System)
    (ran : system.claim options now failed = some next) :
    system.scheduler = .polling ∧
      (next = system ∨ ∃ budget : Int,
        next = { system with
          store := (system.store.claimDueQueueItems now budget).2
          scheduler := .dispatching (system.store.claimDueQueueItems now budget).1 }) := by
  unfold claim at ran
  split at ran
  case h_1 polls =>
    refine ⟨polls, ?_⟩
    dsimp only at ran
    split at ran
    · exact Or.inl (Option.some.inj ran).symm
    · exact Or.inr ⟨_, (Option.some.inj ran).symm⟩
  case h_2 => cases ran

theorem dispatch_next_cases (options : Options) (now : Micros) (shutdown failed : Bool)
    (system next : System) (ran : system.dispatchNext options now shutdown failed = some next) :
    (system.scheduler = .dispatching [] ∧ next = { system with scheduler := .polling }) ∨
      ∃ item batch, system.scheduler = .dispatching (item :: batch) ∧
        (shutdown = true ∧
            next = commit { system with scheduler := .polling } failed
              (system.store.rescheduleQueueItem item.id now (ascii "shutdown before delivery")) ∨
          options.perHostMax ≤ system.hostLoad (recipientHost item.rcptTo) ∧
            next = commit { system with scheduler := .dispatching batch } failed
              (system.store.rescheduleQueueItem item.id now (ascii "deferred: per-host cap")) ∨
          next = { system with
            scheduler := .dispatching batch
            workers := system.workers ++ [⟨item, .starting⟩] }) := by
  unfold dispatchNext at ran
  split at ran
  case h_1 empty => exact Or.inl ⟨empty, (Option.some.inj ran).symm⟩
  case h_2 item batch claimed =>
    refine Or.inr ⟨item, batch, claimed, ?_⟩
    split at ran
    case isTrue stops => exact Or.inl ⟨stops, (Option.some.inj ran).symm⟩
    case isFalse =>
      split at ran
      case isTrue capped => exact Or.inr (Or.inl ⟨capped, (Option.some.inj ran).symm⟩)
      case isFalse => exact Or.inr (Or.inr (Option.some.inj ran).symm)
  case h_3 => cases ran

theorem prepare_cases (index : Nat) (preparation : Preparation) (system next : System)
    (ran : system.prepare index preparation = some next) :
    ∃ item, system.workers[index]? = some ⟨item, .starting⟩ ∧
      (preparation.outcome = none ∧
          next = (system.setPhase index ⟨item, .starting⟩ .delivering).record
            (.deliverCalled item.id) ∨
        ∃ outcome, preparation.outcome = some outcome ∧
          next = system.setPhase index ⟨item, .starting⟩ (.settling outcome)) := by
  unfold prepare at ran
  split at ran
  case h_1 item found =>
    refine ⟨item, found, ?_⟩
    split at ran
    case h_1 ready => exact Or.inl ⟨ready, (Option.some.inj ran).symm⟩
    case h_2 outcome abandoned =>
      exact Or.inr ⟨outcome, abandoned, (Option.some.inj ran).symm⟩
  case h_2 => cases ran

theorem deliver_returns_cases (index : Nat) (outcome : DeliveryOutcome) (error : Option Bytes)
    (system next : System) (ran : system.deliverReturns index outcome error = some next) :
    ∃ item, system.workers[index]? = some ⟨item, .delivering⟩ ∧
      next = (system.setPhase index ⟨item, .delivering⟩
        (.settling (classify outcome error))).record
          (.deliverReturned item.id (classify outcome error).status) := by
  unfold deliverReturns at ran
  split at ran
  case h_1 item found => exact ⟨item, found, (Option.some.inj ran).symm⟩
  case h_2 => cases ran

theorem settle_cases (options : Options) (index : Nat) (now : Micros) (failed : Bool)
    (system next : System) (ran : system.settle options index now failed = some next) :
    ∃ item outcome, system.workers[index]? = some ⟨item, .settling outcome⟩ ∧
      (next = system.setPhase index ⟨item, .settling outcome⟩ .finished ∨
        ∃ store event, settlement options now item outcome system.store =
            some (.ok store, event) ∧
          next = { system.setPhase index ⟨item, .settling outcome⟩ .finished with
            store, log := system.log ++ event.toList }) := by
  unfold settle at ran
  split at ran
  case h_1 item outcome found =>
    refine ⟨item, outcome, found, ?_⟩
    split at ran
    case h_1 store event settled =>
      split at ran
      · exact Or.inl (Option.some.inj ran).symm
      · exact Or.inr ⟨store, event, settled, (Option.some.inj ran).symm⟩
    case h_2 => exact Or.inl (Option.some.inj ran).symm
    case h_3 => cases ran
  case h_2 => cases ran

theorem handle_transient_cases (options : Options) (now : Micros) (item : QueueItem)
    (outcome : DeliveryOutcome) (store after : Store) (event : Option Event)
    (handled : handleTransient options now item outcome store = some (.ok after, event)) :
    (next options (int32 item.attempts) = .exhausted ∧ event = some (.exhausted item.id) ∧
        ∃ errMsg, store.completeQueueItem now item.id false errMsg = .ok after) ∨
      (event = none ∧ ∃ duration errMsg,
        next options (int32 item.attempts) = .delay duration ∧
          store.rescheduleQueueItem item.id (now + duration) errMsg = .ok after) := by
  cases decision : next options (int32 item.attempts) with
  | exhausted =>
    simp only [handleTransient, decision, Option.some.injEq, Prod.mk.injEq] at handled
    exact Or.inl ⟨rfl, handled.2.symm, _, handled.1⟩
  | delay duration =>
    simp only [handleTransient, decision, Option.some.injEq, Prod.mk.injEq] at handled
    exact Or.inr ⟨handled.2.symm, duration, _, rfl, handled.1⟩
  | panic =>
    simp only [handleTransient, decision, reduceCtorEq] at handled

theorem settlement_cases (options : Options) (now : Micros) (item : QueueItem)
    (outcome : DeliveryOutcome) (store after : Store) (event : Option Event)
    (settled : settlement options now item outcome store = some (.ok after, event)) :
    (outcome.status = .success ∧ event = some (.delivered item.id) ∧
        store.completeQueueItem now item.id true [] = .ok after) ∨
      (event = none ∧ ∃ errMsg, store.completeQueueItem now item.id false errMsg = .ok after) ∨
      (event = none ∧ store.holdQueueItem item.id = .ok after) ∨
      ((outcome.status = .transient ∨ outcome.status = .unknown) ∧
        handleTransient options now item outcome store = some (.ok after, event)) := by
  cases status : outcome.status with
  | success =>
    simp only [settlement, status, Option.some.injEq, Prod.mk.injEq] at settled
    exact Or.inl ⟨rfl, settled.2.symm, settled.1⟩
  | permanent =>
    simp only [settlement, status, Option.some.injEq, Prod.mk.injEq] at settled
    exact Or.inr (Or.inl ⟨settled.2.symm, _, settled.1⟩)
  | hold =>
    simp only [settlement, status, Option.some.injEq, Prod.mk.injEq] at settled
    exact Or.inr (Or.inr (Or.inl ⟨settled.2.symm, settled.1⟩))
  | transient =>
    simp only [settlement, status] at settled
    exact Or.inr (Or.inr (Or.inr ⟨Or.inl rfl, settled⟩))
  | unknown =>
    simp only [settlement, status] at settled
    exact Or.inr (Or.inr (Or.inr ⟨Or.inr rfl, settled⟩))

theorem exit_cases (index : Nat) (system next : System) (ran : system.exit index = some next) :
    ∃ item, system.workers[index]? = some ⟨item, .finished⟩ ∧
      next = { system with workers := system.workers.eraseIdx index } := by
  unfold exit at ran
  split at ran
  case h_1 item found => exact ⟨item, found, (Option.some.inj ran).symm⟩
  case h_2 => cases ran

theorem flush_next_cases (index : Nat) (failed : Bool) (system next : System)
    (ran : system.flushNext index failed = some next) :
    ∃ call row pending flushes, system.flushes[index]? = some call ∧ call.pending = row :: pending ∧
      next = commit { system with flushes } failed
        (system.store.rescheduleQueueItem row.id call.now row.lastError) := by
  unfold flushNext at ran
  split at ran
  case h_1 now row pending cursor lastPage found =>
    exact ⟨_, row, pending, _, found, rfl, (Option.some.inj ran).symm⟩
  case h_2 => cases ran

theorem flush_page_cases (index : Nat) (system next : System)
    (ran : system.flushPage index = some next) :
    ∃ flushes, next = { system with flushes } := by
  unfold flushPage at ran
  split at ran
  · exact ⟨_, (Option.some.inj ran).symm⟩
  · cases ran

def cancelTarget (system : System) : Action → Option Nat
  | .cancelNext index _ _ =>
    match system.cancels[index]? with
    | some ⟨row :: _, _, _⟩ =>
      match row.state with
      | .queued | .deferred | .held => (system.store.queue.find? row.id).map QueueItem.id
      | _ => none
    | _ => none
  | _ => none

theorem cancel_next_cases (index : Nat) (now : Micros) (failed : Bool) (system next : System)
    (ran : system.cancelNext index now failed = some next) :
    ∃ cancels, next = { system with cancels } ∨
      ∃ id store, system.cancelTarget (.cancelNext index now failed) = some id ∧
        system.store.deleteQueueItem now id = .ok store ∧
          next = record { system with store, cancels } (.cancelled id) := by
  unfold cancelNext at ran
  split at ran
  case h_2 => cases ran
  case h_1 row pending cancelled inflightCount found =>
    have visit (call : CancelCall)
        (same : some { system with cancels := system.cancels.set index call } = some next) :
        ∃ cancels, next = { system with cancels } := ⟨_, (Option.some.inj same).symm⟩
    have target (state : row.state = .queued ∨ row.state = .deferred ∨ row.state = .held)
        (store : Store) (deleted : system.store.deleteQueueItem now row.id = .ok store) :
        system.cancelTarget (.cancelNext index now failed) = some row.id := by
      obtain ⟨stored, present, _⟩ := Store.delete_ok now row.id system.store store deleted
      have same := system.store.queue.find_some_id row.id stored present
      rcases state with state | state | state <;>
        simp [cancelTarget, found, state, present, same]
    cases state : row.state with
    | queued | deferred | held =>
      rw [state] at ran
      simp only at ran
      split at ran
      · exact (visit _ ran).imp fun _ => Or.inl
      · split at ran
        case h_1 store deleted =>
          exact ⟨_, Or.inr ⟨row.id, store, target (by simp [state]) store deleted, deleted,
            (Option.some.inj ran).symm⟩⟩
        case h_2 => exact (visit _ ran).imp fun _ => Or.inl
    | done | failed | inflight | unknown =>
      rw [state] at ran
      exact (visit _ ran).imp fun _ => Or.inl

end System

def machine (options : Options) : Machine System Action where
  step := System.step options

end Herold.Queue

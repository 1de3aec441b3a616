import Herold.Queue.Claims
import Mathlib.Data.List.Perm.Subperm
import Mathlib.Data.List.ProdSigma

/-!
# Delivery reports

The running queue with `emitDSN`. A report about a row that is completed is written
after the completion, one about a delay before the row is put back; either may be
lost with the process. A report is a row of the queue like any other.
-/

namespace Herold.Queue

open Herold.Go Herold.Store Herold.Machine

inductive DSNKind where
  | success
  | failure
  | delay
  deriving DecidableEq

def DSNKind.text : DSNKind → Bytes
  | success => ascii "success"
  | failure => ascii "failure"
  | delay => ascii "delay"

def dsnNotifySuccess : Nat := 2
def dsnNotifyFailure : Nat := 4
def dsnNotifyDelay : Nat := 8
def dsnNotifyNever : Nat := 16

def shouldEmitFailureDSN (notify : Nat) : Bool :=
  notify &&& dsnNotifyNever = 0 && (notify = 0 || notify &&& dsnNotifyFailure ≠ 0)

def shouldEmitSuccessDSN (notify : Nat) : Bool :=
  notify &&& dsnNotifyNever = 0 && notify &&& dsnNotifySuccess ≠ 0

def shouldEmitDelayDSN (notify : Nat) : Bool :=
  notify &&& dsnNotifyNever = 0 && (notify = 0 || notify &&& dsnNotifyDelay ≠ 0)

def closingReport (options : Options) (item : QueueItem) (outcome : DeliveryOutcome) : Option DSNKind :=
  match outcome.status with
  | .success => if shouldEmitSuccessDSN item.dsnNotify then some .success else none
  | .permanent => if shouldEmitFailureDSN item.dsnNotify then some .failure else none
  | .hold => none
  | .transient | .unknown =>
    match next options (int32 item.attempts) with
    | .exhausted => if shouldEmitFailureDSN item.dsnNotify then some .failure else none
    | _ => none

/-- The test of `handleTransient` for a report about a delay. -/
def delayDue (options : Options) (threshold now : Micros) (item : QueueItem)
    (outcome : DeliveryOutcome) :
    Bool :=
  match outcome.status, next options (int32 item.attempts) with
  | .transient, .delay _ | .unknown, .delay _ =>
    shouldEmitDelayDSN item.dsnNotify && decide (threshold ≤ now - item.createdAt)
  | _, _ => false

def dsnKey (kind : DSNKind) (item : QueueItem) : Bytes :=
  ascii "dsn:" ++ kind.text ++ ascii ":" ++ decimal item.id ++ ascii ":" ++ item.rcptTo

/-- What `emitDSN` makes before it enqueues: the report in the blob store and an
envelope identifier. -/
structure Rendered where
  body : Bytes
  envelopeID : Bytes
  deriving DecidableEq

def dsnItem (now : Micros) (kind : DSNKind) (item : QueueItem) (rendered : Rendered) : QueueItem where
  mailFrom := []
  rcptTo := item.mailFrom
  envelopeID := rendered.envelopeID
  bodyBlobHash := rendered.body
  state := .queued
  nextAttemptAt := now
  dsnNotify := dsnNotifyNever
  createdAt := now
  idempotencyKey := dsnKey kind item

structure Emitted where
  row : Nat
  kind : DSNKind
  report : Nat
  deriving DecidableEq

structure Reporting where
  system : System
  /-- The workers that are about to report a completion. -/
  due : List (QueueItem × DSNKind) := []
  emitted : List Emitted := []

namespace Reporting

/-- Nothing is added when the report cannot be rendered or the store fails, or when
its key is taken. -/
def emitDSN (now : Micros) (item : QueueItem) (kind : DSNKind) (rendered : Option Rendered)
    (reporting : Reporting) : Reporting :=
  if item.mailFrom = [] then reporting
  else
    match rendered with
    | none => reporting
    | some rendered =>
      match reporting.system.store.enqueueMessage now (dsnItem now kind item rendered) with
      | .error _ => reporting
      | .ok (id, store) =>
        { reporting with
          system := { reporting.system with store }
          emitted := reporting.emitted ++ [⟨item.id, kind, id⟩] }

/-- The report a settling worker owes once its completion is committed. -/
def owed (options : Options) (system : System) : Action → List (QueueItem × DSNKind)
  | .settle index now false =>
    match system.workers[index]? with
    | some ⟨item, .settling outcome⟩ =>
      match System.settlement options now item outcome system.store with
      | some (.ok _, _) => ((closingReport options item outcome).map fun kind => (item, kind)).toList
      | _ => []
    | _ => []
  | _ => []

inductive Act where
  | queue (action : Action)
  /-- A worker reports a delay before it puts its row back. -/
  | reportDelay (worker : Nat) (now : Micros) (rendered : Option Rendered)
  | reportDue (index : Nat) (now : Micros) (rendered : Option Rendered)

def step (options : Options) (threshold : Micros) (reporting : Reporting) : Act → Option Reporting
  | .queue action =>
    (reporting.system.step options action).map fun system =>
      { reporting with
        system
        -- what a worker had still to report is lost with the process
        due := match action with
          | .restart => []
          | _ => reporting.due ++ owed options reporting.system action }
  | .reportDelay worker now rendered =>
    match reporting.system.workers[worker]? with
    | some ⟨item, .settling outcome⟩ =>
      if delayDue options threshold now item outcome then some (reporting.emitDSN now item
        .delay rendered)
      else none
    | _ => none
  | .reportDue index now rendered =>
    match reporting.due[index]? with
    | some (item, kind) =>
      some ({ reporting with due := reporting.due.eraseIdx index }.emitDSN now item kind rendered)
    | none => none

def keepsRows (options : Options) (threshold : Micros) (reporting : Reporting) (act : Act) : Bool :=
  match step options threshold reporting act with
  | some next =>
    reporting.system.store.queue.rows.all fun row => (next.system.store.queue.find? row.id).isSome
  | none => true

def machine (options : Options) (threshold : Micros) : Machine Reporting Act where
  step := step options threshold

end Reporting

/-- The rows that are still there have the addresses and the key they had. -/
def Carries (before after : Store) : Prop :=
  ∀ id old row, before.queue.find? id = some old → after.queue.find? id = some row →
    row.mailFrom = old.mailFrom ∧ row.rcptTo = old.rcptTo ∧ row.idempotencyKey = old.idempotencyKey

theorem carries_refl (store : Store) : Carries store store := by
  intro id old row found again
  cases found.symm.trans again
  exact ⟨rfl, rfl, rfl⟩

theorem carries_update (store after : Store) (change : RowUpdate) (chosen : QueueItem → Bool)
    (updated : after.queue = store.queue.update change chosen) : Carries store after := by
  intro id old row found again
  rw [updated, QueueTable.find_update, found, Option.map_some] at again
  cases again
  unfold QueueTable.updateRow
  split
  · exact ⟨(change.keepsEnvelope old).1, (change.keepsEnvelope old).2, change.keepsKey old⟩
  · exact ⟨rfl, rfl, rfl⟩

theorem transaction_carries (store next : Store) (transaction : Store.Transaction store next) :
    Carries store next := by
  cases transaction with
  | enqueue now item newID next stored =>
    obtain ⟨_, free, rfl⟩ := Store.enqueue_ok now item store next newID stored
    intro id old row found again
    have issued := QueueTable.find_some_issued store.queue id old found
    rw [QueueTable.find_insert, if_neg (Nat.ne_of_lt issued)] at again
    exact carries_refl store id old row found again
  | claim now max => exact carries_update _ _ _ _ rfl
  | update target change next updated =>
    exact carries_update _ _ _ _ (Store.update_queue updated)
  | complete now target success errMsg next completed =>
    obtain ⟨_, _, rfl⟩ := Store.complete_ok now target success errMsg store next completed
    exact carries_update _ _ _ _ rfl
  | delete now target next deleted =>
    obtain ⟨_, _, rfl⟩ := Store.delete_ok now target store next deleted
    intro id old row found again
    rw [QueueTable.find_delete] at again
    split at again
    · cases again
    · exact carries_refl store id old row found again

/-- The row of the item is there, with the item's addresses. -/
def Copied (store : Store) (item : QueueItem) : Prop :=
  ∃ row, store.queue.find? item.id = some row ∧ row.mailFrom = item.mailFrom ∧ row.rcptTo = item.rcptTo

/-- The rows a worker or the scheduler holds after a step were held before it or
have just been claimed. -/
theorem step_held (options : Options) (system next : System) (action : Action)
    (ran : system.step options action = some next) :
    (∀ worker ∈ next.workers, worker.item ∈ system.scheduler.batch ∨
        ∃ old ∈ system.workers, old.item = worker.item) ∧
      ∀ item ∈ next.scheduler.batch, item ∈ system.scheduler.batch ∨ Copied system.store item := by
  have same (workers : next.workers = system.workers)
      (batch : ∀ item ∈ next.scheduler.batch, item ∈ system.scheduler.batch) :
      (∀ worker ∈ next.workers, worker.item ∈ system.scheduler.batch ∨
          ∃ old ∈ system.workers, old.item = worker.item) ∧
        ∀ item ∈ next.scheduler.batch, item ∈ system.scheduler.batch ∨ Copied system.store item :=
    ⟨fun worker member => Or.inr ⟨worker, workers ▸ member, rfl⟩,
      fun item member => Or.inl (batch item member)⟩
  have phased (index : Nat) (item : QueueItem) (old new : Phase)
      (found : system.workers[index]? = some ⟨item, old⟩)
      (workers : next.workers = system.workers.set index ⟨item, new⟩)
      (scheduler : next.scheduler = system.scheduler) :
      (∀ worker ∈ next.workers, worker.item ∈ system.scheduler.batch ∨
          ∃ old ∈ system.workers, old.item = worker.item) ∧
        ∀ item ∈ next.scheduler.batch, item ∈ system.scheduler.batch ∨ Copied system.store item := by
    refine ⟨fun worker member => Or.inr ?_, fun item member => Or.inl (scheduler ▸ member)⟩
    rw [workers] at member
    rcases List.mem_or_eq_of_mem_set member with kept | rfl
    · exact ⟨worker, kept, rfl⟩
    · exact ⟨⟨item, old⟩, List.mem_of_getElem? found, rfl⟩
  cases action with
  | listStale failed =>
    simp only [System.step] at ran
    split at ran
    · cases ran
      exact same rfl (by cases failed <;> simp [Scheduler.batch])
    · cases ran
  | sweepNext now failed =>
    rcases System.sweep_next_cases options now failed system next ran with
      ⟨_, rfl⟩ | ⟨row, rows, _, ⟨_, rfl⟩ | ⟨_, rfl⟩⟩
    · exact same rfl (by simp [Scheduler.batch])
    · exact same rfl (by simp [Scheduler.batch])
    · exact same (by simp) (by simp [Scheduler.batch])
  | claim now failed =>
    rcases System.claim_cases options now failed system next ran with ⟨_, rfl | ⟨budget, rfl⟩⟩
    · exact same rfl fun _ member => member
    · refine ⟨fun worker member => Or.inr ⟨worker, member, rfl⟩, fun item member => Or.inr ?_⟩
      obtain ⟨row, found, _, rfl⟩ := Store.claimed_item_found now budget system.store item member
      exact ⟨row, found, rfl, rfl⟩
  | dispatchNext now shutdown failed =>
    rcases System.dispatch_next_cases options now shutdown failed system next ran with
      ⟨_, rfl⟩ | ⟨item, batch, listed, ⟨_, rfl⟩ | ⟨_, rfl⟩ | rfl⟩
    · exact same rfl (by simp [Scheduler.batch])
    · exact same (by simp) (by simp [Scheduler.batch])
    · refine same (by simp) fun other member => ?_
      rw [System.commit_scheduler] at member
      rw [listed]
      exact List.mem_cons_of_mem item member
    · refine ⟨fun worker member => ?_, fun other member => Or.inl ?_⟩
      · rcases List.mem_append.mp member with kept | started
        · exact Or.inr ⟨worker, kept, rfl⟩
        · cases List.mem_singleton.mp started
          rw [listed]
          exact Or.inl List.mem_cons_self
      · rw [listed]
        exact List.mem_cons_of_mem item member
  | prepare index preparation =>
    rcases System.prepare_cases index preparation system next ran with
      ⟨item, found, ⟨_, rfl⟩ | ⟨outcome, _, rfl⟩⟩
    · exact phased index item _ _ found rfl rfl
    · exact phased index item _ _ found rfl rfl
  | deliverReturns index outcome error =>
    obtain ⟨item, found, rfl⟩ := System.deliver_returns_cases index outcome error system next ran
    exact phased index item _ _ found rfl rfl
  | settle index now failed =>
    rcases System.settle_cases options index now failed system next ran with
      ⟨item, outcome, found, rfl | ⟨store, event, _, rfl⟩⟩
    · exact phased index item _ _ found rfl rfl
    · exact phased index item _ _ found rfl rfl
  | exit index =>
    obtain ⟨item, _, rfl⟩ := System.exit_cases index system next ran
    refine ⟨fun worker member => Or.inr ⟨worker, List.mem_of_mem_eraseIdx member, rfl⟩,
      fun item member => Or.inl member⟩
  | enqueue | retryQueueItem | holdQueueItem | releaseQueueItem | deleteQueueItem =>
    simp only [System.step, Option.some.injEq] at ran
    subst ran
    exact same (by simp) (by simp)
  | flushStart | cancelStart =>
    simp only [System.step, Option.some.injEq] at ran
    subst ran
    exact same rfl fun _ member => member
  | flushNext index failed =>
    obtain ⟨call, row, pending, flushes, _, _, rfl⟩ :=
      System.flush_next_cases index failed system next ran
    exact same (by simp) (by simp)
  | flushPage index =>
    obtain ⟨flushes, rfl⟩ := System.flush_page_cases index system next ran
    exact same rfl fun _ member => member
  | cancelNext index now failed =>
    rcases System.cancel_next_cases index now failed system next ran with
      ⟨cancels, rfl | ⟨id, store, _, _, rfl⟩⟩
    · exact same rfl fun _ member => member
    · exact same rfl fun _ member => member
  | restart =>
    simp only [System.step, Option.some.injEq] at ran
    subst ran
    exact ⟨by simp [System.start], by simp [System.start, Scheduler.batch]⟩

namespace Reporting

/-- What a worker, the scheduler or a report under way holds a copy of. -/
def Held (reporting : Reporting) (item : QueueItem) : Prop :=
  item ∈ reporting.system.scheduler.batch ∨ (∃ worker ∈ reporting.system.workers, worker.item = item) ∨
    ∃ kind, (item, kind) ∈ reporting.due

/-- A report stands in the queue under its key, about a row with a sender. -/
def Stands (store : Store) (emitted : Emitted) : Prop :=
  ∃ item, Copied store item ∧ item.id = emitted.row ∧ item.mailFrom ≠ [] ∧
    ∃ report, store.queue.find? emitted.report = some report ∧ report.mailFrom = [] ∧
      report.idempotencyKey = dsnKey emitted.kind item

structure Bounded (reporting : Reporting) : Prop where
  copied : ∀ item, reporting.Held item → Copied reporting.system.store item
  stands : ∀ emitted ∈ reporting.emitted, Stands reporting.system.store emitted
  distinct : (reporting.emitted.map fun emitted => (emitted.row, emitted.kind)).Nodup

section

variable {before after : Store} (carries : Carries before after)
  (kept : ∀ row ∈ before.queue.rows, (after.queue.find? row.id).isSome)

include carries kept

theorem row_carried {id : Nat} {old : QueueItem} (found : before.queue.find? id = some old) :
    ∃ row, after.queue.find? id = some row ∧ row.mailFrom = old.mailFrom ∧ row.rcptTo = old.rcptTo ∧
      row.idempotencyKey = old.idempotencyKey := by
  have present := kept old (QueueTable.find_some_member before.queue id old found)
  rw [QueueTable.find_some_id before.queue id old found] at present
  obtain ⟨row, again⟩ := Option.isSome_iff_exists.mp present
  exact ⟨row, again, carries id old row found again⟩

theorem copied_carried {item : QueueItem} (copied : Copied before item) : Copied after item := by
  obtain ⟨old, found, sender, recipient⟩ := copied
  obtain ⟨row, again, sameSender, sameRecipient, _⟩ := row_carried carries kept found
  exact ⟨row, again, sameSender.trans sender, sameRecipient.trans recipient⟩

theorem stands_carried {emitted : Emitted} (stands : Stands before emitted) : Stands after emitted := by
  obtain ⟨item, copied, same, sender, report, found, null, key⟩ := stands
  obtain ⟨row, again, sameSender, _, sameKey⟩ := row_carried carries kept found
  exact ⟨item, copied_carried carries kept copied, same, sender, row, again, sameSender.trans null,
    sameKey.trans key⟩

end

theorem dsn_key_nonempty (kind : DSNKind) (item : QueueItem) : dsnKey kind item ≠ [] := by
  intro empty
  have size := congrArg List.length empty
  simp [dsnKey, ascii] at size

/-- A second report about the same row and of the same kind has the key of the first. -/
theorem stands_key {store : Store} {emitted : Emitted} (stands : Stands store emitted)
    (item : QueueItem)
    (copied : Copied store item) (same : emitted.row = item.id) :
    ∃ report ∈ store.queue.rows, report.idempotencyKey = dsnKey emitted.kind item := by
  obtain ⟨other, ⟨row, found, _, recipient⟩, otherRow, _, report, standing, _, key⟩ := stands
  obtain ⟨again, foundAgain, _, recipientAgain⟩ := copied
  rw [otherRow, same, foundAgain] at found
  cases found
  refine ⟨report, QueueTable.find_some_member _ _ _ standing, ?_⟩
  rw [key, dsnKey, dsnKey, otherRow, same, ← recipient, ← recipientAgain]

theorem emit_bounded {reporting : Reporting} (bounded : Bounded reporting) (now : Micros)
    (item : QueueItem)
    (copied : Copied reporting.system.store item) (kind : DSNKind) (rendered : Option Rendered) :
    Bounded (reporting.emitDSN now item kind rendered) := by
  unfold emitDSN
  split
  case isTrue => exact bounded
  case isFalse sender =>
    split
    · exact bounded
    · rename_i rendered
      split
      · exact bounded
      · rename_i id store stored
        obtain ⟨rfl, free, rfl⟩ := Store.enqueue_ok now _ _ _ _ stored
        have carries := transaction_carries _ _ (.enqueue now _ _ _ stored)
        have kept : ∀ row ∈ reporting.system.store.queue.rows,
            ((reporting.system.store.queue.insert _ free).find? row.id).isSome := by
          intro row member
          rw [QueueTable.find_insert,
            if_neg (Nat.ne_of_lt (reporting.system.store.queue.issued row member)),
            QueueTable.find_of_member _ row member]
          rfl
        refine ⟨fun other held => copied_carried carries kept (bounded.copied other held), ?_, ?_⟩
        · intro emitted member
          rcases List.mem_append.mp member with earlier | new
          · exact stands_carried carries kept (bounded.stands emitted earlier)
          · cases List.mem_singleton.mp new
            refine ⟨item, copied_carried carries kept copied, rfl, sender,
              { Store.enqueuedRow now (dsnItem now kind item rendered) with
                id := reporting.system.store.queue.nextID }, ?_, rfl, rfl⟩
            rw [QueueTable.find_insert, if_pos rfl]
        · rw [List.map_append, List.nodup_append_comm]
          refine List.nodup_cons.mpr ⟨fun repeated => ?_, bounded.distinct⟩
          obtain ⟨earlier, member, same⟩ := List.mem_map.mp repeated
          rw [Prod.mk.injEq] at same
          obtain ⟨report, standing, key⟩ :=
            stands_key (bounded.stands earlier member) item copied same.1
          have absent := free (dsn_key_nonempty kind item)
          rw [QueueTable.findKey?, List.find?_eq_none] at absent
          exact absent report standing (by simpa [same.2, Store.enqueuedRow, dsnItem] using key)

theorem owed_held {options : Options} {system : System} {action : Action} {item : QueueItem}
    {kind : DSNKind}
    (member : (item, kind) ∈ owed options system action) :
      ∃ worker ∈ system.workers, worker.item = item := by
  unfold owed at member
  split at member
  · split at member
    · rename_i found
      split at member
      · simp only [Option.mem_toList, Option.map_eq_some_iff, Prod.mk.injEq] at member
        obtain ⟨_, _, rfl, _⟩ := member
        exact ⟨_, List.mem_of_getElem? found, rfl⟩
      · cases member
    · cases member
  · cases member

theorem step_bounded {options : Options} {threshold : Micros} {reporting next : Reporting} {act : Act}
    (bounded : Bounded reporting) (unpurged : keepsRows options threshold reporting act = true)
    (ran : step options threshold reporting act = some next) : Bounded next := by
  rw [keepsRows, ran] at unpurged
  simp only [List.all_eq_true] at unpurged
  cases act with
  | queue action =>
    simp only [step, Option.map_eq_some_iff] at ran
    obtain ⟨system, stepped, rfl⟩ := ran
    have carries : Carries reporting.system.store system.store := by
      rcases System.step_store options _ _ action stepped with same | transaction
      · rw [same]
        exact carries_refl _
      · exact transaction_carries _ _ transaction
    obtain ⟨workers, batch⟩ := step_held options _ _ action stepped
    refine ⟨fun item held => ?_, fun emitted member =>
      stands_carried carries unpurged (bounded.stands emitted member), bounded.distinct⟩
    have earlier : Copied reporting.system.store item := by
      rcases held with claimed | ⟨worker, member, rfl⟩ | ⟨kind, member⟩
      · rcases batch item claimed with before | copied
        · exact bounded.copied item (Or.inl before)
        · exact copied
      · rcases workers worker member with claimed | ⟨old, before, same⟩
        · exact bounded.copied _ (Or.inl claimed)
        · exact bounded.copied _ (Or.inr (Or.inl ⟨old, before, same⟩))
      · have due : (item, kind) ∈ reporting.due ++ owed options reporting.system action := by
          cases action with
          | restart => cases member
          | _ => exact member
        rcases List.mem_append.mp due with before | new
        · exact bounded.copied _ (Or.inr (Or.inr ⟨kind, before⟩))
        · exact bounded.copied _ (Or.inr (Or.inl (owed_held new)))
    exact copied_carried carries unpurged earlier
  | reportDelay worker now rendered =>
    simp only [step] at ran
    split at ran
    · rename_i item outcome found
      split at ran
      · cases ran
        exact emit_bounded bounded now item
          (bounded.copied item (Or.inr (Or.inl ⟨_, List.mem_of_getElem? found, rfl⟩))) .delay rendered
      · cases ran
    · cases ran
  | reportDue index now rendered =>
    simp only [step] at ran
    split at ran
    · rename_i item kind found
      cases ran
      have taken : Bounded { reporting with due := reporting.due.eraseIdx index } := by
        refine ⟨fun other held => bounded.copied other ?_, bounded.stands, bounded.distinct⟩
        rcases held with claimed | working | ⟨otherKind, member⟩
        · exact Or.inl claimed
        · exact Or.inr (Or.inl working)
        · exact Or.inr (Or.inr ⟨otherKind, List.mem_of_mem_eraseIdx member⟩)
      exact emit_bounded taken now item
        (bounded.copied item (Or.inr (Or.inr ⟨kind, List.mem_of_getElem? found⟩))) kind rendered
    · cases ran

def otherRows (reporting : Reporting) : List QueueItem :=
  reporting.system.store.queue.rows.filter fun row =>
    !(reporting.emitted.map Emitted.report).contains row.id

theorem reports_about_others {reporting : Reporting} (bounded : Bounded reporting) (emitted : Emitted)
    (member : emitted ∈ reporting.emitted) :
    ∃ row ∈ reporting.otherRows, row.id = emitted.row ∧ row.mailFrom ≠ [] := by
  obtain ⟨item, ⟨row, found, sender, _⟩, same, sent, _⟩ := bounded.stands emitted member
  rw [same] at found
  have here := QueueTable.find_some_id _ _ _ found
  refine ⟨row, List.mem_filter.mpr ⟨QueueTable.find_some_member _ _ _ found, ?_⟩, here, sender ▸ sent⟩
  simp only [Bool.not_eq_true', List.contains_eq_mem, decide_eq_false_iff_not, List.mem_map, not_exists,
    not_and]
  intro report reported names
  obtain ⟨_, _, _, _, standing, found', null, _⟩ := bounded.stands report reported
  rw [names, here, found] at found'
  cases found'
  exact sent (sender.symm.trans null)

/-- In every run that purges no row, however deliveries, retries, workers and restarts
are interleaved: each row has at most one report of each kind, no report is about a
row with a null sender or about a report, and there are at most three for each row
that is not one. -/
theorem reports_bounded (options : Options) (threshold : Micros) (store : Store) (acts : List Act)
    (final : Reporting)
    (unpurged : (machine options threshold).Meets
      (fun reporting act => keepsRows options threshold reporting act = true)
      ⟨.start store, [], []⟩ acts)
    (ran : (machine options threshold).execute ⟨.start store, [], []⟩ acts = some final) :
    (final.emitted.map fun emitted => (emitted.row, emitted.kind)).Nodup ∧
      (∀ emitted ∈ final.emitted, ∃ row ∈ final.otherRows, row.id = emitted.row ∧ row.mailFrom ≠ []) ∧
      final.emitted.length ≤ 3 * final.otherRows.length := by
  have start : Bounded ⟨.start store, [], []⟩ := by
    refine ⟨?_, by simp, List.nodup_nil⟩
    rintro item (claimed | ⟨_, working, _⟩ | ⟨_, due⟩)
    · cases claimed
    · cases working
    · cases due
  have bounded := (machine options threshold).meets_keeps _ Bounded
    (fun reporting act next holds allowed stepped => step_bounded holds allowed stepped)
    acts _ final start unpurged ran
  refine ⟨bounded.distinct, reports_about_others bounded, ?_⟩
  have subset : (final.emitted.map fun emitted => (emitted.row, emitted.kind)) ⊆
      (final.otherRows.map QueueItem.id) ×ˢ [DSNKind.success, .failure, .delay] := by
    intro pair member
    obtain ⟨emitted, inside, rfl⟩ := List.mem_map.mp member
    obtain ⟨row, other, same, _⟩ := reports_about_others bounded emitted inside
    refine List.mem_product.mpr ⟨List.mem_map.mpr ⟨row, other, same⟩, ?_⟩
    cases emitted.kind <;> simp
  have size := (List.subperm_of_subset bounded.distinct subset).length_le
  rw [List.length_product, List.length_map, List.length_map] at size
  simpa [Nat.mul_comm] using size

def refusedRow : List Act :=
  ([.enqueue 10 { mailFrom := ascii "a@x", rcptTo := ascii "b@y" }, .listStale false,
    .sweepNext 20 false,
    .claim 20 false, .dispatchNext 20 false false, .prepare 0 .ready,
    .deliverReturns 0 { status := .permanent } none, .settle 0 20 false] : List Action).map .queue ++
      [.reportDue 0 20 (some ⟨[1], [2]⟩)]

/-- A row that is refused for good is reported once. -/
theorem reports_bounded_of_refused_row :
    ∃ final, (machine ⟨1, 1, 1, none⟩ 60).execute ⟨.start Store.empty, [], []⟩ refusedRow = some final ∧
      final.emitted = [⟨1, .failure, 2⟩] ∧ final.emitted.length ≤ 3 * final.otherRows.length := by
  refine ⟨_, rfl, rfl, ?_⟩
  exact (reports_bounded ⟨1, 1, 1, none⟩ 60 Store.empty refusedRow _ (by decide +kernel) rfl).2.2

end Reporting

end Herold.Queue

import Herold.Go.Decimal
import Herold.Store.Queue

/-!
# Submission to the queue

`Queue.Submit` stores the body once and then enqueues one row per recipient,
each in a transaction of its own. What the world answers during one call (the
clocks, the header strip, the blob store, the random envelope identifier, which
enqueue fails) is an `Attempt`; the in-memory signing sidecar and the wake-up
of the scheduler touch no row and are left out.
-/

namespace Herold.Queue

open Herold.Go Herold.Store

structure Submission where
  principalID : Option Nat := none
  mailFrom : Bytes
  recipients : List Bytes
  body : Option Bytes := some []
  headers : Bytes := []
  dsnNotify : Nat := 0
  dsnRet : Nat := 0
  dsnEnvelopeID : Bytes := []
  idempotencyKey : Bytes := []
  sendAt : Micros := 0
  headerOverlay : Bytes := []

structure Attempt where
  now : Micros
  storeNow : Micros
  /-- `stripXHeroldRecipientStreaming` followed by the unread tail. -/
  strip : Bytes → Option Bytes
  /-- `NormalizeMessageID (ExtractMessageID …)`. -/
  messageIDOf : Bytes → Bytes
  putBlob : Bytes → Option Bytes
  newEnvelopeID : Option Bytes
  enqueueFails : Nat → Bool
  lookupFails : Bool

inductive SubmitError where
  | noRecipients
  | nilBody
  | stripHeader
  | persistBody
  | persistHeaders
  | envelopeID
  | idempotentLookup
  | enqueueRcpt (rcpt : Bytes) (cause : StoreError)
  /-- `ErrConflict`, returned beside the earlier envelope identifier. -/
  | conflict (prior : Bytes)
  deriving DecidableEq

structure Prepared where
  envelopeID : Bytes
  bodyHash : Bytes
  headersHash : Bytes
  messageID : Bytes

def persistHeaders (attempt : Attempt) (headers : Bytes) : Option Bytes :=
  if headers = [] then some [] else attempt.putBlob headers

def prepare (attempt : Attempt) (submission : Submission) : Except SubmitError Prepared :=
  if submission.recipients = [] then .error .noRecipients
  else match submission.body with
    | none => .error .nilBody
    | some body => match attempt.strip body with
      | none => .error .stripHeader
      | some stripped => match attempt.putBlob stripped with
        | none => .error .persistBody
        | some bodyHash => match persistHeaders attempt submission.headers with
          | none => .error .persistHeaders
          | some headersHash => match attempt.newEnvelopeID with
            | none => .error .envelopeID
            | some envelopeID =>
              let messageID := attempt.messageIDOf stripped
              .ok { envelopeID, bodyHash, headersHash, messageID }

/-- The first row carries the submission's key, row `i` the key, `#` and `i`. -/
def recipientKey (key : Bytes) (index : Nat) : Bytes :=
  if key = [] then []
  else if index = 0 then key
  else key ++ ascii "#" ++ decimal index

def submitNextAttempt (attempt : Attempt) (submission : Submission) : Micros :=
  if submission.sendAt ≠ 0 ∧ attempt.now < submission.sendAt then submission.sendAt
  else attempt.now

def submittedItem (attempt : Attempt) (submission : Submission) (prepared : Prepared)
    (index : Nat) (rcpt : Bytes) : QueueItem where
  principalID := submission.principalID.getD 0
  mailFrom := toLower (trimSpace submission.mailFrom)
  rcptTo := toLower (trimSpace rcpt)
  envelopeID := prepared.envelopeID
  bodyBlobHash := prepared.bodyHash
  headersBlobHash := prepared.headersHash
  state := .queued
  nextAttemptAt := submitNextAttempt attempt submission
  dsnNotify := submission.dsnNotify
  dsnRet := submission.dsnRet
  dsnEnvID := submission.dsnEnvelopeID
  idempotencyKey := recipientKey submission.idempotencyKey index
  createdAt := attempt.now
  headerOverlay := submission.headerOverlay
  messageID := prepared.messageID

/-- The error of a failed enqueue. Only a conflict on the first row of a keyed
submission is reported as `ErrConflict`. -/
def enqueueError (attempt : Attempt) (submission : Submission) (store : Store) (index : Nat)
    (rcpt : Bytes) : StoreError → SubmitError
  | .conflict id =>
    if submission.idempotencyKey ≠ [] ∧ index = 0 then
      if attempt.lookupFails then .idempotentLookup
      else match store.getQueueItem id with
        | .ok existing => .conflict existing.envelopeID
        | .error _ => .idempotentLookup
    else .enqueueRcpt rcpt (.conflict id)
  | cause => .enqueueRcpt rcpt cause

def tryEnqueue (attempt : Attempt) (index : Nat) (item : QueueItem) (store : Store) :
    Except StoreError (Nat × Store) :=
  if attempt.enqueueFails index then .error .failed
  else store.enqueueMessage attempt.storeNow item

/-- The per-recipient loop, from the recipient at `index` on. -/
def enqueueRecipients (attempt : Attempt) (submission : Submission) (prepared : Prepared) :
    Nat → List Bytes → Store → Except SubmitError Unit × Store
  | _, [], store => (.ok (), store)
  | index, rcpt :: rest, store =>
    match tryEnqueue attempt index (submittedItem attempt submission prepared index rcpt) store with
    | .ok (_, next) => enqueueRecipients attempt submission prepared (index + 1) rest next
    | .error cause => (.error (enqueueError attempt submission store index rcpt cause), store)

def submit (attempt : Attempt) (submission : Submission) (store : Store) :
    Except SubmitError Bytes × Store :=
  match prepare attempt submission with
  | .error cause => (.error cause, store)
  | .ok prepared =>
    match enqueueRecipients attempt submission prepared 0 submission.recipients store with
    | (.ok (), next) => (.ok prepared.envelopeID, next)
    | (.error cause, next) => (.error cause, next)

/-- The caller repeats the call until it returns nil or `ErrConflict`. -/
def submitUntilSettled (submission : Submission) : List Attempt → Store → Option Store
  | [], _ => none
  | attempt :: attempts, store =>
    match submit attempt submission store with
    | (.ok _, next) => some next
    | (.error (.conflict _), next) => some next
    | (.error _, next) => submitUntilSettled submission attempts next

def storedAddress (address : Bytes) : Bytes := toLower (toLower (trimSpace address))

def createdRows (start final : Store) : List QueueItem :=
  final.queue.rows.filter fun row => start.queue.nextID ≤ row.id

/-- The later store keeps every row of the earlier one and adds some after them. -/
structure Extends (store next : Store) (added : List QueueItem) : Prop where
  rows : next.queue.rows = store.queue.rows ++ added
  nextID : store.queue.nextID ≤ next.queue.nextID
  fresh : ∀ row ∈ added, store.queue.nextID ≤ row.id

section

variable (attempt : Attempt) (submission : Submission) (attempts : List Attempt)
  (start final : Store) (prepared : Prepared) (store : Store) (index : Nat)

theorem extends_refl : Extends store store [] where
  rows := (List.append_nil _).symm
  nextID := Nat.le_refl _
  fresh := by simp

theorem extends_trans (first second third : Store) (before after : List QueueItem)
    (earlier : Extends first second before) (later : Extends second third after) :
    Extends first third (before ++ after) where
  rows := by rw [later.rows, earlier.rows, List.append_assoc]
  nextID := Nat.le_trans earlier.nextID later.nextID
  fresh := by
    intro row member
    rcases List.mem_append.mp member with old | new
    · exact earlier.fresh row old
    · exact Nat.le_trans earlier.nextID (later.fresh row new)

theorem created_rows_of_extends (added : List QueueItem)
    (grown : Extends start final added) : createdRows start final = added := by
  have oldDropped : start.queue.rows.filter (fun row => start.queue.nextID ≤ row.id) = [] := by
    rw [List.filter_eq_nil_iff]
    intro row member
    have small := start.queue.issued row member
    simp only [decide_eq_true_eq, not_le]
    exact small
  have newKept : added.filter (fun row => start.queue.nextID ≤ row.id) = added := by
    rw [List.filter_eq_self]
    intro row member
    simpa using grown.fresh row member
  rw [createdRows, grown.rows, List.filter_append, oldDropped, newKept, List.nil_append]

theorem try_enqueue_ok (item : QueueItem) (store next : Store)
    (id : Nat) (stored : tryEnqueue attempt index item store = .ok (id, next)) :
    attempt.enqueueFails index = false ∧
      store.enqueueMessage attempt.storeNow item = .ok (id, next) := by
  unfold tryEnqueue at stored
  split at stored
  · cases stored
  case isFalse works => exact ⟨by simpa using works, stored⟩

theorem enqueue_extends (rcpt : Bytes) (store next : Store) (id : Nat)
    (stored : store.enqueueMessage attempt.storeNow
      (submittedItem attempt submission prepared index rcpt) = .ok (id, next)) :
    ∃ row, Extends store next [row] ∧ row.rcptTo = storedAddress rcpt ∧
      row.mailFrom = storedAddress submission.mailFrom := by
  obtain ⟨_, free, rfl⟩ := Store.enqueue_ok _ _ store next id stored
  refine ⟨_, ⟨rfl, Nat.le_succ _, ?_⟩, rfl, rfl⟩
  intro row member
  rw [List.mem_singleton] at member
  exact Nat.le_of_eq (congrArg QueueItem.id member).symm

/-- The loop stores a first part of the recipients, in order, and stops at the
first one it cannot store. -/
theorem enqueue_recipients_extends (recipients : List Bytes) (store next : Store)
    (result : Except SubmitError Unit)
    (ran : enqueueRecipients attempt submission prepared index recipients store =
      (result, next)) :
    ∃ stored unstored added, recipients = stored ++ unstored ∧ Extends store next added ∧
      added.map QueueItem.rcptTo = stored.map storedAddress ∧
        (∀ row ∈ added, row.mailFrom = storedAddress submission.mailFrom) ∧
          (result = .ok () ↔ unstored = []) := by
  induction recipients generalizing index store with
  | nil =>
    simp only [enqueueRecipients, Prod.mk.injEq] at ran
    obtain ⟨rfl, rfl⟩ := ran
    exact ⟨[], [], [], rfl, extends_refl store, rfl, by simp, by simp⟩
  | cons rcpt recipients ih =>
    rw [enqueueRecipients] at ran
    split at ran
    case h_1 id middle tried =>
      obtain ⟨_, enqueued⟩ := try_enqueue_ok _ _ _ _ _ _ tried
      obtain ⟨row, grown, rowRcpt, rowFrom⟩ :=
        enqueue_extends attempt submission prepared index rcpt store middle id enqueued
      obtain ⟨stored, unstored, added, split, later, addresses, senders, finished⟩ :=
        ih (index + 1) middle ran
      refine ⟨rcpt :: stored, unstored, [row] ++ added, by rw [split, List.cons_append],
        extends_trans store middle next [row] added grown later, ?_, ?_, finished⟩
      · simp [rowRcpt, addresses]
      · intro other member
        rcases List.mem_append.mp member with this | later
        · rw [List.mem_singleton.mp this]
          exact rowFrom
        · exact senders other later
    case h_2 cause refused =>
      simp only [Prod.mk.injEq] at ran
      obtain ⟨rfl, rfl⟩ := ran
      exact ⟨[], rcpt :: recipients, [], rfl, extends_refl store, rfl, by simp, by simp⟩

theorem recipient_key_nonempty (key : Bytes) (keyed : key ≠ []) (index : Nat) :
    recipientKey key index ≠ [] := by
  unfold recipientKey
  rw [if_neg keyed]
  split
  · exact keyed
  · simp [keyed]

theorem recipient_key_injective (key : Bytes) (keyed : key ≠ []) :
    Function.Injective (recipientKey key) := by
  intro left right same
  by_cases leftFirst : left = 0
  · by_cases rightFirst : right = 0
    · rw [leftFirst, rightFirst]
    · have longer := congrArg List.length same
      simp [recipientKey, keyed, leftFirst, rightFirst, ascii] at longer
  · by_cases rightFirst : right = 0
    · have longer := congrArg List.length same
      simp [recipientKey, keyed, leftFirst, rightFirst, ascii] at longer
    · simp only [recipientKey, keyed, leftFirst, rightFirst, if_false, List.append_cancel_left_eq,
        List.append_assoc] at same
      exact decimal_injective same

/-- The loop finishes exactly when no enqueue fails and no key it is about to
use is taken before it starts. -/
theorem enqueue_recipients_finishes (keyed : submission.idempotencyKey ≠ []) (index : Nat)
    (recipients : List Bytes) (store : Store) :
    (enqueueRecipients attempt submission prepared index recipients store).1 = .ok () ↔
      ∀ offset < recipients.length, attempt.enqueueFails (index + offset) = false ∧
        store.queue.findKey? (recipientKey submission.idempotencyKey (index + offset)) = none := by
  induction recipients generalizing index store with
  | nil => simp [enqueueRecipients]
  | cons rcpt recipients ih =>
    let item := submittedItem attempt submission prepared index rcpt
    have itemKeyed : item.idempotencyKey ≠ [] :=
      recipient_key_nonempty submission.idempotencyKey keyed index
    rw [enqueueRecipients, List.length_cons, Nat.forall_lt_succ_left]
    cases tried : tryEnqueue attempt index item store with
    | ok pair =>
      obtain ⟨id, next⟩ := pair
      obtain ⟨works, enqueued⟩ := try_enqueue_ok attempt index item store next id tried
      obtain ⟨_, free, nextIs⟩ := Store.enqueue_ok _ _ store next id enqueued
      have here : attempt.enqueueFails (index + 0) = false ∧ store.queue.findKey?
          (recipientKey submission.idempotencyKey (index + 0)) = none :=
        ⟨works, free itemKeyed⟩
      have unchanged : ∀ offset,
          next.queue.findKey? (recipientKey submission.idempotencyKey (index + 1 + offset)) =
            store.queue.findKey?
              (recipientKey submission.idempotencyKey (index + (offset + 1))) := by
        intro offset
        rw [show index + 1 + offset = index + (offset + 1) by omega, nextIs]
        refine QueueTable.find_key_insert store.queue _ free _ ?_
        intro same
        have sameIndex := recipient_key_injective submission.idempotencyKey keyed same
        omega
      simp only [ih, unchanged, here, true_and, and_self]
      simp only [Nat.add_comm 1, Nat.add_assoc]
    | error cause =>
      have blocked : ¬(attempt.enqueueFails (index + 0) = false ∧ store.queue.findKey?
          (recipientKey submission.idempotencyKey (index + 0)) = none) := by
        rintro ⟨works, unused⟩
        have works : attempt.enqueueFails index = false := works
        rw [tryEnqueue, works] at tried
        obtain ⟨_, prior, taken, _⟩ := Store.enqueue_error _ _ store cause tried
        have taken : store.queue.findKey? (recipientKey submission.idempotencyKey index) =
          some prior := taken
        rw [Nat.add_zero, taken] at unused
        cases unused
      simp only [blocked, false_and, reduceCtorEq]

theorem prepare_ok_recipients (ready : prepare attempt submission = .ok prepared) :
    submission.recipients ≠ [] := by
  intro empty
  simp [prepare, empty] at ready

theorem prepare_never_conflicts (prior : Bytes) :
    prepare attempt submission ≠ .error (.conflict prior) := by
  unfold prepare
  repeat' split
  all_goals simp

def storesFirst (submission : Submission) (attempt : Attempt) : Bool :=
  (prepare attempt submission).isOk && !attempt.enqueueFails 0

/-- No row carries the key, and in the call that stores the first recipient no
later enqueue fails and no derived key is in use. -/
def KeepsEveryRecipient (submission : Submission) (attempts : List Attempt) (start : Store) :
    Prop :=
  start.queue.findKey? submission.idempotencyKey = none ∧
    ∀ attempt, attempts.find? (storesFirst submission) = some attempt →
      ∀ index, 1 ≤ index → index < submission.recipients.length →
        attempt.enqueueFails index = false ∧
          start.queue.findKey? (recipientKey submission.idempotencyKey index) = none

theorem submit_taken_unchanged (keyed : submission.idempotencyKey ≠ []) (prior : QueueItem)
    (taken : store.queue.findKey? submission.idempotencyKey = some prior) :
    (∃ cause, submit attempt submission store = (.error cause, store)) := by
  unfold submit
  cases ready : prepare attempt submission with
  | error cause => exact ⟨cause, rfl⟩
  | ok prepared =>
    obtain ⟨rcpt, rest, recipients⟩ :=
      List.exists_cons_of_ne_nil (prepare_ok_recipients attempt submission prepared ready)
    let item := submittedItem attempt submission prepared 0 rcpt
    have itemKey : item.idempotencyKey = submission.idempotencyKey := by
      simp [item, submittedItem, recipientKey]
    have refused : ∃ cause, tryEnqueue attempt 0 item store = .error cause := by
      unfold tryEnqueue
      split
      · exact ⟨_, rfl⟩
      · refine ⟨_, Store.enqueue_conflict attempt.storeNow item store ?_ prior ?_⟩
        · rw [itemKey]
          exact keyed
        · rw [itemKey]
          exact taken
    obtain ⟨cause, refused⟩ := refused
    simp only [recipients, enqueueRecipients]
    rw [show tryEnqueue attempt 0 (submittedItem attempt submission prepared 0 rcpt) store =
      .error cause from refused]
    exact ⟨_, rfl⟩

theorem settled_taken_unchanged (store final : Store) (keyed : submission.idempotencyKey ≠ [])
    (prior : QueueItem)
    (taken : store.queue.findKey? submission.idempotencyKey = some prior)
    (settled : submitUntilSettled submission attempts store = some final) : final = store := by
  induction attempts with
  | nil => cases settled
  | cons attempt attempts ih =>
    obtain ⟨cause, refused⟩ := submit_taken_unchanged attempt submission store keyed prior taken
    rw [submitUntilSettled, refused] at settled
    split at settled
    case h_1 => simp_all
    case h_2 => simp_all
    case h_3 => simp_all

/-- With the key free, a call that does not reach the first recipient's
transaction changes nothing and is repeated. -/
theorem submit_free_skips (skipped : storesFirst submission attempt = false) :
    ∃ cause, submit attempt submission store = (.error cause, store) ∧
      ∀ prior, cause ≠ .conflict prior := by
  unfold submit
  cases ready : prepare attempt submission with
  | error cause =>
    refine ⟨cause, rfl, ?_⟩
    intro prior same
    exact prepare_never_conflicts attempt submission prior (same ▸ ready)
  | ok prepared =>
    have fails : attempt.enqueueFails 0 = true := by
      simpa [storesFirst, ready, Except.isOk, Except.toBool] using skipped
    obtain ⟨rcpt, rest, recipients⟩ :=
      List.exists_cons_of_ne_nil (prepare_ok_recipients attempt submission prepared ready)
    refine ⟨.enqueueRcpt rcpt .failed, ?_, by simp⟩
    simp [recipients, enqueueRecipients, tryEnqueue, fails, enqueueError]

/-- With the key free, a call that reaches the first recipient leaves a row
that carries the key. -/
theorem submit_free_takes_key (keyed : submission.idempotencyKey ≠ [])
    (unused : store.queue.findKey? submission.idempotencyKey = none)
    (stores : storesFirst submission attempt = true) :
    ∃ prior, (submit attempt submission store).2.queue.findKey? submission.idempotencyKey =
      some prior := by
  simp only [storesFirst, Bool.and_eq_true, Bool.not_eq_true'] at stores
  obtain ⟨isReady, works⟩ := stores
  unfold submit
  cases ready : prepare attempt submission with
  | error cause => simp [ready, Except.isOk, Except.toBool] at isReady
  | ok prepared =>
    obtain ⟨rcpt, rest, recipients⟩ :=
      List.exists_cons_of_ne_nil (prepare_ok_recipients attempt submission prepared ready)
    let item := submittedItem attempt submission prepared 0 rcpt
    have itemKey : item.idempotencyKey = submission.idempotencyKey := by
      simp [item, submittedItem, recipientKey]
    cases enqueued : store.enqueueMessage attempt.storeNow item with
    | error cause =>
      obtain ⟨_, prior, taken, _⟩ := Store.enqueue_error _ _ store cause enqueued
      rw [itemKey, unused] at taken
      cases taken
    | ok pair =>
      obtain ⟨id, middle⟩ := pair
      obtain ⟨_, free, middleIs⟩ := Store.enqueue_ok _ _ store middle id enqueued
      have middleKey : ∃ row, middle.queue.findKey? submission.idempotencyKey = some row := by
        rw [middleIs, ← itemKey]
        exact ⟨_, QueueTable.find_key_insert_same store.queue _ free (itemKey ▸ keyed)⟩
      obtain ⟨row, middleKey⟩ := middleKey
      have tried : tryEnqueue attempt 0 item store = .ok (id, middle) := by
        simp [tryEnqueue, works, enqueued]
      simp only [recipients, enqueueRecipients]
      rw [show tryEnqueue attempt 0 (submittedItem attempt submission prepared 0 rcpt) store =
        .ok (id, middle) from tried]
      cases ran : enqueueRecipients attempt submission prepared 1 rest middle with
      | mk result next =>
        obtain ⟨_, _, added, _, grown, _⟩ :=
          enqueue_recipients_extends attempt submission prepared 1 rest middle next result ran
        have kept : next.queue.findKey? submission.idempotencyKey = some row := by
          rw [QueueTable.findKey?] at middleKey
          rw [QueueTable.findKey?, grown.rows, List.find?_append, middleKey, Option.some_or]
        refine ⟨row, ?_⟩
        simp only [Nat.zero_add, ran]
        cases result <;> exact kept

/-- A settled sequence of calls leaves the store as the first call that reached
the first recipient did. -/
theorem settled_free (keyed : submission.idempotencyKey ≠ [])
    (unused : start.queue.findKey? submission.idempotencyKey = none)
    (settled : submitUntilSettled submission attempts start = some final) :
    ∃ attempt, attempts.find? (storesFirst submission) = some attempt ∧
      final = (submit attempt submission start).2 := by
  induction attempts with
  | nil => cases settled
  | cons attempt attempts ih =>
    cases stores : storesFirst submission attempt with
    | false =>
      obtain ⟨cause, refused, notConflict⟩ :=
        submit_free_skips attempt submission start stores
      rw [submitUntilSettled, refused] at settled
      have repeated : submitUntilSettled submission attempts start = some final := by
        cases cause <;> simp_all
      obtain ⟨later, found, finalIs⟩ := ih repeated
      exact ⟨later, by rw [List.find?_cons, stores]; exact found, finalIs⟩
    | true =>
      refine ⟨attempt, by rw [List.find?_cons, stores], ?_⟩
      obtain ⟨prior, taken⟩ :=
        submit_free_takes_key attempt submission start keyed unused stores
      rw [submitUntilSettled] at settled
      split at settled
      case h_1 next ran => rw [ran]; exact (Option.some.inj settled).symm
      case h_2 next ran => rw [ran]; exact (Option.some.inj settled).symm
      case h_3 next _ ran =>
        rw [ran] at taken ⊢
        exact settled_taken_unchanged submission attempts next final keyed prior taken settled

/-- Whatever a submission ends with, it only adds rows for its recipients. -/
theorem submit_extends : ∃ added, Extends start (submit attempt submission start).2 added ∧
    ∀ row ∈ added, row.rcptTo ∈ submission.recipients.map storedAddress ∧
      row.mailFrom = storedAddress submission.mailFrom := by
  unfold submit
  cases ready : prepare attempt submission with
  | error cause => exact ⟨[], extends_refl start, by simp⟩
  | ok prepared =>
    cases ran : enqueueRecipients attempt submission prepared 0 submission.recipients start with
    | mk result next =>
      obtain ⟨stored, unstored, added, split, grown, addresses, senders, _⟩ :=
        enqueue_recipients_extends attempt submission prepared 0 submission.recipients start
          next result ran
      refine ⟨added, ?_, fun row member => ⟨?_, senders row member⟩⟩
      · simp only [ran]
        cases result with
        | ok => exact grown
        | error => exact grown
      have listed := List.mem_map_of_mem (f := QueueItem.rcptTo) member
      rw [addresses] at listed
      rw [split, List.map_append]
      exact List.mem_append_left _ listed

/-- A submission that succeeds has one new row per recipient, in order, all
under the normalised sender. -/
theorem submit_ok_creates (envelope : Bytes)
    (submitted : submit attempt submission start = (.ok envelope, final)) :
    (createdRows start final).map QueueItem.rcptTo = submission.recipients.map storedAddress ∧
      ∀ row ∈ createdRows start final, row.mailFrom = storedAddress submission.mailFrom := by
  unfold submit at submitted
  cases ready : prepare attempt submission with
  | error cause => simp [ready] at submitted
  | ok prepared =>
    simp only [ready] at submitted
    cases ran : enqueueRecipients attempt submission prepared 0 submission.recipients start with
    | mk result next =>
      obtain ⟨stored, unstored, added, split, grown, addresses, senders, finished⟩ :=
        enqueue_recipients_extends attempt submission prepared 0 submission.recipients start
          next result ran
      rw [ran] at submitted
      cases result with
      | error cause => simp at submitted
      | ok _ =>
        have complete : unstored = [] := finished.mp rfl
        simp only [Prod.mk.injEq] at submitted
        rw [← submitted.2, created_rows_of_extends start next added grown]
        refine ⟨?_, senders⟩
        rw [addresses, split, complete, List.append_nil]

theorem settled_has_recipients (settled : submitUntilSettled submission attempts start = some final) :
    submission.recipients ≠ [] := by
  intro empty
  induction attempts with
  | nil => cases settled
  | cons attempt attempts ih =>
    have refused : submit attempt submission start = (.error .noRecipients, start) := by
      simp [submit, prepare, empty]
    rw [submitUntilSettled, refused] at settled
    exact ih settled

/-- What the call that reaches the first recipient creates: a row for every
recipient exactly when nothing blocks a later one. -/
theorem submit_free_creates (start : Store) (keyed : submission.idempotencyKey ≠ [])
    (unused : start.queue.findKey? submission.idempotencyKey = none)
    (stores : storesFirst submission attempt = true) :
    ((createdRows start (submit attempt submission start).2).map QueueItem.rcptTo).Perm
        (submission.recipients.map storedAddress) ↔
      ∀ index, 1 ≤ index → index < submission.recipients.length →
        attempt.enqueueFails index = false ∧
          start.queue.findKey? (recipientKey submission.idempotencyKey index) = none := by
  simp only [storesFirst, Bool.and_eq_true, Bool.not_eq_true'] at stores
  obtain ⟨isReady, works⟩ := stores
  cases ready : prepare attempt submission with
  | error cause => simp [ready, Except.isOk, Except.toBool] at isReady
  | ok prepared =>
    cases ran : enqueueRecipients attempt submission prepared 0 submission.recipients start with
    | mk result next =>
      have finalStore : (submit attempt submission start).2 = next := by
        simp only [submit, ready, ran]
        cases result <;> rfl
      obtain ⟨stored, unstored, added, split, grown, addresses, _, finished⟩ :=
        enqueue_recipients_extends attempt submission prepared 0 submission.recipients start
          next result ran
      have finishes := enqueue_recipients_finishes attempt submission prepared keyed 0
        submission.recipients start
      rw [ran] at finishes
      simp only [Nat.zero_add] at finishes
      have complete : ((createdRows start next).map QueueItem.rcptTo).Perm
          (submission.recipients.map storedAddress) ↔ unstored = [] := by
        rw [created_rows_of_extends start next added grown, addresses, split]
        constructor
        · intro permuted
          have lengths := permuted.length_eq
          simp only [List.length_map, List.length_append] at lengths
          exact List.length_eq_zero_iff.mp (by omega)
        · rintro rfl
          rw [List.append_nil]
      rw [finalStore, complete, ← finished, finishes]
      constructor
      · intro all index _ bounded
        exact all index bounded
      · intro later index bounded
        cases index with
        | zero => exact ⟨works, by simpa [recipientKey, keyed] using unused⟩
        | succ index => exact later (index + 1) (Nat.succ_pos index) bounded

end

/-- When a keyed submission repeated until it settles leaves exactly one row
for every recipient. -/
theorem settled_submission_keeps_every_recipient (submission : Submission)
    (attempts : List Attempt) (start final : Store) (keyed : submission.idempotencyKey ≠ [])
    (settled : submitUntilSettled submission attempts start = some final) :
    ((createdRows start final).map QueueItem.rcptTo).Perm
        (submission.recipients.map storedAddress) ↔
      KeepsEveryRecipient submission attempts start := by
  cases used : start.queue.findKey? submission.idempotencyKey with
  | some prior =>
    have unchanged :=
      settled_taken_unchanged submission attempts start final keyed prior used settled
    rw [unchanged, created_rows_of_extends start start [] (extends_refl start)]
    constructor
    · intro permuted
      have none := List.Perm.nil_eq permuted
      exact absurd (List.map_eq_nil_iff.mp none.symm)
        (settled_has_recipients submission attempts start final settled)
    · intro keeps
      rw [keeps.1] at used
      cases used
  | none =>
    obtain ⟨attempt, found, rfl⟩ :=
      settled_free submission attempts start final keyed used settled
    rw [submit_free_creates attempt submission start keyed used (by simpa using List.find?_some found)]
    simp only [KeepsEveryRecipient, used, found, Option.some.injEq, forall_eq', true_and]

def twoRecipients : Submission where
  mailFrom := ascii "a@x"
  recipients := [ascii "b@y", ascii "c@z"]
  idempotencyKey := ascii "k"

def attemptFailing (fails : Nat → Bool) : Attempt where
  now := 10
  storeNow := 10
  strip := some
  messageIDOf _ := []
  putBlob _ := some (ascii "b3")
  newEnvelopeID := some (ascii "e")
  enqueueFails := fails
  lookupFails := false

/-- The second enqueue of the first call fails; the second call reports the
conflict, and the second recipient has no row. -/
theorem retry_after_partial_failure_loses_recipient :
    ∃ final, submitUntilSettled twoRecipients
        [attemptFailing fun index => index = 1, attemptFailing fun _ => false] Store.empty =
          some final ∧
      (createdRows Store.empty final).length = 1 ∧
        ¬((createdRows Store.empty final).map QueueItem.rcptTo).Perm
          (twoRecipients.recipients.map storedAddress) := by
  refine ⟨_, rfl, by decide, ?_⟩
  intro permuted
  exact absurd permuted.length_eq (by decide)

/-- With the failure at the first recipient instead, the retry stores both. -/
theorem settled_submission_keeps_every_recipient_of_two :
    ∃ final, submitUntilSettled twoRecipients
        [attemptFailing fun index => index = 0, attemptFailing fun _ => false] Store.empty =
          some final ∧
      (((createdRows Store.empty final).map QueueItem.rcptTo).Perm
          (twoRecipients.recipients.map storedAddress) ↔
        KeepsEveryRecipient twoRecipients
          [attemptFailing fun index => index = 0, attemptFailing fun _ => false] Store.empty) := by
  refine ⟨_, rfl, ?_⟩
  exact settled_submission_keeps_every_recipient twoRecipients _ Store.empty _ (by decide) rfl

end Herold.Queue

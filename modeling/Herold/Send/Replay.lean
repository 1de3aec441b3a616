import Herold.Send.Commands

/-!
# Repeated sends

A repeated idempotency key is found out by the queue, after the handler has built a new
message with an identifier of its own. The handler answers with that identifier and counts
the recipients again.
-/

namespace Herold.Send

open Herold.Go Herold.Queue Herold.Store

/-- The day is the UTC date as text, the zero value the empty text. -/
structure DailyCounter where
  day : Bytes := []
  count : Nat := 0

structure Server where
  store : Herold.Store
  dailyCounts : Nat → DailyCounter := fun _ => {}

structure Call where
  caller : Caller
  attempt : Attempt
  today : Bytes
  request : Request

def Request.idempotencyKey : Request → Bytes
  | .send request => request.idempotencyKey
  | .sendRaw request => request.idempotencyKey

def dailyUsed (server : Server) (today : Bytes) (pid : Nat) : Nat :=
  let counter := server.dailyCounts pid
  if counter.day ≠ today then 0 else counter.count

def noteSubmitted (server : Server) (today : Bytes) (pid n : Nat) : Server :=
  let old := server.dailyCounts pid
  let counter := if old.day ≠ today then { day := today } else old
  { server with
    dailyCounts := Function.update server.dailyCounts pid { counter with count := counter.count + n } }

/-- Both handlers count what they accept, a conflict of the queue included. -/
def handle (outside : Outside) (options : ServerOptions) (call : Call) (server : Server) :
    Except Problem SendResponse × Server :=
  let (result, store) := process outside options call.caller call.attempt call.request server.store
  let next := { server with store }
  match result with
  | .error problem => (.error problem, next)
  | .ok response =>
    (.ok response, noteSubmitted next
      call.today call.caller.principal.id call.request.recipients.length)

/-- The later call uses the API key of the first, hence its principal, and its idempotency key. -/
def Repeats (first later : Call) : Prop :=
  later.caller.key.id = first.caller.key.id ∧ later.caller.principal.id = first.caller.principal.id ∧
    later.request.idempotencyKey = first.request.idempotencyKey

/-- The call is answered as the first one was and leaves the queue and the day's usage alone. -/
structure ChangesNothing (outside : Outside) (options : ServerOptions) (response : SendResponse)
    (call : Call) (server : Server) : Prop where
  answer : (handle outside options call server).1 = .ok response
  queue : (handle outside options call server).2.store.queue.rows = server.store.queue.rows
  queued : ∀ row ∈ server.store.queue.rows, row.envelopeID = response.submissionID →
    response.messageID = ascii "<" ++ row.messageID ++ ascii ">"
  usage : dailyUsed (handle outside options call server).2 call.today call.caller.principal.id ≤
    dailyUsed server call.today call.caller.principal.id

def ReplaysChangeNothing (outside : Outside) (options : ServerOptions) (response : SendResponse) :
    List Call → Server → Prop
  | [], _ => True
  | call :: calls, server => ChangesNothing outside options response call server ∧
      ReplaysChangeNothing outside options response calls (handle outside options call server).2

theorem daily_used_noted (server : Server) (today : Bytes) (pid n : Nat) :
    dailyUsed (noteSubmitted server today pid n) today pid = dailyUsed server today pid + n := by
  unfold dailyUsed noteSubmitted
  by_cases same : (server.dailyCounts pid).day = today
  · simp [same]
  · simp [same]

theorem validated_recipients (outside : Outside) (options : ServerOptions) (request : SendRequest)
    (valid : validateSendRequest outside options request = none) :
      allRecipients request.destination ≠ [] := by
  intro empty
  unfold validateSendRequest at valid
  split at valid
  · cases valid
  · split at valid
    · cases valid
    · dsimp only at valid
      rw [if_pos empty] at valid
      split at valid
      · cases valid
      · split at valid
        · cases valid
        · cases valid

theorem accepted_recipients (outside : Outside) (options : ServerOptions) (caller : Caller)
    (request : Request)
    (submission : Submission) (messageID : Bytes)
    (accepted : accept outside options caller request = .ok (submission, messageID)) :
    request.recipients ≠ [] := by
  cases request with
  | send request =>
    exact validated_recipients outside options request
      (send_submission_ok outside options caller request submission messageID accepted).1
  | sendRaw request =>
    rw [accept, sendRawSubmission] at accepted
    cases decoded : decodeRaw outside options request with
    | error problem =>
      rw [decoded] at accepted
      cases accepted
    | ok raw => exact (decode_raw_ok outside options request raw decoded).1

theorem handle_counts (outside : Outside) (options : ServerOptions) (call : Call) (server : Server)
    (response : SendResponse) (answer : (handle outside options call server).1 = .ok response) :
    0 < call.request.recipients.length ∧
      dailyUsed (handle outside options call server).2 call.today call.caller.principal.id =
        dailyUsed server call.today call.caller.principal.id + call.request.recipients.length := by
  unfold handle at answer ⊢
  dsimp only at answer ⊢
  cases result : (process outside options call.caller call.attempt call.request server.store).1 with
  | error problem =>
    rw [result] at answer
    cases answer
  | ok accepted =>
    refine ⟨?_, daily_used_noted ..⟩
    unfold process at result
    split at result
    · cases result
    case h_2 submission messageID passed =>
      exact List.length_pos_iff.mpr (accepted_recipients _ _ _ _ _ _ passed)

/-- An accepted send is repeated without a trace only by not being repeated. -/
theorem replays_change_nothing_iff (outside : Outside) (options : ServerOptions) (server : Server)
    (first : Call) (response : SendResponse) (replays : List Call)
    (repeated : ∀ later ∈ replays, Repeats first later) :
    ReplaysChangeNothing outside options response replays (handle outside options first server).2 ↔
      replays = [] := by
  cases replays with
  | nil => exact iff_of_true trivial rfl
  | cons later rest =>
    refine iff_of_false ?_ (List.cons_ne_nil later rest)
    rintro ⟨inert, _⟩
    obtain ⟨someone, counted⟩ := handle_counts outside options later _ response inert.answer
    have usage := inert.usage
    omega

def keyedCall (random : UInt8) : Call where
  caller := { sampleCaller with entropy := ⟨.ok [random], .ok [2]⟩ }
  attempt := attemptFailing fun _ => false
  today := ascii "2026-01-01"
  request := .sendRaw { rawTo (ascii "c@d.org") with idempotencyKey := ascii "k" }

def emptyServer : Server where
  store := Store.empty

def afterFirst : Server := (handle bareOutside sampleOptions (keyedCall 1) emptyServer).2

theorem replay_renamed_and_counted :
    (handle bareOutside sampleOptions (keyedCall 1) emptyServer).1 =
        .ok ⟨ascii "<01@b.org>", ascii "e"⟩ ∧
      (handle bareOutside sampleOptions (keyedCall 3) afterFirst).1 =
        .ok ⟨ascii "<03@b.org>", ascii "e"⟩ ∧
      dailyUsed afterFirst (ascii "2026-01-01") 1 = 1 ∧
      dailyUsed (handle bareOutside sampleOptions (keyedCall 3) afterFirst).2
        (ascii "2026-01-01") 1 = 2 ∧
      ¬ReplaysChangeNothing bareOutside sampleOptions ⟨ascii "<01@b.org>", ascii "e"⟩ [keyedCall 3]
        afterFirst := by
  have second : (handle bareOutside sampleOptions (keyedCall 3) afterFirst).1 =
      .ok ⟨ascii "<03@b.org>", ascii "e"⟩ := by decide +kernel
  refine ⟨by decide +kernel, second, by decide +kernel, by decide +kernel, ?_⟩
  rintro ⟨inert, _⟩
  have same := second.symm.trans inert.answer
  exact absurd same (by decide +kernel)

theorem replays_change_nothing_iff_repeated :
    (keyedCall 1).request.idempotencyKey ≠ [] ∧
      (handle bareOutside sampleOptions (keyedCall 1) emptyServer).1 =
        .ok ⟨ascii "<01@b.org>", ascii "e"⟩ ∧
      (ReplaysChangeNothing bareOutside sampleOptions ⟨ascii "<01@b.org>", ascii "e"⟩ [keyedCall 3]
        afterFirst ↔ [keyedCall 3] = []) := by
  have answered : (handle bareOutside sampleOptions (keyedCall 1) emptyServer).1 =
      .ok ⟨ascii "<01@b.org>", ascii "e"⟩ := by decide +kernel
  refine ⟨by decide +kernel, answered, ?_⟩
  refine replays_change_nothing_iff bareOutside sampleOptions emptyServer (keyedCall 1) _
    [keyedCall 3] ?_
  intro later inside
  rw [List.mem_singleton.mp inside]
  exact ⟨rfl, rfl, rfl⟩

end Herold.Send

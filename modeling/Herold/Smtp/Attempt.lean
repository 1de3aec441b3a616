import Herold.Smtp.Envelope

/-!
# Whole calls of the client

What one connection of a call does, and a rule for the whole call: what every
connection keeps, through all candidates and fallbacks, holds of the call and
of its outcome.
-/

namespace Herold.Smtp

open Herold.Go Herold.Machine Herold.Machine.Exchange

def Route.plain : Route → Bool
  | mx _ _ => false
  | smartHost config => config.tlsMode = .none

/-- The smart host that a call for the request may connect to: the one for the
recipient's domain, unless it is blocked. -/
def Client.relaysThrough (client : Client) (request : DeliveryRequest)
    (config : SmartHostConfig) : Prop :=
  ∃ domain, domainOfAddress request.rcptTo = some domain ∧
    effectiveSmartHost client domain = some config ∧
      (config.tlsVerifyMode = .insecureSkipVerify ∨ client.checkHost config.host = none)

def Client.takes (client : Client) (request : DeliveryRequest) : Route → Prop
  | .mx _ _ => True
  | .smartHost config => client.relaysThrough request config

theorem dial_fresh (route : Route) (peer : Peer) (conn : Conn)
    (dialled : route.dial peer = .ok conn) :
    conn.sent = [] ∧
      ∀ config, route = .smartHost config → config.tlsMode = .implicitTLS → conn.secure = true := by
  unfold Route.dial at dialled
  cases unreachable : peer.dialError with
  | some error =>
    rw [unreachable] at dialled
    cases dialled
  | none =>
    rw [unreachable] at dialled
    cases route with
    | mx host policy =>
      cases dialled
      exact ⟨rfl, nofun⟩
    | smartHost config =>
      simp only [Route.connect] at dialled
      split at dialled
      case isTrue =>
        split at dialled
        · cases dialled
        · cases dialled
          exact ⟨rfl, fun _ _ _ => rfl⟩
      case isFalse explicit =>
        cases dialled
        refine ⟨rfl, ?_⟩
        intro config same implicit
        cases same
        exact absurd implicit explicit

theorem dial_fails (route : Route) (peer : Peer) (outcome : DeliveryOutcome)
    (refused : route.dial peer = .error outcome) : outcome.status ≠ .success := by
  unfold Route.dial at refused
  split at refused
  case h_1 =>
    cases refused
    cases route <;> simp [Route.dialFailed]
  case h_2 =>
    unfold Route.connect at refused
    split at refused
    case h_1 => cases refused
    case h_2 =>
      split at refused
      · split at refused
        · cases refused
          simp
        · cases refused
      · cases refused

theorem route_envelope_keeps (strict : Bool) (hostName : Bytes) (request : DeliveryRequest)
    (route : Route) (peer : Peer)
    (guarded : strict = true → request.requireTLS = true ∧ route.plain = false) :
    Triple (fun conn => route.dial peer = .ok conn) (route.envelope hostName request)
      (fun _ => Steady strict strict) (Stopped strict) := by
  have fresh : ∀ conn, route.dial peer = .ok conn → ∀ sent ∈ conn.sent,
      sent.BeforeData strict := by
    intro conn dialled
    rw [(dial_fresh route peer conn dialled).1]
    exact fun sent member => absurd member List.not_mem_nil
  cases route with
  | mx host policy =>
    apply triple_weaken (mx_envelope_keeps strict hostName host policy request
      fun isStrict => (guarded isStrict).1)
    · exact fun conn dialled => ⟨fresh conn dialled, nofun⟩
    · exact fun _ _ steady => steady
  | smartHost config =>
    apply triple_weaken (smart_host_envelope_keeps strict hostName config request
      fun isStrict => of_decide_eq_false (guarded isStrict).2)
    · intro conn dialled
      refine ⟨fresh conn dialled, fun implicit => ?_⟩
      exact (dial_fresh _ peer conn dialled).2 config rfl (of_decide_eq_true implicit)
    · exact fun _ _ steady => steady

theorem final_reply_sent (wording : Wording) (out : DeliveryOutcome) (conn : Conn) :
    (finalReply wording out conn).1.sent = conn.sent := by
  have kept : Triple (fun after => after.sent = conn.sent) (finalReply wording out)
      (fun _ after => after.sent = conn.sent) (fun _ after => after.sent = conn.sent) := by
    apply triple_bind (fun _ after => after.sent = conn.sent)
    · intro before same
      unfold readReply
      cases before.replies with
      | nil => exact same
      | cons reply replies => cases reply <;> exact same
    · intro reply
      split
      · exact triple_pure _ _ fun _ same => same
      · exact triple_pure _ _ fun _ same => same
  rcases result : finalReply wording out conn with ⟨after, failed | value⟩
  · exact triple_stops kept rfl result
  · exact triple_ends kept rfl result

theorem transmit_sent (wording : Wording) (out : DeliveryOutcome) (conn : Conn)
    (message : List Bytes) :
    ∃ bytes, (transmit wording out conn message).1.sent =
      conn.sent ++ [.data conn.secure bytes] := by
  unfold transmit
  dsimp only
  split
  case h_1 => exact ⟨_, rfl⟩
  case h_2 ended _ =>
    split
    case h_1 => exact ⟨_, rfl⟩
    case h_2 =>
      have sent := final_reply_sent wording out
        (conn.write ((writeDotStuffed conn.peer.breaksAt true message).written ++ dataEnd ended))
      split
      case h_1 result =>
        rw [result] at sent
        exact ⟨_, sent⟩
      case h_2 result =>
        rw [result] at sent
        exact ⟨_, sent⟩

/-- The three ways a connection of a call can go: it is not made, it stops before
the data, or it comes to the data phase. -/
theorem converse_cases (client : Client) (world : World) (request : DeliveryRequest)
    (route : Route) (call : Call) (peer : Peer)
    (next : peer = world.peer call.conversations.length) :
    (∃ outcome, route.dial peer = .error outcome ∧
      converse client world request route call =
        (call.record ⟨route, peer, []⟩ call.message, outcome)) ∨
    (∃ conn after outcome, route.dial peer = .ok conn ∧
      route.envelope client.hostName request conn = (after, .error outcome) ∧
        converse client world request route call =
          (call.record ⟨route, peer, after.close⟩ call.message, outcome)) ∨
    ∃ conn after out, route.dial peer = .ok conn ∧
      route.envelope client.hostName request conn = (after, .ok out) ∧
        converse client world request route call =
          (call.record ⟨route, peer, (transmit route.wording out after call.message).1.close⟩
            (transmit route.wording out after call.message).2.1,
            (transmit route.wording out after call.message).2.2) := by
  subst next
  cases dialled : route.dial (world.peer call.conversations.length) with
  | error outcome => exact .inl ⟨outcome, rfl, by simp only [converse, dialled]⟩
  | ok conn =>
    rcases ran : route.envelope client.hostName request conn with ⟨after, outcome | out⟩
    · exact .inr (.inl ⟨conn, after, outcome, rfl, ran, by simp only [converse, dialled, ran]⟩)
    · exact .inr (.inr ⟨conn, after, out, rfl, ran, by simp only [converse, dialled, ran]⟩)

section CallRule

variable (client : Client) (world : World) (request : DeliveryRequest)
  (kept : Call → Prop) (settled : Call × DeliveryOutcome → Prop)

/-- What is kept by every connection a call may make, and what an outcome without
a success settles. -/
structure CallRule : Prop where
  connects : ∀ route call, client.takes request route → kept call →
    kept (converse client world request route call).1 ∧
      settled (converse client world request route call)
  unsent : ∀ call outcome, kept call → outcome.status ≠ .success → settled (call, outcome)

variable {client world request kept settled}

theorem settle_last_fails (last : DeliveryOutcome) (fails : last.status ≠ .success) :
    (settleLast last).status ≠ .success := by
  unfold settleLast
  split
  · simp
  · exact fails

theorem try_candidates_keeps (rule : CallRule client world request kept settled)
    (domain : Bytes) (last : DeliveryOutcome) (hosts : List Bytes) (call : Call)
    (fails : last.status ≠ .success) (holds : kept call) :
    kept (tryCandidates client world request domain last hosts call).1 ∧
      settled (tryCandidates client world request domain last hosts call) := by
  induction hosts generalizing last call with
  | nil => exact ⟨holds, rule.unsent call _ holds (settle_last_fails last fails)⟩
  | cons host hosts ih =>
    have connected := rule.connects (.mx host world.policy) call trivial holds
    unfold tryCandidates
    split
    case isTrue => exact ih _ call (by simp) holds
    case isFalse =>
      simp only [deliverToMX]
      split
      case h_1 => exact connected
      case h_2 => exact connected
      case h_3 transient => exact ih _ _ (by simp [transient]) connected.1
      case h_4 => exact ih last _ fails connected.1

theorem try_every_candidate_keeps (rule : CallRule client world request kept settled)
    (last : DeliveryOutcome) (hosts : List Bytes) (call : Call)
    (fails : last.status ≠ .success) (holds : kept call) :
    kept (tryEveryCandidate client world request last hosts call).1 ∧
      settled (tryEveryCandidate client world request last hosts call) := by
  induction hosts generalizing last call with
  | nil => exact ⟨holds, rule.unsent call _ holds (settle_last_fails last fails)⟩
  | cons host hosts ih =>
    have connected := rule.connects (.mx host world.policy) call trivial holds
    simp only [tryEveryCandidate, deliverToMX]
    split
    case h_1 => exact connected
    case h_2 => exact connected
    case h_3 transient => exact ih _ _ (by simp [transient]) connected.1
    case h_4 => exact ih last _ fails connected.1

theorem deliver_direct_mx_keeps (rule : CallRule client world request kept settled)
    (call : Call) (holds : kept call) :
    kept (deliverDirectMX client world request call).1 ∧
      settled (deliverDirectMX client world request call) := by
  unfold deliverDirectMX
  cases world.candidates with
  | error failure => exact ⟨holds, rule.unsent call _ holds (by simp [resolutionFailed])⟩
  | ok hosts => exact try_every_candidate_keeps rule {} hosts call nofun holds

theorem deliver_via_smart_host_keeps (rule : CallRule client world request kept settled)
    (domain : Bytes) (config : SmartHostConfig) (call : Call)
    (addressed : domainOfAddress request.rcptTo = some domain)
    (effective : effectiveSmartHost client domain = some config) (holds : kept call) :
    kept (deliverViaSmartHost client world request config call).1 ∧
      settled (deliverViaSmartHost client world request config call) := by
  unfold deliverViaSmartHost
  split
  case h_1 => exact ⟨holds, rule.unsent call _ holds (by simp)⟩
  case h_2 unblocked =>
    apply rule.connects (.smartHost config) call _ holds
    refine ⟨domain, addressed, effective, ?_⟩
    split at unblocked
    case isTrue skips => exact .inl skips
    case isFalse => exact .inr unblocked

theorem dispatch_smart_host_keeps (rule : CallRule client world request kept settled)
    (domain : Bytes) (config : SmartHostConfig) (call : Call)
    (addressed : domainOfAddress request.rcptTo = some domain)
    (effective : effectiveSmartHost client domain = some config) (holds : kept call) :
    kept (dispatchSmartHost client world request config call).1 ∧
      settled (dispatchSmartHost client world request config call) := by
  unfold dispatchSmartHost
  split
  case h_1 => exact deliver_via_smart_host_keeps rule domain config call addressed effective holds
  case h_2 =>
    have relayed := deliver_via_smart_host_keeps rule domain config call addressed effective holds
    dsimp only
    split
    · exact deliver_direct_mx_keeps rule _ relayed.1
    · exact relayed
  case h_3 =>
    have direct := deliver_direct_mx_keeps rule call holds
    dsimp only
    split
    · exact deliver_via_smart_host_keeps rule domain config _ addressed effective direct.1
    · exact direct

theorem deliver_by_mx_keeps (rule : CallRule client world request kept settled)
    (domain : Bytes) (call : Call) (holds : kept call) :
    kept (deliverByMX client world request domain call).1 ∧
      settled (deliverByMX client world request domain call) := by
  unfold deliverByMX
  cases world.candidates with
  | error failure =>
    dsimp only
    split
    · exact ⟨holds, rule.unsent call _ holds (by simp)⟩
    · exact ⟨holds, rule.unsent call _ holds (by simp [resolutionFailed])⟩
  | ok hosts => exact try_candidates_keeps rule domain {} hosts call nofun holds

theorem deliver_keeps (rule : CallRule client world request kept settled)
    (starts : kept ⟨request.message, []⟩) :
    kept (deliver client world request).1 ∧ settled (deliver client world request) := by
  unfold deliver
  cases addressed : domainOfAddress request.rcptTo with
  | none => exact ⟨starts, rule.unsent _ _ starts (by simp)⟩
  | some domain =>
    dsimp only
    cases effective : effectiveSmartHost client domain with
    | none => exact deliver_by_mx_keeps rule domain _ starts
    | some config =>
      exact dispatch_smart_host_keeps rule domain config _ addressed effective starts

end CallRule

end Herold.Smtp

import Herold.Smtp.Attempt

/-!
# The two dispatchers to mail exchangers

`deliverDirectMX` repeats the part of `Deliver` below the smart-host fork for the
fallback policies. The copy has lost the gate that skips hosts outside an
enforced MTA-STS policy and the class of permanent resolution errors, so the two
agree exactly when neither has anything to do.
-/

namespace Herold.Smtp

open Herold.Go

def Call.dialled (call : Call) : List Bytes :=
  call.conversations.filterMap fun conversation =>
    match conversation.route with
    | .mx host _ => some host
    | .smartHost _ => none

def outsidePolicy (policy : Option MtaStsPolicy) (host : Bytes) : Bool :=
  enforces policy && !(policy.any fun policy => policy.admits host)

/-- The dispatchers contact the same hosts and return the same status, and none
of them dials a host outside an enforced policy. -/
structure DispatchersAgree (client : Client) (world : World) (request : DeliveryRequest)
    (domain : Bytes) (call : Call) : Prop where
  contacted : (deliverDirectMX client world request call).1.dialled =
    (deliverByMX client world request domain call).1.dialled
  status : (deliverDirectMX client world request call).2.status =
    (deliverByMX client world request domain call).2.status
  gated : ∀ host ∈ (deliverDirectMX client world request call).1.dialled.drop call.dialled.length,
    outsidePolicy world.policy host = false
  gatedByMX : ∀ host ∈
    (deliverByMX client world request domain call).1.dialled.drop call.dialled.length,
    outsidePolicy world.policy host = false

def nothingToGate (policy : Option MtaStsPolicy) :
    Except (Bool × Bool × Bytes) (List Bytes) → Prop
  | .error (temporary, noRecords, text) =>
    temporary = true ∨ (noRecords = false ∧ (cutFirst (ascii "no such host") text).isSome = false)
  | .ok hosts => ∀ host ∈ hosts, outsidePolicy policy host = false

section

variable (client : Client) (world : World) (request : DeliveryRequest)

theorem converse_dialled (host : Bytes) (policy : Option MtaStsPolicy) (call : Call) :
    (converse client world request (.mx host policy) call).1.dialled = call.dialled ++ [host] := by
  have recorded (peer : Peer) (sent : List Sent) (message : List Bytes) :
      (call.record ⟨.mx host policy, peer, sent⟩ message).dialled = call.dialled ++ [host] := by
    simp [Call.dialled, Call.record]
  rcases converse_cases client world request (.mx host policy) call _ rfl with
    ⟨_, _, same⟩ | ⟨_, _, _, _, _, same⟩ | ⟨_, _, _, _, _, same⟩
  · rw [same]
    exact recorded _ _ _
  · rw [same]
    exact recorded _ _ _
  · rw [same]
    exact recorded _ _ _

theorem try_candidates_ungated (domain : Bytes) (last : DeliveryOutcome) (hosts : List Bytes)
    (call : Call)
    (admitted : ∀ host ∈ hosts, outsidePolicy world.policy host = false) :
    tryCandidates client world request domain last hosts call =
      tryEveryCandidate client world request last hosts call := by
  induction hosts generalizing last call with
  | nil => rfl
  | cons host hosts ih =>
    have inside : (enforces world.policy &&
        !(world.policy.any fun policy => policy.admits host)) = false :=
      admitted host List.mem_cons_self
    have rest : ∀ host ∈ hosts, outsidePolicy world.policy host = false :=
      fun other member => admitted other (List.mem_cons_of_mem host member)
    unfold tryCandidates
    simp only [inside, Bool.false_eq_true, if_false, tryEveryCandidate, ih _ _ rest]

theorem try_every_candidate_dials (last : DeliveryOutcome) (hosts : List Bytes) (call : Call) :
    ∃ dialled, (tryEveryCandidate client world request last hosts call).1.dialled =
      call.dialled ++ dialled ∧ ∀ host ∈ dialled, host ∈ hosts := by
  induction hosts generalizing last call with
  | nil => exact ⟨[], (List.append_nil _).symm, by simp⟩
  | cons host hosts ih =>
    have first := converse_dialled client world request host world.policy call
    have continues (last : DeliveryOutcome) : ∃ dialled,
        (tryEveryCandidate client world request last hosts
          (converse client world request (.mx host world.policy) call).1).1.dialled =
            call.dialled ++ dialled ∧ ∀ other ∈ dialled, other ∈ host :: hosts := by
      obtain ⟨dialled, same, listed⟩ :=
        ih last (converse client world request (.mx host world.policy) call).1
      refine ⟨host :: dialled, ?_, ?_⟩
      · rw [same, first, List.append_assoc]
        rfl
      · intro other member
        rcases List.mem_cons.mp member with rfl | later
        · exact List.mem_cons_self
        · exact List.mem_cons_of_mem host (listed other later)
    have stops : ∃ dialled,
        (converse client world request (.mx host world.policy) call).1.dialled =
          call.dialled ++ dialled ∧ ∀ other ∈ dialled, other ∈ host :: hosts :=
      ⟨[host], first, by simp⟩
    simp only [tryEveryCandidate, deliverToMX]
    split
    case h_1 => exact stops
    case h_2 => exact stops
    case h_3 => exact continues _
    case h_4 => exact continues _

theorem unreachable_hosts_all_dialled (last : DeliveryOutcome) (hosts : List Bytes) (call : Call)
    (unreachable : ∀ n, (world.peer n).dialError = some []) :
    (tryEveryCandidate client world request last hosts call).1.dialled = call.dialled ++ hosts := by
  induction hosts generalizing last call with
  | nil => exact (List.append_nil _).symm
  | cons host hosts ih =>
    have failed : (converse client world request (.mx host world.policy) call).2.status =
        .transient := by
      simp [converse, Route.dial, unreachable, Route.dialFailed]
    simp only [tryEveryCandidate, deliverToMX, failed]
    rw [ih, converse_dialled, List.append_assoc]
    rfl

theorem direct_mx_as_by_mx (domain : Bytes) (call : Call)
    (ungated : nothingToGate world.policy world.candidates) :
    deliverDirectMX client world request call = deliverByMX client world request domain call := by
  unfold deliverDirectMX deliverByMX
  cases answer : world.candidates with
  | error failure =>
    obtain ⟨temporary, noRecords, text⟩ := failure
    rw [answer] at ungated
    have passes : (!temporary && (noRecords ||
        (cutFirst (ascii "no such host") text).isSome)) = false := by
      rcases ungated with rfl | ⟨rfl, absent⟩
      · rfl
      · rw [absent]
        simp
    simp only [passes, Bool.false_eq_true, if_false]
  | ok hosts =>
    rw [answer] at ungated
    exact (try_candidates_ungated client world request domain {} hosts call ungated).symm

theorem direct_mx_dials_candidates (call : Call)
    (ungated : nothingToGate world.policy world.candidates) :
    ∀ host ∈ (deliverDirectMX client world request call).1.dialled.drop call.dialled.length,
      outsidePolicy world.policy host = false := by
  unfold deliverDirectMX
  cases answer : world.candidates with
  | error failure => simp
  | ok hosts =>
    rw [answer] at ungated
    obtain ⟨dialled, same, listed⟩ :=
      try_every_candidate_dials client world request {} hosts call
    intro host member
    simp only [same, List.drop_left] at member
    exact ungated host (listed host member)

end

def freshCall (request : DeliveryRequest) : Call := ⟨request.message, []⟩

/-- For a resolver's answer and a policy, the dispatchers agree whatever the
servers do if and only if there is nothing to gate. -/
theorem dispatchers_agree_iff_nothing_to_gate (client : Client) (request : DeliveryRequest)
    (domain : Bytes) (policy : Option MtaStsPolicy)
    (candidates : Except (Bool × Bool × Bytes) (List Bytes)) (outageSeconds : Nat) :
    (∀ peer call, DispatchersAgree client ⟨peer, policy, candidates, outageSeconds⟩ request domain
      call) ↔ nothingToGate policy candidates := by
  constructor
  · intro agree
    have held := agree (fun _ => { dialError := some [] }) (freshCall request)
    cases candidates with
    | error failure =>
      obtain ⟨temporary, noRecords, text⟩ := failure
      have status := held.status
      simp only [deliverDirectMX, deliverByMX] at status
      split at status
      · simp [resolutionFailed] at status
      case isFalse passes =>
        simp only [nothingToGate]
        cases temporary with
        | true => exact Or.inl rfl
        | false =>
          right
          simpa using passes
    | ok hosts =>
      intro host member
      apply held.gated host
      simp only [deliverDirectMX]
      rw [unreachable_hosts_all_dialled _ _ _ _ _ _ (fun _ => rfl), List.drop_left]
      exact member
  · intro ungated peer call
    have same := direct_mx_as_by_mx client ⟨peer, policy, candidates, outageSeconds⟩ request domain
      call ungated
    have gated := direct_mx_dials_candidates client ⟨peer, policy, candidates, outageSeconds⟩ request
      call ungated
    exact ⟨by rw [same], by rw [same], gated, same ▸ gated⟩

def rogueCandidate : World where
  peer _ := { dialError := some (ascii "connection refused") }
  policy := some ⟨.enforce, [ascii "mx1.remote.example"]⟩
  candidates := .ok [ascii "mx9.rogue.example"]

theorem fallback_dials_rogue_candidate :
    ¬ ∀ client world request domain call, DispatchersAgree client world request domain call := by
  intro agree
  let client : Client := ⟨ascii "mx.example", none, fun _ => none, fun _ => none⟩
  let request : DeliveryRequest := {
    mailFrom := ascii "a@herold.example", rcptTo := ascii "b@remote.example", message := [] }
  have gated := (agree client rogueCandidate request (ascii "remote.example")
    (freshCall request)).gated (ascii "mx9.rogue.example")
  revert gated
  decide +kernel

end Herold.Smtp

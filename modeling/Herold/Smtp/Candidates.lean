import Herold.Smtp.DirectMx

/-!
# The verdict over the candidates

The candidate loop keeps the outcome of the candidate it saw last. A candidate that
an enforced policy excludes counts as one it saw, and as a permanent failure, also
behind candidates that were only unavailable for the moment.
-/

namespace Herold.Smtp

open Herold.Go Herold.Machine Herold.Machine.Exchange

/-- The candidates the loop contacts, in order, and how each of them answered. An
acceptance and a permanent failure end the loop. -/
def contacted (client : Client) (world : World) (request : DeliveryRequest) :
    List Bytes → Call → List (Bytes × DeliveryStatus)
  | [], _ => []
  | host :: hosts, call =>
    if outsidePolicy world.policy host then contacted client world request hosts call
    else
      let (call, outcome) := deliverToMX client world request host call
      (host, outcome.status) ::
        match outcome.status with
        | .success | .permanent => []
        | _ => contacted client world request hosts call

def Decided {Value : Type} (computation : Conversing Value) : Prop :=
  Triple (fun _ => True) computation (fun _ _ => True) fun outcome _ => outcome.status ≠ .unknown

theorem decided_bind {Value Result : Type} {first : Conversing Value} {next : Value → Conversing Result}
    (begins : Decided first) (continues : ∀ value, Decided (next value)) : Decided (first >>= next) :=
  triple_bind _ begins continues

theorem decided_pure {Value : Type} (value : Value) : Decided
    (pure value) := triple_pure _ _ fun _ _ => trivial

theorem decided_stop {Value : Type} (outcome : DeliveryOutcome) (known : outcome.status ≠ .unknown) :
    Decided (stop outcome : Conversing Value) :=
  triple_stop _ _ fun _ _ => known

theorem decided_get : Decided get := triple_get _ fun _ _ => trivial

theorem decided_modify (change : Conn → Conn) : Decided
    (modify change) := triple_modify _ _ fun _ _ => trivial

theorem decided_command (verb : CommandVerb) (text : Bytes) (failed : Bytes → DeliveryOutcome)
    (known : ∀ error, (failed error).status ≠ .unknown) : Decided (command verb text failed) := by
  intro conn _
  unfold command
  cases conn.peer.writeError conn.commands with
  | none => trivial
  | some error => exact known error

theorem decided_read_reply (failed : Bytes → DeliveryOutcome)
    (known : ∀ error, (failed error).status ≠ .unknown) : Decided (readReply failed) := by
  intro conn _
  unfold readReply
  cases conn.replies with
  | nil => exact known _
  | cons reply replies =>
    cases reply with
    | error error => exact known error
    | ok lines => trivial

section

variable (hostName : Bytes) (out : DeliveryOutcome)

theorem transient_decided (diagnostic : Bytes) : (out.transient diagnostic).status ≠ .unknown := by
  intro same
  cases same

theorem permanent_decided (code : Int) (enhanced diagnostic : Bytes) :
    (out.permanent code enhanced diagnostic).status ≠ .unknown := by
  intro same
  cases same

theorem map_reply_decided (code : Int) (enhanced text phase : Bytes) :
    (mapReplyOutcome out code enhanced text phase).status ≠ .unknown := by
  simp only [mapReplyOutcome]
  split
  · intro same
    cases same
  · intro same
    cases same

theorem decided_require (condition : Prop) [Decidable condition] (otherwise : DeliveryOutcome)
    (known : otherwise.status ≠ .unknown) : Decided (require condition otherwise) := by
  unfold require
  split
  · exact decided_pure ()
  · exact decided_stop _ known

theorem decided_ehlo (failed : Bytes → DeliveryOutcome)
    (known : ∀ error, (failed error).status ≠ .unknown) : Decided (ehlo hostName failed) := by
  apply decided_bind (decided_command _ _ _ known)
  intro _
  apply decided_bind (decided_read_reply _ known)
  intro reply
  apply decided_bind (decided_modify _)
  intro _
  exact decided_pure _

theorem decided_expect (label phase : Bytes) (accepts : SmtpReply → Bool) :
    Decided (expect out label phase accepts) := by
  apply decided_bind (decided_read_reply _ fun _ => transient_decided _ _)
  intro reply
  exact decided_require _ _ (map_reply_decided _ _ _ _ _)

theorem decided_hello : Decided (hello hostName out) := by
  apply decided_bind (decided_ehlo _ _ fun _ => transient_decided _ _)
  intro reply
  split
  · exact decided_pure ()
  · apply decided_bind
    · apply decided_bind (decided_command _ _ _ fun _ => transient_decided _ _)
      intro _
      exact decided_read_reply _ fun _ => transient_decided _ _
    · intro reply
      exact decided_require _ _ (map_reply_decided _ _ _ _ _)

theorem decided_handshake (host : Bytes) (policy : Option MtaStsPolicy) (strict : Bool)
    (out : DeliveryOutcome) : Decided (handshake host policy strict out) := by
  apply decided_bind decided_get
  intro conn
  cases conn.peer.handshakeError with
  | some error =>
    dsimp only
    split
    · exact decided_stop _ (permanent_decided _ _ _ _)
    · exact decided_pure _
  | none =>
    dsimp only
    split
    · split
      · exact decided_pure _
      · exact decided_stop _ (permanent_decided _ _ _ _)
    · split
      · split
        · exact decided_pure _
        · exact decided_stop _ (permanent_decided _ _ _ _)
      · exact decided_pure _

theorem decided_upgrade (host : Bytes) (policy : Option MtaStsPolicy) (requireTLS : Bool)
    (out : DeliveryOutcome) : Decided (upgradeTLS host policy requireTLS out) := by
  apply decided_bind decided_get
  intro conn
  dsimp only
  split
  · apply decided_bind (decided_command _ _ _ fun _ => transient_decided _ _)
    intro _
    apply decided_bind (decided_read_reply _ fun _ => transient_decided _ _)
    intro reply
    split
    · exact decided_handshake _ _ _ _
    · split
      · exact decided_stop _ (permanent_decided _ _ _ _)
      · exact decided_pure _
  · split
    · exact decided_stop _ (permanent_decided _ _ _ _)
    · exact decided_pure _

theorem decided_hello_after (decision : TlsDecision) (out : DeliveryOutcome) :
    Decided (helloAfter hostName decision out) := by
  unfold helloAfter
  split
  · apply decided_bind (decided_modify _)
    intro _
    apply decided_bind (decided_ehlo _ _ fun _ => transient_decided _ _)
    intro reply
    exact decided_require _ _ (map_reply_decided _ _ _ _ _)
  · exact decided_pure ()

end

theorem decided_transaction (request : DeliveryRequest) (out : DeliveryOutcome) :
    Decided (mxTransaction request out) := by
  have sends : ∀ verb text label,
    Decided (command verb text fun error => out.transient (label ++ error)) :=
    fun _ _ _ => decided_command _ _ _ fun _ => transient_decided _ _
  apply decided_bind decided_get
  intro conn
  split
  · apply decided_bind decided_get
    intro conn
    apply decided_bind (sends _ _ _)
    intro _
    apply decided_bind (sends _ _ _)
    intro _
    apply decided_bind (sends _ _ _)
    intro _
    apply decided_bind (decided_expect _ _ _ _)
    intro _
    apply decided_bind (decided_expect _ _ _ _)
    intro _
    exact decided_expect _ _ _ _
  · apply decided_bind decided_get
    intro conn
    apply decided_bind (sends _ _ _)
    intro _
    apply decided_bind (decided_expect _ _ _ _)
    intro _
    apply decided_bind (sends _ _ _)
    intro _
    apply decided_bind (decided_expect _ _ _ _)
    intro _
    apply decided_bind (sends _ _ _)
    intro _
    exact decided_expect _ _ _ _

theorem decided_mx_envelope (hostName host : Bytes) (policy : Option MtaStsPolicy)
    (request : DeliveryRequest) :
    Decided (mxEnvelope hostName host policy request) := by
  apply decided_bind (decided_read_reply _ fun _ => transient_decided _ _)
  intro greeting
  apply decided_bind (decided_require _ _ (map_reply_decided _ _ _ _ _))
  intro _
  apply decided_bind (decided_hello _ _)
  intro _
  apply decided_bind (decided_upgrade _ _ _ _)
  intro decision
  apply decided_bind (decided_hello_after _ _ _)
  intro _
  apply decided_bind (decided_require _ _ (permanent_decided _ _ _ _))
  intro _
  apply decided_bind (decided_transaction _ _)
  intro _
  exact decided_pure _

theorem transmit_decided (wording : Wording) (out : DeliveryOutcome) (conn : Conn)
    (message : List Bytes) :
    (transmit wording out conn message).2.2.status ≠ .unknown := by
  have final : Triple (fun _ => True) (finalReply wording out)
      (fun outcome _ => outcome.status ≠ .unknown) (fun outcome _ => outcome.status ≠ .unknown) := by
    apply triple_bind (fun _ _ => True) (decided_read_reply _ fun _ => transient_decided _ _)
    intro reply
    split
    · exact triple_pure _ _ fun _ _ same => by cases same
    · exact triple_pure _ _ fun _ _ => map_reply_decided _ _ _ _ _
  unfold transmit
  dsimp only
  split
  case h_1 => exact transient_decided _ _
  case h_2 =>
    split
    case h_1 => exact transient_decided _ _
    case h_2 =>
      split
      case h_1 result => exact triple_ends final trivial result
      case h_2 result => exact triple_stops final trivial result

theorem deliver_to_mx_decided (client : Client) (world : World) (request : DeliveryRequest)
    (host : Bytes)
    (call : Call) : (deliverToMX client world request host call).2.status ≠ .unknown := by
  unfold deliverToMX
  rcases converse_cases client world request (.mx host world.policy) call _ rfl with
    ⟨outcome, refused, same⟩ | ⟨_, _, outcome, _, stopped, same⟩ | ⟨_, _, _, _, _, same⟩
  · rw [same]
    unfold Route.dial at refused
    split at refused
    case h_1 =>
      cases refused
      exact transient_decided _ _
    case h_2 => cases refused
  · rw [same]
    exact triple_stops (decided_mx_envelope client.hostName host world.policy request) trivial stopped
  · rw [same]
    exact transmit_decided _ _ _ _

def Decisive (contacts : List (Bytes × DeliveryStatus)) : Prop :=
  ∃ contact ∈ contacts, contact.2 = .success ∨ contact.2 = .permanent

section Loop

variable (client : Client) (world : World) (request : DeliveryRequest) (domain : Bytes)

section

variable (last : DeliveryOutcome) (host : Bytes) (hosts : List Bytes) (call : Call)

theorem contacted_excluded (outside : outsidePolicy world.policy host = true) :
    contacted client world request (host :: hosts) call =
      contacted client world request hosts call := by
  rw [contacted, if_pos outside]

/-- One turn of the loop: over an excluded candidate, to the end, or on after a
transient failure. -/
theorem try_candidates_turn : (outsidePolicy world.policy host = true ∧
      contacted client world request (host :: hosts) call = contacted client world request hosts call ∧
      ∃ next : DeliveryOutcome, next.status = .permanent ∧
        tryCandidates client world request domain last (host :: hosts) call =
          tryCandidates client world request domain next hosts call) ∨
    (outsidePolicy world.policy host = false ∧
      ∃ status, (status = .success ∨ status = .permanent) ∧
        contacted client world request (host :: hosts) call = [(host, status)] ∧
        (tryCandidates client world request domain last (host :: hosts) call).2.status = status) ∨
    (outsidePolicy world.policy host = false ∧
      ∃ (after : Call) (next : DeliveryOutcome), next.status = .transient ∧
        contacted client world request (host :: hosts) call =
          (host, .transient) :: contacted client world request hosts after ∧
        tryCandidates client world request domain last (host :: hosts) call =
          tryCandidates client world request domain next hosts after) := by
  cases outside : outsidePolicy world.policy host with
  | true =>
    refine .inl ⟨rfl, contacted_excluded client world request host hosts call outside,
      DeliveryOutcome.permanent { mxHost := host } 550 (ascii "5.7.1")
        (ascii "MX " ++ host ++ ascii " not in MTA-STS enforce policy for " ++ domain), rfl, ?_⟩
    unfold outsidePolicy at outside
    rw [tryCandidates, if_pos outside]
  | false =>
    have decided := deliver_to_mx_decided client world request host call
    have gate : ¬outsidePolicy world.policy host = true := by simp [outside]
    have shut : ¬(enforces world.policy && !(world.policy.any fun policy => policy.admits host)) =
      true :=
      gate
    rcases ran : deliverToMX client world request host call with ⟨after, outcome⟩
    rw [ran] at decided
    cases status : outcome.status with
    | unknown => exact absurd status decided
    | success =>
      refine .inr (.inl ⟨rfl, .success, .inl rfl, ?_, ?_⟩)
      · simp only [contacted, if_neg gate, ran, status]
      · simp only [tryCandidates, if_neg shut, ran, status]
    | permanent =>
      refine .inr (.inl ⟨rfl, .permanent, .inr rfl, ?_, ?_⟩)
      · simp only [contacted, if_neg gate, ran, status]
      · simp only [tryCandidates, if_neg shut, ran, status]
    | transient =>
      refine .inr (.inr ⟨rfl, after, outcome, status, ?_, ?_⟩)
      · simp only [contacted, if_neg gate, ran, status]
      · simp only [tryCandidates, if_neg shut, ran, status]

theorem try_candidates_decisive (decisive : Decisive (contacted client world request hosts call)) :
    ∃ contact ∈ contacted client world request hosts call,
      (contact.2 = .success ∨ contact.2 = .permanent) ∧
        (tryCandidates client world request domain last hosts call).2.status = contact.2 := by
  induction hosts generalizing last call with
  | nil =>
    obtain ⟨contact, member, -⟩ := decisive
    cases member
  | cons host hosts ih =>
    rcases try_candidates_turn client world request domain last host hosts call with
      ⟨-, contacts, next, -, result⟩ | ⟨-, status, final, contacts, result⟩ |
      ⟨-, after, next, -, contacts, result⟩
    · rw [contacts] at decisive ⊢
      rw [result]
      exact ih next call decisive
    · rw [contacts]
      exact ⟨(host, status), List.mem_singleton.mpr rfl, final, result⟩
    · rw [contacts] at decisive ⊢
      rw [result]
      obtain ⟨contact, member, final⟩ := decisive
      rcases List.mem_cons.mp member with rfl | later
      · rcases final with final | final
        · cases final
        · cases final
      · obtain ⟨other, among, answer⟩ := ih next after ⟨contact, later, final⟩
        exact ⟨other, List.mem_cons_of_mem _ among, answer⟩

theorem try_candidates_last
    (undecided : ¬Decisive (contacted client world request (host :: hosts) call)) :
    (tryCandidates client world request domain last (host :: hosts) call).2.status =
      if outsidePolicy world.policy ((host :: hosts).getLast (List.cons_ne_nil _ _)) then .permanent
      else .transient := by
  induction hosts generalizing last host call with
  | nil =>
    rcases try_candidates_turn client world request domain last host [] call with
      ⟨outside, -, next, status, result⟩ | ⟨-, status, final, contacts, -⟩ |
      ⟨inside, after, next, status, -, result⟩
    · rw [result]
      simp [outside, tryCandidates, settleLast, status]
    · rw [contacts] at undecided
      exact absurd ⟨_, List.mem_singleton.mpr rfl, final⟩ undecided
    · rw [result]
      simp [inside, tryCandidates, settleLast, status]
  | cons other hosts ih =>
    rw [List.getLast_cons (List.cons_ne_nil other hosts)]
    rcases try_candidates_turn client world request domain last host (other :: hosts) call with
      ⟨-, contacts, next, -, result⟩ | ⟨-, status, final, contacts, -⟩ |
      ⟨-, after, next, -, contacts, result⟩
    · rw [contacts] at undecided
      rw [result]
      exact ih next other call undecided
    · rw [contacts] at undecided
      exact absurd ⟨_, List.mem_singleton.mpr rfl, final⟩ undecided
    · rw [contacts] at undecided
      rw [result]
      apply ih next other after
      rintro ⟨contact, member, final⟩
      exact undecided ⟨contact, List.mem_cons_of_mem _ member, final⟩

theorem all_excluded_contacts_none (excluded : ∀ host ∈ hosts, outsidePolicy world.policy host = true) :
    contacted client world request hosts call = [] := by
  induction hosts with
  | nil => rfl
  | cons host hosts ih =>
    rw [contacted_excluded client world request host hosts call (excluded host List.mem_cons_self)]
    exact ih fun other member => excluded other (List.mem_cons_of_mem _ member)

end

end Loop

/-- A permanent verdict is one that a contacted candidate gave, or the policy on all
of them; and where nobody accepts and nobody fails for good, one that fails for now
makes it a transient one. -/
structure VerdictEarned (contacts : List (Bytes × DeliveryStatus)) (policy : Option MtaStsPolicy)
    (hosts : List Bytes) (status : DeliveryStatus) : Prop where
  permanent : status = .permanent → (∃ contact ∈ contacts, contact.2 = .permanent) ∨
    ∀ host ∈ hosts, outsidePolicy policy host = true
  transient : (∃ contact ∈ contacts, contact.2 = .transient) → ¬Decisive contacts → status = .transient

/-- The candidates do not end in an excluded one, unless that makes no difference. -/
def LastCounts (contacts : List (Bytes × DeliveryStatus)) (policy : Option MtaStsPolicy)
    (hosts : List Bytes) :
    Prop :=
  Decisive contacts ∨ (∀ host ∈ hosts, outsidePolicy policy host = true) ∨
    ∀ host, hosts.getLast? = some host → outsidePolicy policy host = false

theorem deliver_by_candidates (client : Client) (world : World) (request : DeliveryRequest)
    (domain : Bytes)
    (hosts : List Bytes) (addressed : domainOfAddress request.rcptTo = some domain)
    (direct : effectiveSmartHost client domain = none) (resolved : world.candidates = .ok hosts) :
    deliver client world request =
      tryCandidates client world request domain {} hosts (freshCall request) := by
  simp only [deliver, addressed, direct, deliverByMX, resolved]
  rfl

theorem direct_verdict_earned_iff (client : Client) (world : World) (request : DeliveryRequest)
    (domain : Bytes) (hosts : List Bytes) (addressed : domainOfAddress request.rcptTo = some domain)
    (direct : effectiveSmartHost client domain = none) (resolved : world.candidates = .ok hosts) :
    VerdictEarned (contacted client world request hosts (freshCall request)) world.policy hosts
        (deliver client world request).2.status ↔
      LastCounts (contacted client world request hosts (freshCall request)) world.policy hosts := by
  rw [deliver_by_candidates client world request domain hosts addressed direct resolved]
  by_cases decisive : Decisive (contacted client world request hosts (freshCall request))
  · obtain ⟨contact, member, -, status⟩ :=
      try_candidates_decisive client world request domain {} hosts (freshCall request) decisive
    refine ⟨fun _ => .inl decisive, fun _ => ⟨fun permanent => .inl ⟨contact, member, ?_⟩, ?_⟩⟩
    · rw [← status, permanent]
    · exact fun _ none => absurd decisive none
  · cases hosts with
    | nil =>
      refine ⟨fun _ => .inr (.inl fun host member => by cases member), fun _ => ⟨?_, ?_⟩⟩
      · exact fun _ => .inr fun host member => by cases member
      · rintro ⟨contact, member, -⟩
        cases member
    | cons host hosts =>
      have status := try_candidates_last client world request domain {} host hosts
        (freshCall request) decisive
      have last : (host :: hosts).getLast? = some ((host :: hosts).getLast (List.cons_ne_nil _ _)) :=
        List.getLast?_eq_some_getLast _
      constructor
      · intro earned
        by_cases outside : outsidePolicy world.policy
            ((host :: hosts).getLast (List.cons_ne_nil _ _)) = true
        · rw [if_pos outside] at status
          rcases earned.permanent status with ⟨contact, member, permanent⟩ | excluded
          · exact absurd ⟨contact, member, .inr permanent⟩ decisive
          · exact .inr (.inl excluded)
        · refine .inr (.inr fun other same => ?_)
          rw [last] at same
          cases same
          exact eq_false_of_ne_true outside
      · rintro (yes | excluded | ends)
        · exact absurd yes decisive
        · refine ⟨fun _ => .inr excluded, ?_⟩
          rintro ⟨contact, member, -⟩
          rw [all_excluded_contacts_none client world request _ _ excluded] at member
          cases member
        · rw [ends _ last, if_neg (by decide)] at status
          refine ⟨fun permanent => ?_, fun _ _ => status⟩
          rw [permanent] at status
          cases status

def busyThenRogue (hosts : List Bytes) : World where
  peer _ := { dialError := some (ascii "connection refused") }
  policy := some ⟨.enforce, [ascii "mx1.remote.example"]⟩
  candidates := .ok hosts

def plainClient : Client := ⟨ascii "mx.example", none, fun _ => none, fun _ => none⟩

def plainRequest : DeliveryRequest :=
  { mailFrom := ascii "a@herold.example", rcptTo := ascii "b@remote.example", message := [] }

theorem rogue_then_busy_verdict :
    VerdictEarned (contacted plainClient
      (busyThenRogue [ascii "mx9.rogue.example", ascii "mx1.remote.example"])
        plainRequest [ascii "mx9.rogue.example", ascii "mx1.remote.example"] (freshCall plainRequest))
      (busyThenRogue []).policy [ascii "mx9.rogue.example", ascii "mx1.remote.example"]
      (deliver plainClient (busyThenRogue [ascii "mx9.rogue.example", ascii "mx1.remote.example"])
        plainRequest).2.status :=
  (direct_verdict_earned_iff plainClient
    (busyThenRogue [ascii "mx9.rogue.example", ascii "mx1.remote.example"]) plainRequest
    (ascii "remote.example") [ascii "mx9.rogue.example", ascii "mx1.remote.example"]
    (by decide +kernel) rfl rfl).mpr (.inr (.inr fun host last => by
      cases last
      decide +kernel))

theorem busy_then_rogue_verdict :
    ¬VerdictEarned (contacted plainClient
      (busyThenRogue [ascii "mx1.remote.example", ascii "mx9.rogue.example"])
        plainRequest [ascii "mx1.remote.example", ascii "mx9.rogue.example"] (freshCall plainRequest))
      (busyThenRogue []).policy [ascii "mx1.remote.example", ascii "mx9.rogue.example"]
      (deliver plainClient (busyThenRogue [ascii "mx1.remote.example", ascii "mx9.rogue.example"])
        plainRequest).2.status := by
  intro earned
  have contacts : contacted plainClient
      (busyThenRogue [ascii "mx1.remote.example", ascii "mx9.rogue.example"]) plainRequest
      [ascii "mx1.remote.example", ascii "mx9.rogue.example"] (freshCall plainRequest) =
        [(ascii "mx1.remote.example", .transient)] := by decide +kernel
  have status : (deliver plainClient
      (busyThenRogue [ascii "mx1.remote.example", ascii "mx9.rogue.example"]) plainRequest).2.status =
        .permanent := by decide +kernel
  have inside : outsidePolicy (busyThenRogue []).policy (ascii "mx1.remote.example") = false := by
    decide +kernel
  rw [contacts, status] at earned
  rcases earned.permanent rfl with ⟨contact, member, permanent⟩ | excluded
  · rw [List.mem_singleton.mp member] at permanent
    cases permanent
  · rw [excluded _ List.mem_cons_self] at inside
    cases inside

end Herold.Smtp

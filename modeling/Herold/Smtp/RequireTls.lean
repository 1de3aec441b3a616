import Herold.Smtp.Attempt

/-!
# Requests that require TLS

The conversation with a mail exchanger refuses to go on in plain text when the
request requires TLS. The conversation with a smart host does not look at the
request: its own configuration alone decides. So a request keeps its promise
whatever the remote servers do unless it is relayed through a smart host that
is configured without TLS.
-/

namespace Herold.Smtp

open Herold.Go Herold.Machine Herold.Machine.Exchange

def Sent.guarded : Sent → Bool
  | command secure verb _ => verb ≠ .mailFrom || secure
  | data secure _ => secure

def Call.guarded (call : Call) : Bool :=
  call.conversations.all fun conversation => conversation.sent.all Sent.guarded

theorem guarded_before_data (sent : Sent) (before : sent.BeforeData true) : sent.guarded = true := by
  cases sent with
  | command secure verb text =>
    have encrypted := before rfl
    by_cases mail : verb = .mailFrom
    · simp [Sent.guarded, encrypted mail]
    · simp [Sent.guarded, mail]
  | data secure bytes => exact before.elim

theorem guarded_close (conn : Conn) (guarded : conn.sent.all Sent.guarded = true) :
    conn.close.all Sent.guarded = true := by
  rw [Conn.close, List.all_append, guarded]
  rfl

theorem guarded_record (call : Call) (conversation : Conversation) (message : List Bytes)
    (before : call.guarded = true) (sent : conversation.sent.all Sent.guarded = true) :
    (call.record conversation message).guarded = true := by
  rw [Call.guarded, Call.record, List.all_append, Bool.and_eq_true]
  exact ⟨before, by simp [sent]⟩

theorem converse_guarded (client : Client) (world : World) (request : DeliveryRequest)
    (route : Route) (call : Call) (required : request.requireTLS = true)
    (encrypts : route.plain = false) (before : call.guarded = true) :
    (converse client world request route call).1.guarded = true := by
  have envelope := route_envelope_keeps true client.hostName request route
    (world.peer call.conversations.length) fun _ => ⟨required, encrypts⟩
  have quiet (conn : Conn) (steady : ∀ sent ∈ conn.sent, sent.BeforeData true) :
      conn.sent.all Sent.guarded = true :=
    List.all_eq_true.mpr fun sent member => guarded_before_data sent (steady sent member)
  rcases converse_cases client world request route call _ rfl with
    ⟨outcome, _, same⟩ | ⟨conn, after, outcome, dialled, ran, same⟩ |
      ⟨conn, after, out, dialled, ran, same⟩
  · rw [same]
    exact guarded_record call _ _ before rfl
  · rw [same]
    have stopped := triple_stops envelope dialled ran
    exact guarded_record call _ _ before (guarded_close after (quiet after stopped.sent))
  · rw [same]
    have steady := triple_ends envelope dialled ran
    apply guarded_record call _ _ before
    apply guarded_close
    obtain ⟨bytes, sent⟩ := transmit_sent route.wording out after call.message
    rw [sent, List.all_append, quiet after steady.sent, steady.secure rfl]
    rfl

def greetingPeer : Peer where
  replies := [.ok ⟨220, [ascii "relay"]⟩, .ok ⟨250, [ascii "relay"]⟩]

def greetingWorld : World where
  peer _ := greetingPeer
  candidates := .error (false, false, ascii "servfail")

/-- A smart host without TLS gets MAIL in plain text, whatever the request says. -/
theorem plain_smart_host_gets_mail (hostName : Bytes) (config : SmartHostConfig)
    (request : DeliveryRequest) (plain : config.tlsMode = .none) :
    ∃ text outcome,
      (smartHostEnvelope hostName config request (Conn.start greetingPeer)).1.sent =
        [.command false .ehlo (ascii "EHLO " ++ hostName), .command false .mailFrom text] ∧
      (smartHostEnvelope hostName config request (Conn.start greetingPeer)).2 =
        .error outcome := by
  have noTls (out : DeliveryOutcome) : smartHostTLS hostName config out = pure () := by
    simp [smartHostTLS, plain]
  have noAuth (out : DeliveryOutcome) : smartHostAuth config out = pure () := by
    simp [smartHostAuth, config.noPlainCredentials plain]
  simp only [smartHostEnvelope, noTls, noAuth]
  exact ⟨_, _, rfl, rfl⟩

theorem plain_smart_host_unguarded (client : Client) (request : DeliveryRequest)
    (config : SmartHostConfig) (plain : config.tlsMode = .none)
    (unblocked : config.tlsVerifyMode = .insecureSkipVerify ∨ client.checkHost config.host = none) :
    (deliverViaSmartHost client greetingWorld request config ⟨request.message, []⟩).1.guarded =
      false := by
  have blocks : (if config.tlsVerifyMode = .insecureSkipVerify then none
      else client.checkHost config.host) = none := by
    rcases unblocked with skips | allowed
    · exact if_pos skips
    · rw [allowed, ite_self]
  have dialled : (Route.smartHost config).dial greetingPeer = .ok (Conn.start greetingPeer) := by
    simp [Route.dial, Route.connect, plain, greetingPeer]
  obtain ⟨text, outcome, sent, stops⟩ :=
    plain_smart_host_gets_mail client.hostName config request plain
  have ran : (Route.smartHost config).envelope client.hostName request (Conn.start greetingPeer) =
      ((smartHostEnvelope client.hostName config request (Conn.start greetingPeer)).1,
        .error outcome) := Prod.ext rfl stops
  simp only [deliverViaSmartHost, blocks, converse, greetingWorld, List.length_nil, dialled, ran]
  simp [Call.guarded, Call.record, Conn.close, sent, Sent.guarded]

theorem plain_dispatch_unguarded (client : Client) (request : DeliveryRequest)
    (config : SmartHostConfig) (plain : config.tlsMode = .none)
    (unblocked : config.tlsVerifyMode = .insecureSkipVerify ∨ client.checkHost config.host = none) :
    (dispatchSmartHost client greetingWorld request config ⟨request.message, []⟩).1.guarded =
      false := by
  have relayed := plain_smart_host_unguarded client request config plain unblocked
  have direct (call : Call) : deliverDirectMX client greetingWorld request call =
      (call, resolutionFailed (ascii "servfail")) := rfl
  cases order : config.fallbackPolicy with
  | smartHostOnly =>
    simpa only [dispatchSmartHost, order] using relayed
  | smartHostThenMX =>
    simp only [dispatchSmartHost, order, direct]
    split
    · exact relayed
    · exact relayed
  | mxThenSmartHost =>
    simpa [dispatchSmartHost, order, direct, resolutionFailed] using relayed

/-- A request that requires TLS keeps MAIL and the message off plain connections,
whatever the servers do, exactly when it is not relayed in plain text. -/
theorem require_tls_kept_unless_relayed_in_plain_text (client : Client)
    (request : DeliveryRequest) (required : request.requireTLS = true) :
    (∀ world, (deliver client world request).1.guarded = true) ↔
      ∀ config, client.relaysThrough request config → config.tlsMode ≠ .none := by
  constructor
  · rintro guarded config ⟨domain, addressed, effective, unblocked⟩ plain
    have unguarded := plain_dispatch_unguarded client request config plain unblocked
    have held := guarded greetingWorld
    simp only [deliver, addressed, effective] at held
    rw [unguarded] at held
    cases held
  · intro configured world
    have rule : CallRule client world request (fun call => call.guarded = true) (fun _ => True) := by
      constructor
      · intro route call taken before
        refine ⟨converse_guarded client world request route call required ?_ before, trivial⟩
        cases route with
        | mx host policy => rfl
        | smartHost config => exact decide_eq_false (configured config taken)
      · exact fun _ _ _ _ => trivial
    exact (deliver_keeps rule rfl).1

def relayAt (tlsMode : TlsMode) : SmartHostConfig where
  host := ascii "relay.example"
  port := 587
  tlsMode := tlsMode
  tlsVerifyMode := .systemRoots
  authMethod := .none
  fallbackPolicy := .smartHostOnly
  fallbackAfterFailureSeconds := 300
  noPlainCredentials _ := rfl

def relayClient (tlsMode : TlsMode) : Client where
  hostName := ascii "mx.example"
  smartHost := some (relayAt tlsMode)
  perDomain _ := none
  checkHost _ := none

def confidential : DeliveryRequest where
  mailFrom := ascii "a@herold.example"
  rcptTo := ascii "b@remote.example"
  message := [ascii "Subject: x" ++ crlf ++ crlf ++ ascii "secret" ++ crlf]
  requireTLS := true

/-- With a relay that is spoken to over STARTTLS the request is safe. -/
theorem require_tls_kept_over_starttls_relay :
    confidential.requireTLS = true ∧
      ∀ world, (deliver (relayClient .starttls) world confidential).1.guarded = true := by
  refine ⟨rfl, ?_⟩
  apply (require_tls_kept_unless_relayed_in_plain_text _ confidential rfl).mpr
  rintro config ⟨domain, addressed, effective, unblocked⟩
  cases effective
  decide

/-- A relay without STARTTLS takes a message that requires TLS in plain text. -/
theorem required_tls_downgraded_at_plain_relay :
    ¬ ∀ client world request, request.requireTLS = true →
      (deliver client world request).1.guarded = true := by
  intro guarded
  have held := guarded (relayClient .none)
    { peer := fun _ => { replies := [.ok ⟨220, [ascii "relay"]⟩, .ok ⟨250, [ascii "relay"]⟩,
        .ok ⟨250, [ascii "ok"]⟩, .ok ⟨250, [ascii "ok"]⟩, .ok ⟨354, [ascii "go"]⟩,
        .ok ⟨250, [ascii "queued"]⟩] } } confidential rfl
  revert held
  decide +kernel

end Herold.Smtp

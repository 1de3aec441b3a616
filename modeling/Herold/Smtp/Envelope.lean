import Herold.Smtp.Outbound

/-!
# What a conversation sends before the data

Up to the reply that asks for the data, a conversation writes commands only, it
never ends in a success, and a MAIL command that has to be encrypted is written
behind a completed handshake. Each step of the two envelopes keeps this.
-/

namespace Herold.Smtp

open Herold.Go Herold.Machine Herold.Machine.Exchange

/-- What may be sent before the data. When strict, MAIL goes out encrypted only. -/
def Sent.BeforeData (strict : Bool) : Sent → Prop
  | command secure verb _ => strict = true → verb = .mailFrom → secure = true
  | data _ _ => False

structure Steady (strict encrypted : Bool) (conn : Conn) : Prop where
  sent : ∀ sent ∈ conn.sent, sent.BeforeData strict
  secure : encrypted = true → conn.secure = true

structure Stopped (strict : Bool) (outcome : DeliveryOutcome) (conn : Conn) : Prop where
  failed : outcome.status ≠ .success
  sent : ∀ sent ∈ conn.sent, sent.BeforeData strict

/-- An outcome that is made of an error and is none of the successes. -/
def Fails (failed : Bytes → DeliveryOutcome) : Prop := ∀ error, (failed error).status ≠ .success

section

variable (out : DeliveryOutcome) (code : Int)

@[simp] theorem transient_status (out : DeliveryOutcome) (text : Bytes) :
    (out.transient text).status = .transient := rfl

@[simp] theorem permanent_status (out : DeliveryOutcome) (code : Int) (enhanced text : Bytes) :
    (out.permanent code enhanced text).status = .permanent := rfl

theorem transient_fails (text : Bytes → Bytes) : Fails fun error => out.transient (text error) := by
  intro error
  simp

theorem permanent_fails (enhanced : Bytes)
    (text : Bytes → Bytes) : Fails fun error => out.permanent code enhanced (text error) := by
  intro error
  simp

@[simp] theorem map_reply_outcome_fails (enhanced text phase : Bytes) :
    (mapReplyOutcome out code enhanced text phase).status ≠ .success := by
  unfold mapReplyOutcome
  dsimp only
  split <;> decide

end

section Steps

variable {strict encrypted : Bool}

theorem pure_keeps {Value : Type} (value : Value) :
    Triple (Steady strict encrypted) (pure value : Conversing Value)
      (fun _ => Steady strict encrypted) (Stopped strict) := by
  apply triple_pure
  exact fun _ steady => steady

theorem stop_keeps {Value : Type} {outcome : DeliveryOutcome} (fails : outcome.status ≠ .success) :
    Triple (Steady strict encrypted) (stop outcome : Conversing Value)
      (fun _ => Steady strict encrypted) (Stopped strict) := by
  apply triple_stop
  exact fun _ steady => ⟨fails, steady.sent⟩

theorem get_keeps :
    Triple (Steady strict encrypted) (get : Conversing Conn)
      (fun _ => Steady strict encrypted) (Stopped strict) := by
  apply triple_get
  exact fun _ steady => steady

theorem require_finds (condition : Prop) [Decidable condition] {otherwise : DeliveryOutcome}
    (fails : otherwise.status ≠ .success) :
    Triple (Steady strict encrypted) (require condition otherwise)
      (fun _ conn => Steady strict encrypted conn ∧ condition) (Stopped strict) := by
  unfold require
  split
  case isTrue holds =>
    apply triple_pure
    intro conn steady
    exact ⟨steady, holds⟩
  case isFalse =>
    apply triple_stop
    intro conn steady
    exact ⟨fails, steady.sent⟩

theorem require_keeps (condition : Prop) [Decidable condition] {otherwise : DeliveryOutcome}
    (fails : otherwise.status ≠ .success) :
    Triple (Steady strict encrypted) (require condition otherwise)
      (fun _ => Steady strict encrypted) (Stopped strict) := by
  apply triple_weaken (require_finds condition fails) (fun _ steady => steady)
  exact fun _ _ held => held.1

theorem command_keeps {verb : CommandVerb} {text : Bytes} {failed : Bytes → DeliveryOutcome}
    (fails : Fails failed) (guarded : strict = true → verb = .mailFrom → encrypted = true) :
    Triple (Steady strict encrypted) (command verb text failed)
      (fun _ => Steady strict encrypted) (Stopped strict) := by
  intro conn steady
  have written : ∀ sent ∈ conn.sent ++ [Sent.command conn.secure verb text],
      sent.BeforeData strict := by
    intro sent member
    rcases List.mem_append.mp member with before | now
    · exact steady.sent sent before
    · rw [List.mem_singleton.mp now]
      exact fun isStrict mail => steady.secure (guarded isStrict mail)
  unfold command
  cases conn.peer.writeError conn.commands with
  | none => exact ⟨written, steady.secure⟩
  | some error => exact ⟨fails error, written⟩

section

variable (hostName : Bytes) {failed : Bytes → DeliveryOutcome} (out : DeliveryOutcome)

theorem read_reply_keeps (fails : Fails failed) :
    Triple (Steady strict encrypted) (readReply failed)
      (fun _ => Steady strict encrypted) (Stopped strict) := by
  intro conn steady
  unfold readReply
  cases conn.replies with
  | nil => exact ⟨fails _, steady.sent⟩
  | cons reply replies =>
    cases reply with
    | error error => exact ⟨fails error, steady.sent⟩
    | ok lines => exact ⟨steady.sent, steady.secure⟩

theorem ehlo_keeps (fails : Fails failed) : Triple (Steady strict encrypted) (ehlo hostName failed)
      (fun _ => Steady strict encrypted) (Stopped strict) := by
  apply triple_bind _ (command_keeps fails (by simp))
  intro _
  apply triple_bind _ (read_reply_keeps fails)
  intro reply
  apply triple_bind (fun _ => Steady strict encrypted)
  · apply triple_modify
    intro conn steady
    split
    · exact ⟨steady.sent, steady.secure⟩
    · exact steady
  · intro _
    exact pure_keeps _

theorem helo_keeps (fails : Fails failed) : Triple (Steady strict encrypted) (helo hostName failed)
      (fun _ => Steady strict encrypted) (Stopped strict) := by
  apply triple_bind _ (command_keeps fails (by simp))
  intro _
  exact read_reply_keeps fails

theorem expect_keeps (label phase : Bytes) (accepts : SmtpReply → Bool) :
    Triple (Steady strict encrypted) (expect out label phase accepts)
      (fun _ => Steady strict encrypted) (Stopped strict) := by
  apply triple_bind _ (read_reply_keeps (transient_fails _ _))
  intro reply
  exact require_keeps _ (map_reply_outcome_fails _ _ _ _ _)

theorem serial_envelope_keeps (wording : Wording) (request : DeliveryRequest)
    (out : DeliveryOutcome) (guarded : strict = true → encrypted = true) :
    Triple (Steady strict encrypted) (serialEnvelope wording request out)
      (fun _ => Steady strict encrypted) (Stopped strict) := by
  apply triple_bind _ get_keeps
  intro conn
  apply triple_bind _ (command_keeps (transient_fails _ _) fun isStrict _ => guarded isStrict)
  intro _
  apply triple_bind _ (expect_keeps _ _ _ _)
  intro _
  apply triple_bind _ (command_keeps (transient_fails _ _) (by simp))
  intro _
  apply triple_bind _ (expect_keeps _ _ _ _)
  intro _
  apply triple_bind _ (command_keeps (transient_fails _ _) (by simp))
  intro _
  exact expect_keeps _ _ _ _

theorem pipelined_envelope_keeps (wording : Wording) (request : DeliveryRequest)
    (out : DeliveryOutcome) (guarded : strict = true → encrypted = true) :
    Triple (Steady strict encrypted) (pipelinedEnvelope wording request out)
      (fun _ => Steady strict encrypted) (Stopped strict) := by
  apply triple_bind _ get_keeps
  intro conn
  apply triple_bind _ (command_keeps (transient_fails _ _) fun isStrict _ => guarded isStrict)
  intro _
  apply triple_bind _ (command_keeps (transient_fails _ _) (by simp))
  intro _
  apply triple_bind _ (command_keeps (transient_fails _ _) (by simp))
  intro _
  apply triple_bind _ (expect_keeps _ _ _ _)
  intro _
  apply triple_bind _ (expect_keeps _ _ _ _)
  intro _
  exact expect_keeps _ _ _ _

theorem hello_keeps : Triple (Steady strict encrypted) (hello hostName out)
      (fun _ => Steady strict encrypted) (Stopped strict) := by
  apply triple_bind _ (ehlo_keeps hostName (transient_fails _ _))
  intro reply
  split
  · exact pure_keeps _
  · apply triple_bind _ (helo_keeps hostName (transient_fails _ _))
    intro reply
    exact require_keeps _ (map_reply_outcome_fails _ _ _ _ _)

theorem hello_again_keeps (label phase : Bytes) :
    Triple (Steady strict encrypted) (helloAgain hostName out label phase)
      (fun _ => Steady strict true) (Stopped strict) := by
  apply triple_bind (fun _ => Steady strict true)
  · apply triple_modify
    exact fun conn steady => ⟨steady.sent, fun _ => rfl⟩
  · intro _
    apply triple_bind _ (ehlo_keeps hostName (transient_fails _ _))
    intro reply
    exact require_keeps _ (map_reply_outcome_fails _ _ _ _ _)

theorem handshake_keeps (host : Bytes) (policy : Option MtaStsPolicy) (mandatory : Bool)
    (out : DeliveryOutcome) :
    Triple (Steady strict encrypted) (handshake host policy mandatory out)
      (fun _ => Steady strict encrypted) (Stopped strict) := by
  apply triple_bind _ get_keeps
  intro conn
  cases conn.peer.handshakeError with
  | some error =>
    dsimp only
    split
    · exact stop_keeps (by simp [negotiationFailed])
    · exact pure_keeps _
  | none =>
    dsimp only
    split
    · split
      · exact pure_keeps _
      · exact stop_keeps (by simp)
    · split
      · split
        · exact pure_keeps _
        · exact stop_keeps (by simp [negotiationFailed])
      · exact pure_keeps _

theorem upgrade_tls_keeps (host : Bytes) (policy : Option MtaStsPolicy) (requireTLS : Bool)
    (out : DeliveryOutcome) :
    Triple (Steady strict encrypted) (upgradeTLS host policy requireTLS out)
      (fun _ => Steady strict encrypted) (Stopped strict) := by
  apply triple_bind _ get_keeps
  intro conn
  dsimp only
  split
  · apply triple_bind _ (command_keeps (transient_fails _ _) (by simp))
    intro _
    apply triple_bind _ (read_reply_keeps (transient_fails _ _))
    intro reply
    split
    · exact handshake_keeps host policy _ out
    · split
      · exact stop_keeps (by simp [negotiationFailed])
      · exact pure_keeps _
  · split
    · exact stop_keeps (by simp)
    · exact pure_keeps _

theorem cancel_auth_keeps (fails : Fails failed) (error : Bytes) :
    Triple (Steady strict encrypted) (cancelAuth failed error)
      (fun _ => Steady strict encrypted) (Stopped strict) := by
  apply triple_bind _ (command_keeps (fun _ => fails error) (by simp))
  intro _
  exact stop_keeps (fails error)

theorem auth_turn_keeps (fails : Fails failed) (reply : SmtpReply) {respond : Conversing Unit}
    (responds : Triple (Steady strict encrypted) respond
      (fun _ => Steady strict encrypted) (Stopped strict)) :
    Triple (Steady strict encrypted) (authTurn failed reply respond)
      (fun _ => Steady strict encrypted) (Stopped strict) := by
  unfold authTurn
  split
  · exact pure_keeps _
  · split
    · split
      · exact stop_keeps (fails _)
      · exact responds
    · exact stop_keeps (fails _)

theorem auth_loop_keeps (fails : Fails failed) (answers : List (Except Bytes Bytes)) :
    Triple (Steady strict encrypted) (authLoop failed answers)
      (fun _ => Steady strict encrypted) (Stopped strict) := by
  have reads : Triple (Steady strict encrypted)
      (readReply fun error => failed (ascii "auth read: " ++ error))
      (fun _ => Steady strict encrypted) (Stopped strict) :=
    read_reply_keeps fun error => fails _
  induction answers with
  | nil =>
    apply triple_bind _ reads
    intro reply
    exact auth_turn_keeps fails reply (cancel_auth_keeps fails [])
  | cons answer answers ih =>
    cases answer with
    | error error =>
      apply triple_bind _ reads
      intro reply
      exact auth_turn_keeps fails reply (cancel_auth_keeps fails error)
    | ok line =>
      apply triple_bind _ reads
      intro reply
      apply auth_turn_keeps fails reply
      apply triple_bind _ (command_keeps (fun error => fails _) (by simp))
      intro _
      exact ih

theorem run_smart_host_auth_keeps (fails : Fails failed) :
    Triple (Steady strict encrypted) (runSmartHostAuth failed)
      (fun _ => Steady strict encrypted) (Stopped strict) := by
  apply triple_bind _ get_keeps
  intro conn
  cases conn.peer.authLine with
  | error error => exact stop_keeps (fails error)
  | ok line =>
    apply triple_bind _ (command_keeps (fun error => fails _) (by simp))
    intro _
    exact auth_loop_keeps fails _

theorem smart_host_starttls_keeps (config : SmartHostConfig) (out : DeliveryOutcome) :
    Triple (Steady strict encrypted) (smartHostSTARTTLS hostName config out)
      (fun _ => Steady strict true) (Stopped strict) := by
  apply triple_bind _ get_keeps
  intro conn
  apply triple_bind _ (require_keeps _ (by simp))
  intro _
  apply triple_bind _ (command_keeps (transient_fails _ _) (by simp))
  intro _
  apply triple_bind _ (read_reply_keeps (transient_fails _ _))
  intro reply
  apply triple_bind _ (require_keeps _ (map_reply_outcome_fails _ _ _ _ _))
  intro _
  apply triple_bind _ (require_keeps _ (by simp))
  intro _
  exact hello_again_keeps hostName out _ _

theorem hello_after_keeps (decision : TlsDecision) (out : DeliveryOutcome) :
    Triple (Steady strict false) (helloAfter hostName decision out)
      (fun _ => Steady strict decision.used) (Stopped strict) := by
  unfold helloAfter
  split
  case isTrue used =>
    rw [used]
    exact hello_again_keeps hostName out _ _
  case isFalse plain =>
    rw [Bool.not_eq_true _ |>.mp plain]
    exact pure_keeps _

end

theorem mx_transaction_keeps (request : DeliveryRequest) (out : DeliveryOutcome)
    (guarded : strict = true → encrypted = true) :
    Triple (Steady strict encrypted) (mxTransaction request out)
      (fun _ => Steady strict encrypted) (Stopped strict) := by
  apply triple_bind _ get_keeps
  intro conn
  split
  · exact pipelined_envelope_keeps mxWording request out guarded
  · exact serial_envelope_keeps mxWording request out guarded

end Steps

theorem mx_envelope_keeps (strict : Bool) (hostName host : Bytes) (policy : Option MtaStsPolicy)
    (request : DeliveryRequest) (required : strict = true → request.requireTLS = true) :
    Triple (Steady strict false) (mxEnvelope hostName host policy request)
      (fun _ => Steady strict strict) (Stopped strict) := by
  apply triple_bind _ (read_reply_keeps (transient_fails _ _))
  intro greeting
  apply triple_bind _ (require_keeps _ (map_reply_outcome_fails _ _ _ _ _))
  intro _
  apply triple_bind _ (hello_keeps hostName _)
  intro _
  apply triple_bind _ (upgrade_tls_keeps host policy _ _)
  intro decision
  apply triple_bind _ (hello_after_keeps hostName decision _)
  intro _
  apply triple_bind _ (require_finds _ (by simp))
  intro _
  apply triple_known
  intro gated
  have guarded : strict = true → decision.used = true := by
    intro isStrict
    simpa [required isStrict] using gated
  apply triple_bind _ (mx_transaction_keeps request _ guarded)
  intro _
  apply triple_pure
  exact fun _ steady => ⟨steady.sent, fun isStrict => steady.secure (guarded isStrict)⟩

theorem smart_host_tls_keeps (strict : Bool) (hostName : Bytes) (config : SmartHostConfig)
    (out : DeliveryOutcome) (configured : strict = true → config.tlsMode ≠ .none) :
    Triple (Steady strict (config.tlsMode = .implicitTLS)) (smartHostTLS hostName config out)
      (fun _ => Steady strict strict) (Stopped strict) := by
  unfold smartHostTLS
  split
  case isTrue =>
    apply triple_weaken (smart_host_starttls_keeps hostName config out) (fun _ steady => steady)
    exact fun _ _ steady => ⟨steady.sent, fun _ => steady.secure rfl⟩
  case isFalse notOffered =>
    apply triple_pure
    intro conn steady
    refine ⟨steady.sent, fun isStrict => steady.secure ?_⟩
    have encrypted := configured isStrict
    cases mode : config.tlsMode <;> simp_all

theorem smart_host_auth_keeps {strict encrypted : Bool} (config : SmartHostConfig)
    (out : DeliveryOutcome) :
    Triple (Steady strict encrypted) (smartHostAuth config out)
      (fun _ => Steady strict encrypted) (Stopped strict) := by
  unfold smartHostAuth
  split
  · exact pure_keeps _
  · exact run_smart_host_auth_keeps (permanent_fails _ _ _ _)

theorem smart_host_envelope_keeps (strict : Bool) (hostName : Bytes) (config : SmartHostConfig)
    (request : DeliveryRequest) (configured : strict = true → config.tlsMode ≠ .none) :
    Triple (Steady strict (config.tlsMode = .implicitTLS))
      (smartHostEnvelope hostName config request) (fun _ => Steady strict strict)
      (Stopped strict) := by
  apply triple_bind _ (read_reply_keeps (transient_fails _ _))
  intro greeting
  apply triple_bind _ (require_keeps _ (map_reply_outcome_fails _ _ _ _ _))
  intro _
  apply triple_bind _ (ehlo_keeps hostName (transient_fails _ _))
  intro reply
  apply triple_bind _ (require_keeps _ (map_reply_outcome_fails _ _ _ _ _))
  intro _
  apply triple_bind _ (smart_host_tls_keeps strict hostName config _ configured)
  intro _
  apply triple_bind _ (smart_host_auth_keeps config _)
  intro _
  apply triple_bind _ (serial_envelope_keeps _ request _ id)
  intro _
  exact pure_keeps _

end Herold.Smtp

import Herold.Smtp.Attempt

/-!
# The shared reader of a call

All connections of a call read the message from one reader, which gives each
byte once. A connection that comes to the data phase takes bytes out of it
whether it ends well or not, so a later connection sends what is left. The call
delivers the whole message exactly when no connection before the last one came
to the data phase, and the message ends in a line end that the wire asks for.
-/

namespace Herold.Smtp

open Herold.Go Herold.Machine Herold.Machine.Exchange

def Sent.bytes : Sent → Bytes
  | command _ _ _ => []
  | data _ bytes => bytes

/-- What the server at the other end makes of the data it was sent. -/
def Conversation.received (conversation : Conversation) : Option Bytes :=
  unstuff true (conversation.sent.map Sent.bytes).flatten

def Call.delivered (call : Call) : Option Bytes :=
  call.conversations.getLast?.bind Conversation.received

def Conversation.reachesData (hostName : Bytes) (request : DeliveryRequest)
    (conversation : Conversation) : Bool :=
  match conversation.route.dial conversation.peer with
  | .error _ => false
  | .ok conn => (conversation.route.envelope hostName request conn).2.isOk

def Call.untouched (client : Client) (request : DeliveryRequest) (call : Call) : Prop :=
  ∀ conversation ∈ call.conversations,
    conversation.reachesData client.hostName request = false

/-- How far the reader is: bytes have been taken from it exactly when some
connection came to the data phase. -/
def ReaderAt (client : Client) (request : DeliveryRequest) (call : Call) : Prop :=
  ∃ taken, request.message.flatten = taken ++ call.message.flatten ∧
    (request.message.flatten ≠ [] → (taken = [] ↔ call.untouched client request))

theorem stuff_ends_line (body : Bytes) :
    (stuff true body).2 = true ↔ body = [] ∨ body.getLast? = some 10 := by
  rcases List.eq_nil_or_concat body with rfl | ⟨front, last, rfl⟩
  · simp [stuff]
  · simp [stuff_ended]

section

variable (client : Client) (request : DeliveryRequest) (call : Call) (conversation : Conversation)

theorem untouched_record (message : List Bytes) :
    (call.record conversation message).untouched client request ↔
      call.untouched client request ∧
        conversation.reachesData client.hostName request = false := by
  simp [Call.untouched, Call.record, or_imp, forall_and]

theorem transmit_rest (wording : Wording) (out : DeliveryOutcome) (conn : Conn)
    (message : List Bytes) :
    (transmit wording out conn message).2.1 =
      (writeDotStuffed conn.peer.breaksAt true message).rest := by
  unfold transmit
  dsimp only
  split
  case h_1 => rfl
  case h_2 =>
    split
    case h_1 => rfl
    case h_2 => split <;> rfl

theorem transmit_success (wording : Wording) (out : DeliveryOutcome) (conn : Conn)
    (message : List Bytes)
    (succeeds : (transmit wording out conn message).2.2.status = .success) :
    (transmit wording out conn message).1.sent = conn.sent ++ [.data conn.secure
      ((stuff true message.flatten).1 ++ dataEnd (stuff true message.flatten).2)] := by
  unfold transmit at succeeds ⊢
  dsimp only at succeeds ⊢
  cases wrote : (writeDotStuffed conn.peer.breaksAt true message).endedAtLineStart with
  | none => simp [wrote] at succeeds
  | some ended =>
    obtain ⟨written, -, rfl⟩ := write_dot_stuffed_whole _ _ _ _ wrote
    simp only [wrote] at succeeds ⊢
    cases fails : failingStage conn.peer (stuff true message.flatten).2 with
    | some stage => simp [fails] at succeeds
    | none =>
      dsimp only
      rw [written]
      have sent := final_reply_sent wording out (conn.write
        ((stuff true message.flatten).1 ++ dataEnd (stuff true message.flatten).2))
      split
      case h_1 result =>
        rw [result] at sent
        exact sent
      case h_2 result =>
        rw [result] at sent
        exact sent

theorem reader_at_start : ReaderAt client request ⟨request.message, []⟩ := by
  refine ⟨[], rfl, fun _ => ⟨fun _ => ?_, fun _ => rfl⟩⟩
  intro conversation member
  exact absurd member List.not_mem_nil

theorem reader_at_record_untouched (short : conversation.reachesData client.hostName request = false)
    (reader : ReaderAt client request call) :
    ReaderAt client request (call.record conversation call.message) := by
  obtain ⟨taken, split, touched⟩ := reader
  refine ⟨taken, split, fun present => ?_⟩
  rw [untouched_record, touched present]
  simp [short]

theorem reader_at_record_taken (breaksAt : Option Nat)
    (reached : conversation.reachesData client.hostName request = true)
    (reader : ReaderAt client request call) :
    ReaderAt client request
      (call.record conversation (writeDotStuffed breaksAt true call.message).rest) := by
  obtain ⟨before, split, touched⟩ := reader
  obtain ⟨now, rest, takes⟩ := write_dot_stuffed_takes breaksAt true call.message
  refine ⟨before ++ now, ?_, fun present => ?_⟩
  · rw [split, rest, List.append_assoc]
    rfl
  · rw [untouched_record, reached]
    simp only [Bool.true_eq_false, and_false, iff_false, List.append_eq_nil_iff]
    rintro ⟨rfl, nothing⟩
    rw [List.nil_append] at split
    exact takes (split ▸ present) nothing

theorem converse_reader_at (world : World) (request : DeliveryRequest)
    (route : Route) (call : Call) (reader : ReaderAt client request call) :
    ReaderAt client request (converse client world request route call).1 := by
  rcases converse_cases client world request route call _ rfl with
    ⟨outcome, refused, same⟩ | ⟨conn, after, outcome, dialled, ran, same⟩ |
      ⟨conn, after, out, dialled, ran, same⟩
  · rw [same]
    apply reader_at_record_untouched _ _ _ _ _ reader
    simp only [Conversation.reachesData, refused]
  · rw [same]
    apply reader_at_record_untouched _ _ _ _ _ reader
    simp only [Conversation.reachesData, dialled, ran]
    rfl
  · rw [same, transmit_rest]
    apply reader_at_record_taken _ _ _ _ _ _ reader
    simp only [Conversation.reachesData, dialled, ran]
    rfl

theorem no_bytes_before_data (strict : Bool) (sent : List Sent)
    (before : ∀ item ∈ sent, item.BeforeData strict) : (sent.map Sent.bytes).flatten = [] := by
  rw [List.flatten_eq_nil_iff]
  intro bytes member
  obtain ⟨item, present, rfl⟩ := List.mem_map.mp member
  cases item with
  | command secure verb text => rfl
  | data secure bytes => exact (before _ present).elim

/-- The server of a successful connection received what the reader had left, with
a line end behind it when it had none. -/
theorem converse_success (world : World) (request : DeliveryRequest) (route : Route) (call : Call)
    (succeeds : (converse client world request route call).2.status = .success) :
    (converse client world request route call).1.delivered =
      some (call.message.flatten ++ if (stuff true call.message.flatten).2 then [] else crlf) := by
  have envelope := route_envelope_keeps false client.hostName request route
    (world.peer call.conversations.length) nofun
  rcases converse_cases client world request route call _ rfl with
    ⟨outcome, refused, same⟩ | ⟨conn, after, outcome, dialled, ran, same⟩ |
      ⟨conn, after, out, dialled, ran, same⟩
  · rw [same] at succeeds
    exact absurd succeeds (dial_fails route _ outcome refused)
  · rw [same] at succeeds
    exact absurd succeeds (triple_stops envelope dialled ran).failed
  · rw [same] at succeeds ⊢
    have steady := triple_ends envelope dialled ran
    have sent := transmit_success route.wording out after call.message succeeds
    simp only [Call.delivered, Call.record, List.getLast?_append, List.getLast?_singleton,
      Option.some_or, Option.bind_some, Conversation.received, Conn.close, sent]
    rw [List.map_append, List.map_append, List.flatten_append, List.flatten_append,
      no_bytes_before_data false _ steady.sent]
    simpa [Sent.bytes] using unstuff_data true call.message.flatten

/-- What is left of a message is not the message once bytes are gone, not even
with a line end behind it. -/
theorem rest_is_whole_iff (message taken rest : Bytes) (split : message = taken ++ rest) :
    rest ++ (if (stuff true rest).2 then [] else crlf) = message ↔
      taken = [] ∧ (message = [] ∨ message.getLast? = some 10) := by
  subst split
  constructor
  · intro same
    by_cases ends : (stuff true rest).2 = true
    · rw [if_pos ends, List.append_nil] at same
      have none : taken = [] := List.self_eq_append_left.mp same
      subst none
      exact ⟨rfl, (stuff_ends_line rest).mp ends⟩
    · rw [if_neg ends] at same
      have present : rest ≠ [] := fun empty => ends ((stuff_ends_line rest).mpr (.inl empty))
      have last := congrArg List.getLast? same
      rw [List.getLast?_append_of_ne_nil taken present,
        List.getLast?_append_of_ne_nil rest (by decide)] at last
      exact absurd ((stuff_ends_line rest).mpr (.inr last.symm)) ends
  · rintro ⟨rfl, ends⟩
    rw [List.nil_append] at ends ⊢
    rw [if_pos ((stuff_ends_line rest).mpr ends), List.append_nil]

theorem reader_whole_iff (taken : Bytes)
    (split : request.message.flatten = taken ++ call.message.flatten)
    (touched : request.message.flatten ≠ [] → (taken = [] ↔ call.untouched client request)) :
    (taken = [] ∧ (request.message.flatten = [] ∨ request.message.flatten.getLast? = some 10)) ↔
      request.message.flatten = [] ∨
        (request.message.flatten.getLast? = some 10 ∧ call.untouched client request) := by
  by_cases present : request.message.flatten = []
  · have none : taken = [] := (List.append_eq_nil_iff.mp (split.symm.trans present)).1
    simp [present, none]
  · simp only [present, false_or, touched present, and_comm]

end

/-- A success comes from the last connection, and its server received exactly the
bytes of the message if and only if there are none, or the last one is a line
feed and no connection before it came to the data phase. -/
theorem whole_message_delivered_iff (client : Client) (world : World) (request : DeliveryRequest)
    (succeeds : (deliver client world request).2.status = .success) :
    ∃ route before, deliver client world request = converse client world request route before ∧
      ((deliver client world request).1.delivered = some request.message.flatten ↔
        request.message.flatten = [] ∨
          (request.message.flatten.getLast? = some 10 ∧ before.untouched client request)) := by
  have rule : CallRule client world request (ReaderAt client request) (fun result =>
      result.2.status = .success → ∃ route before, ReaderAt client request before ∧
        result = converse client world request route before) := by
    constructor
    · intro route call _ reader
      exact ⟨converse_reader_at client world request route call reader,
        fun _ => ⟨route, call, reader, rfl⟩⟩
    · exact fun call outcome _ fails success => absurd success fails
  obtain ⟨route, before, ⟨taken, split, touched⟩, last⟩ :=
    (deliver_keeps rule (reader_at_start client request)).2 succeeds
  refine ⟨route, before, last, ?_⟩
  rw [last] at succeeds ⊢
  rw [converse_success client world request route before succeeds, Option.some.injEq,
    rest_is_whole_iff _ taken _ split]
  exact reader_whole_iff client request before taken split touched

def twoExchangers (first : ReplyLines) : World where
  peer n := { replies := [.ok ⟨220, [ascii "mx"]⟩, .ok ⟨250, [ascii "mx"]⟩, .ok ⟨250, [ascii "ok"]⟩,
    .ok ⟨250, [ascii "ok"]⟩, .ok ⟨354, [ascii "go"]⟩,
    .ok (if n = 0 then first else ⟨250, [ascii "queued"]⟩)] }
  candidates := .ok [ascii "mx1.remote.example", ascii "mx2.remote.example"]

def directClient : Client where
  hostName := ascii "mx.example"
  smartHost := none
  perDomain _ := none
  checkHost _ := none

def letter : DeliveryRequest where
  mailFrom := ascii "a@herold.example"
  rcptTo := ascii "b@remote.example"
  message := [ascii "Subject: x" ++ crlf ++ crlf, ascii ".hidden" ++ crlf]

theorem whole_letter_delivered_at_once :
    ∃ route before, deliver directClient (twoExchangers ⟨250, [ascii "queued"]⟩) letter =
        converse directClient (twoExchangers ⟨250, [ascii "queued"]⟩) letter route before ∧
      ((deliver directClient (twoExchangers ⟨250, [ascii "queued"]⟩) letter).1.delivered =
          some letter.message.flatten ↔
        letter.message.flatten = [] ∨
          (letter.message.flatten.getLast? = some 10 ∧
            before.untouched directClient letter)) :=
  whole_message_delivered_iff directClient (twoExchangers ⟨250, [ascii "queued"]⟩) letter
    (by decide +kernel)

/-- The first exchanger puts the letter off behind its data, and the second takes
an empty one. -/
theorem empty_letter_delivered_to_second_exchanger :
    ¬ ∀ client world request, (deliver client world request).2.status = .success →
      (deliver client world request).1.delivered = some request.message.flatten := by
  intro whole
  have held := whole directClient (twoExchangers ⟨451, [ascii "later"]⟩) letter
  revert held
  decide +kernel

end Herold.Smtp

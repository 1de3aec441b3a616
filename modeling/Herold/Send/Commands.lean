import Herold.Send.Fields
import Herold.Send.Handlers
import Herold.Smtp.Outbound

/-!
# The commands a send comes to

The queue lower-cases and trims the envelope of a request and the outbound
session writes it between the brackets of MAIL and RCPT. Neither step takes a
line break or a bracket out of the middle, so what the request holds there
decides whether the remote server reads one command or several.
-/

namespace Herold.Send

open Herold.Go Herold.Queue Herold.Smtp Herold.Store

def isPath (text : Bytes) : Bool := isBreakless text && !text.contains 62

/-- One line with one closing bracket behind the start of the command. -/
def isOneCommand (start : Bytes) (line : Bytes) : Bool :=
  hasPrefix line start && isBreakless line && (line.drop start.length).count 62 == 1

/-- `outboundDeliverer.Deliver` on the request the scheduler makes of a row. -/
def deliveryRequest (row : QueueItem) (message : List Bytes) (requireTLS : Bool) : DeliveryRequest where
  mailFrom := row.mailFrom
  rcptTo := row.rcptTo
  message := message
  requireTLS := requireTLS

def sendsOneEnvelope (request : DeliveryRequest) (conn : Conn) : Bool :=
  isOneCommand (ascii "MAIL FROM:<") (buildMailFromLine request conn) &&
    isOneCommand (ascii "RCPT TO:<") (buildRcptToLine request conn)

theorem path_iff (text : Bytes) : isPath text = true ↔ isBreakless text = true ∧ 62 ∉ text := by
  simp [isPath]

/-- Behind a clean start and before clean parameters, the line is one command
exactly when the address is a path. -/
theorem one_command_iff (start address parameters : Bytes) (clean : isPath start = true)
    (plain : isPath parameters = true) :
    isOneCommand start (start ++ address ++ ascii ">" ++ parameters) = true ↔
    isPath address = true := by
  rw [path_iff] at clean plain
  have begins : hasPrefix (start ++ address ++ ascii ">" ++ parameters) start = true := by
    rw [hasPrefix, List.isPrefixOf_iff_prefix, List.append_assoc, List.append_assoc]
    exact List.prefix_append ..
  have behind : (start ++ address ++ ascii ">" ++ parameters).drop start.length =
      address ++ (ascii ">" ++ parameters) := by
    rw [List.append_assoc, List.append_assoc, List.drop_left]
  have bracket : (ascii ">" ++ parameters).count 62 = 1 := by
    rw [List.count_append, List.count_eq_zero.mpr plain.2]
    decide
  have breaks : isBreakless (ascii ">") = true := by decide
  simp only [isOneCommand, begins, behind, breakless_append, clean.1, plain.1, breaks,
    List.count_append,
    bracket, Bool.true_and, Bool.and_true, Bool.and_eq_true, beq_iff_eq, Nat.add_eq_right,
    List.count_eq_zero, path_iff]

section

variable (row : QueueItem) (message : List Bytes) (requireTLS : Bool) (conn : Conn)

theorem mail_from_parameters : ∃ parameters, isPath parameters = true ∧
      buildMailFromLine (deliveryRequest row message requireTLS) conn =
        ascii "MAIL FROM:<" ++ row.mailFrom ++ ascii ">" ++ parameters := by
  refine ⟨if requireTLS && conn.hasExtension "REQUIRETLS" then ascii " REQUIRETLS" else [], ?_, ?_⟩
  · split <;> decide
  · simp [buildMailFromLine, deliveryRequest]

theorem rcpt_to_parameters : buildRcptToLine (deliveryRequest row message requireTLS) conn =
      ascii "RCPT TO:<" ++ row.rcptTo ++ ascii ">" ++ [] := by
  simp [buildRcptToLine, deliveryRequest]

theorem one_envelope_iff : sendsOneEnvelope (deliveryRequest row message requireTLS) conn = true ↔
      isPath row.mailFrom = true ∧ isPath row.rcptTo = true := by
  obtain ⟨parameters, plain, line⟩ := mail_from_parameters row message requireTLS conn
  rw [sendsOneEnvelope, Bool.and_eq_true, line, rcpt_to_parameters,
    one_command_iff _ row.mailFrom parameters (by decide) plain,
    one_command_iff _ row.rcptTo [] (by decide) rfl]

end

theorem to_lower_path (text : Bytes) : isPath (toLower text) = isPath text := by
  apply Bool.eq_iff_iff.mpr
  rw [path_iff, path_iff, to_lower_breakless, mem_to_lower rfl]

theorem stored_address_path (address : Bytes) :
    isPath (storedAddress address) = isPath (trimSpace address) := by
  rw [storedAddress, to_lower_path, to_lower_path]

theorem submitted_recipients (attempt : Attempt) (submission : Submission) (store final : Store)
    (envelopeID : Bytes) (stored : submit attempt submission store = (.ok envelopeID, final)) :
    submission.recipients ≠ [] := by
  unfold submit at stored
  split at stored
  · cases stored
  case h_2 prepared ready => exact prepare_ok_recipients attempt submission prepared ready

/-- The server reads one MAIL and one RCPT command for every delivery of an
accepted request exactly when its source and all its recipients are, trimmed,
free of CR, LF and closing brackets. -/
theorem send_commands_single_iff (outside : Outside) (options : Send.ServerOptions) (caller : Caller)
    (request : Request) (submission : Submission) (messageID envelopeID : Bytes) (attempt : Attempt)
    (store final : Store)
    (accepted : accept outside options caller request = .ok (submission, messageID))
    (stored : submit attempt submission store = (.ok envelopeID, final)) :
    (∀ row ∈ createdRows store final, ∀ message requireTLS conn,
        sendsOneEnvelope (deliveryRequest row message requireTLS) conn = true) ↔
      isPath (trimSpace (request.source outside)) = true ∧
        ∀ rcpt ∈ request.recipients, isPath (trimSpace rcpt) = true := by
  obtain ⟨sender, recipients⟩ :=
    accept_envelope outside options caller request submission messageID accepted
  obtain ⟨rows, senders⟩ := submit_ok_creates attempt submission store final envelopeID stored
  have someone := submitted_recipients attempt submission store final envelopeID stored
  rw [recipients] at rows someone
  constructor
  · intro single
    have paths : ∀ row ∈ createdRows store final,
        isPath row.mailFrom = true ∧ isPath row.rcptTo = true := by
      intro row member
      exact (one_envelope_iff row [] false (Conn.start {})).mp (single row member [] false _)
    constructor
    · have nonempty : createdRows store final ≠ [] := by
        intro empty
        rw [empty, List.map_nil] at rows
        exact someone (List.map_eq_nil_iff.mp rows.symm)
      obtain ⟨row, rest, listed⟩ := List.exists_cons_of_ne_nil nonempty
      have member : row ∈ createdRows store final := listed ▸ List.mem_cons_self ..
      rw [← sender, ← stored_address_path, ← senders row member]
      exact (paths row member).1
    · intro rcpt member
      have listed : storedAddress rcpt ∈ (createdRows store final).map QueueItem.rcptTo := by
        rw [rows]
        exact List.mem_map_of_mem member
      obtain ⟨row, inside, same⟩ := List.mem_map.mp listed
      rw [← stored_address_path, ← same]
      exact (paths row inside).2
  · rintro ⟨sourcePath, recipientPaths⟩ row member message requireTLS conn
    rw [one_envelope_iff, senders row member, stored_address_path, sender]
    refine ⟨sourcePath, ?_⟩
    have listed : row.rcptTo ∈ request.recipients.map storedAddress := by
      rw [← rows]
      exact List.mem_map_of_mem member
    obtain ⟨rcpt, inside, same⟩ := List.mem_map.mp listed
    rw [← same, stored_address_path]
    exact recipientPaths rcpt inside

def bareAddress (text : Bytes) : Except Bytes Bytes :=
  match splitAddr text with
  | some (localPart, domain) =>
    if localPart.all isTokenByte && domain.all isTokenByte then .ok text
    else .error (ascii "mail: no angle-addr")
  | none => .error (ascii "mail: missing '@' or angle-addr")

def bareOutside : Outside where
  parseAddress := bareAddress
  parseAddressList text := (splitByte 44 text).mapM fun part => bareAddress (trimBlanks part)
  sanityParse _ := .ok ()
  quotedPrintable text := text
  base64Error _ := ascii "illegal base64 data"
  submitErrorText _ := ascii "queue: enqueue"

def sampleOptions : Send.ServerOptions where
  hostname := ascii "mx.b.org"
  maxRecipients := 100
  maxBodySize := 1000

def sampleStamp : Stamp := ⟨0, 1, 0, 2026, 0, 0, 0⟩

def sampleCaller : Caller where
  principal := ⟨1, ascii "a@b.org", false⟩
  key := ⟨1, [], []⟩
  directory := ⟨fun _ _ => .notFound, fun _ => .ok []⟩
  entropy := ⟨.ok [1], .ok [2]⟩
  now := sampleStamp

def sampleRaw : Bytes := ascii "From: a@b.org\r\n\r\nhi\r\n"

def rawTo (destination : Bytes) : SendRawRequest where
  destinations := [destination]
  rawMessage := base64URLOk sampleRaw

def injected : Bytes := ascii "c@d.org>\r\nRCPT TO:<e@f.org"

def rawSubmission (destination : Bytes) : Submission where
  principalID := some 1
  mailFrom := ascii "a@b.org"
  recipients := [destination]
  body := some (ascii "Message-ID: <01@b.org>\r\nDate: Sun, 01 Jan 2026 00:00:00 +0000\r\n" ++
    sampleRaw)

theorem raw_to_accepted (destination : Bytes) :
    accept bareOutside sampleOptions sampleCaller (.sendRaw (rawTo destination)) =
      .ok (rawSubmission destination, ascii "01@b.org") := by
  have readable : readRawHeader sampleRaw = .ok [(ascii "From", ascii "a@b.org")] := by decide +kernel
  have inspected : inspectRawMessage sampleCaller.entropy sampleRaw sampleOptions.hostname
    (ascii "a@b.org")
      sampleCaller.now = .ok ⟨ascii
        "Message-ID: <01@b.org>\r\nDate: Sun, 01 Jan 2026 00:00:00 +0000\r\n" ++
        sampleRaw, ascii "01@b.org"⟩ := by decide +kernel
  have owned : checkFromPolicy sampleCaller (ascii "a@b.org") = none := by decide +kernel
  have first : extractFirstAddress bareOutside
    (headerGet [(ascii "From", ascii "a@b.org")] (ascii "From")) =
      ascii "a@b.org" := by decide +kernel
  have decoded : decodeRaw bareOutside sampleOptions (rawTo destination) = .ok sampleRaw := by
    have text : stdDecode (rawTo destination).rawMessage = some sampleRaw := std_decode_base64 sampleRaw
    rw [decodeRaw, text]
    rfl
  rw [accept, sendRawSubmission, decoded]
  simp only [readable, first, owned, inspected]
  rfl

def stored (destination : Bytes) : Store :=
  (submit (attemptFailing fun _ => false) (rawSubmission destination) Store.empty).2

theorem raw_destination_adds_command :
    accept bareOutside sampleOptions sampleCaller (.sendRaw (rawTo injected)) =
        .ok (rawSubmission injected, ascii "01@b.org") ∧
      (submit (attemptFailing fun _ => false) (rawSubmission injected) Store.empty).1 = .ok
        (ascii "e") ∧
        ∃ row ∈ createdRows Store.empty (stored injected),
          buildRcptToLine (deliveryRequest row [] false) (Conn.start {}) =
              ascii "RCPT TO:<c@d.org>\r\nrcpt to:<e@f.org>" ∧
            sendsOneEnvelope (deliveryRequest row [] false) (Conn.start {}) = false := by
  refine ⟨raw_to_accepted injected, rfl, _, List.mem_singleton.mpr rfl, ?_, ?_⟩
  · decide +kernel
  · decide +kernel

theorem send_commands_single_of_plain_destination :
    accept bareOutside sampleOptions sampleCaller (.sendRaw (rawTo (ascii "c@d.org"))) =
        .ok (rawSubmission (ascii "c@d.org"), ascii "01@b.org") ∧
      ((∀ row ∈ createdRows Store.empty (stored (ascii "c@d.org")), ∀ message requireTLS conn,
          sendsOneEnvelope (deliveryRequest row message requireTLS) conn = true) ↔
        isPath (trimSpace (Request.source bareOutside (.sendRaw (rawTo (ascii "c@d.org"))))) = true ∧
          ∀ rcpt ∈ (Request.sendRaw (rawTo (ascii "c@d.org"))).recipients,
            isPath (trimSpace rcpt) = true) := by
  have accepted := raw_to_accepted (ascii "c@d.org")
  exact ⟨accepted, send_commands_single_iff bareOutside sampleOptions sampleCaller _ _ _ (ascii "e")
    (attemptFailing fun _ => false) Store.empty _ accepted rfl⟩

end Herold.Send

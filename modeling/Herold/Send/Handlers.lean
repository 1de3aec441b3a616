import Herold.Queue.Submit
import Herold.Send.Policy
import Herold.Send.Raw

/-!
# The send handlers

`processSend` and `processSendRaw`: validation, the ownership check, and the
submission handed to the queue. The parsers of `net/mail` for addresses, the
sanity parse of `mailparse` and the texts of errors from outside are arguments;
metrics, audit lines and counters are left out.
-/

namespace Herold.Send

open Herold.Go Herold.Queue

structure SendRawRequest where
  destinations : List Bytes
  rawMessage : Bytes
  configurationSet : Bytes := []
  idempotencyKey : Bytes := []
  dsnNotify : List Bytes := []
  deriving DecidableEq

structure Problem where
  status : Nat
  typeSlug : Bytes
  title : Bytes
  detail : Bytes
  deriving DecidableEq

def newProblem (status : Nat) (typeSlug title : String) (detail : Bytes) : Problem where
  status := status
  typeSlug := ascii typeSlug
  title := ascii title
  detail := detail

def validationFailed (title : Bytes) (detail : Bytes) : Problem where
  status := 400
  typeSlug := ascii "validation-failed"
  title := title
  detail := detail

/-- The code the handlers call outside the package. An address stands for the
`Address` field of the parser's result. -/
structure Outside where
  parseAddress : Bytes → Except Bytes Bytes
  parseAddressList : Bytes → Except Bytes (List Bytes)
  sanityParse : Bytes → Except Bytes Unit
  quotedPrintable : Bytes → Bytes
  base64Error : Bytes → Bytes
  submitErrorText : SubmitError → Bytes

structure ServerOptions where
  hostname : Bytes
  maxRecipients : Nat
  maxBodySize : Nat

structure Caller where
  principal : Principal
  key : APIKey
  directory : Directory
  entropy : Entropy
  now : Stamp

def allRecipients (destination : Destination) : List Bytes :=
  destination.toAddresses ++ destination.ccAddresses ++ destination.bccAddresses

/-- The first recipient that is no address, with the parser's complaint. -/
def badRecipient (outside : Outside) : List Bytes → Option (Bytes × Bytes)
  | [] => none
  | rcpt :: rest =>
    match outside.parseAddress rcpt with
    | .error error => some (rcpt, error)
    | .ok _ => badRecipient outside rest

def validateSendRequest (outside : Outside) (options : ServerOptions) (request : SendRequest) :
    Option Problem :=
  if trimSpace request.source = [] then some (validationFailed (ascii "source is required") [])
  else match outside.parseAddress request.source with
    | .error error => some (validationFailed (ascii "source is not a valid email address") error)
    | .ok _ =>
      let rcpts := allRecipients request.destination
      if trimSpace request.subject = [] then
        some (validationFailed (ascii "message.subject is required") [])
      else if request.body.text = [] ∧ request.body.html = [] then
        some (validationFailed
          (ascii "at least one of message.body.text or message.body.html is required") [])
      else if rcpts = [] then
        some (validationFailed (ascii "destination must contain at least one address") [])
      else if options.maxRecipients < rcpts.length then
        some (validationFailed (ascii "destination exceeds " ++ decimal options.maxRecipients ++
          ascii " recipients") [])
      else (badRecipient outside rcpts).map fun (rcpt, error) =>
        validationFailed (ascii "recipient is not a valid email address: " ++ rcpt) error

/-- `checkFromPolicy`: the problem of a source the caller may not use. -/
def checkFromPolicy (caller : Caller) (source : Bytes) : Option Problem :=
  match checkFrom caller.directory caller.principal (some caller.key) (toLower source) with
  | .error error =>
    some (newProblem 500 "internal-error" "from-address ownership check failed" error)
  | .ok (.denied _) =>
    some (newProblem 403 "forbidden-from"
      "from address is not owned by the authenticated principal" source)
  | .ok .allowed => none

def composeIdempotencyKey (keyID : Nat) (clientKey : Bytes) : Bytes :=
  if clientKey = [] then [] else decimal keyID ++ ascii ":" ++ clientKey

def notifyFlag (word : Bytes) : Nat :=
  let word := toLower (trimSpace word)
  if word = ascii "success" then 2
  else if word = ascii "failure" then 4
  else if word = ascii "delay" then 8
  else if word = ascii "never" then 16
  else 0

def parseDSNNotify (words : List Bytes) : Nat := words.foldl
    (fun flags word => flags ||| notifyFlag word) 0

def sendSubmission (outside : Outside) (options : ServerOptions) (caller : Caller)
    (request : SendRequest) : Except Problem (Submission × Bytes) :=
  match validateSendRequest outside options request with
  | some problem => .error problem
  | none => match checkFromPolicy caller request.source with
    | some problem => .error problem
    | none =>
      match buildStructuredMessage outside.quotedPrintable caller.entropy request options.hostname
        caller.now with
      | .error _ => .error (newProblem 500 "internal-error" "could not build message" [])
      | .ok built => .ok ({
          principalID := some caller.principal.id
          mailFrom := request.source
          recipients := allRecipients request.destination
          body := some built.bytes
          idempotencyKey := composeIdempotencyKey caller.key.id request.idempotencyKey
          dsnNotify := parseDSNNotify request.dsnNotify }, built.messageID)

/-- `extractFirstAddress`; no address is the empty text. -/
def extractFirstAddress (outside : Outside) (field : Bytes) : Bytes :=
  match outside.parseAddressList field with
  | .ok (address :: _) => address
  | _ => match outside.parseAddress (trimSpace field) with
    | .ok address => address
    | .error _ => []

def decodeRaw (outside : Outside) (options : ServerOptions) (request : SendRawRequest) :
    Except Problem Bytes :=
  if request.destinations = [] then
    .error (validationFailed (ascii "destinations is required") [])
  else if options.maxRecipients < request.destinations.length then
    .error (validationFailed (ascii "destinations exceeds " ++ decimal options.maxRecipients) [])
  else match stdDecode request.rawMessage with
    | none => .error (newProblem 400 "invalid-body" "rawMessage is not valid base64"
        (outside.base64Error request.rawMessage))
    | some raw =>
      if options.maxBodySize < raw.length then
        .error (newProblem 413 "payload-too-large" "raw message exceeds size cap" [])
      else match outside.sanityParse raw with
        | .error error =>
          .error (newProblem 400 "invalid-message" "raw message failed sanity parse" error)
        | .ok () => .ok raw

def sendRawSubmission (outside : Outside) (options : ServerOptions) (caller : Caller)
    (request : SendRawRequest) : Except Problem (Submission × Bytes) :=
  match decodeRaw outside options request with
  | .error problem => .error problem
  | .ok raw => match readRawHeader raw with
    | .error error => .error (newProblem 400 "invalid-message" "could not read raw message" error)
    | .ok fields =>
      let source := extractFirstAddress outside (headerGet fields (ascii "From"))
      if source = [] then
        .error (validationFailed (ascii "raw message missing From: address") [])
      else match checkFromPolicy caller source with
        | some problem => .error problem
        | none =>
          match inspectRawMessage caller.entropy raw options.hostname source caller.now with
          | .error error => .error ⟨400, ascii "invalid-message", error, []⟩
          | .ok inspected => .ok ({
              principalID := some caller.principal.id
              mailFrom := source
              recipients := request.destinations
              body := some inspected.bytes
              idempotencyKey := composeIdempotencyKey caller.key.id request.idempotencyKey
              dsnNotify := parseDSNNotify request.dsnNotify }, inspected.messageID)

structure SendResponse where
  messageID : Bytes
  submissionID : Bytes
  deriving DecidableEq

/-- The end of both handlers. A conflict is the answer to an earlier request. -/
def enqueue (outside : Outside) (attempt : Attempt) (submission : Submission) (messageID : Bytes)
    (store : Herold.Store) : Except Problem SendResponse × Herold.Store :=
  match submit attempt submission store with
  | (.ok envelopeID, next) => (.ok ⟨ascii "<" ++ messageID ++ ascii ">", envelopeID⟩, next)
  | (.error (.conflict prior), next) => (.ok ⟨ascii "<" ++ messageID ++ ascii ">", prior⟩, next)
  | (.error cause, next) =>
    (.error (newProblem 500 "queue-error" "could not submit to queue" (outside.submitErrorText cause)),
      next)

inductive Request where
  | send (request : SendRequest)
  | sendRaw (request : SendRawRequest)

def accept (outside : Outside) (options : ServerOptions) (caller : Caller) :
    Request → Except Problem (Submission × Bytes)
  | .send request => sendSubmission outside options caller request
  | .sendRaw request => sendRawSubmission outside options caller request

/-- `processSend` and `processSendRaw`. -/
def process (outside : Outside) (options : ServerOptions) (caller : Caller) (attempt : Attempt)
    (request : Request) (store : Herold.Store) : Except Problem SendResponse × Herold.Store :=
  match accept outside options caller request with
  | .error problem => (.error problem, store)
  | .ok (submission, messageID) => enqueue outside attempt submission messageID store

def Request.source (outside : Outside) : Request → Bytes
  | .send request => request.source
  | .sendRaw request =>
    match stdDecode request.rawMessage with
    | none => []
    | some raw => match readRawHeader raw with
      | .error _ => []
      | .ok fields => extractFirstAddress outside (headerGet fields (ascii "From"))

def Request.recipients : Request → List Bytes
  | .send request => allRecipients request.destination
  | .sendRaw request => request.destinations

section

variable (outside : Outside) (options : ServerOptions) (caller : Caller)

theorem decode_raw_ok (request : SendRawRequest)
    (raw : Bytes) (decoded : decodeRaw outside options request = .ok raw) :
    request.destinations ≠ [] ∧ stdDecode request.rawMessage = some raw := by
  unfold decodeRaw at decoded
  split at decoded
  · cases decoded
  case isFalse given =>
    split at decoded
    · cases decoded
    · split at decoded
      · cases decoded
      case h_2 found =>
        split at decoded
        · cases decoded
        · split at decoded
          · cases decoded
          · cases decoded
            exact ⟨given, found⟩

theorem check_from_policy_none (source : Bytes) (passed : checkFromPolicy caller source = none) :
    checkFrom caller.directory caller.principal (some caller.key) (toLower source) = .ok .allowed := by
  unfold checkFromPolicy at passed
  split at passed
  · cases passed
  · cases passed
  · assumption

theorem send_submission_ok (request : SendRequest) (submission : Submission) (messageID : Bytes)
    (accepted : sendSubmission outside options caller request = .ok (submission, messageID)) :
    validateSendRequest outside options request = none ∧ submission.mailFrom = request.source ∧
      submission.recipients = allRecipients request.destination := by
  unfold sendSubmission at accepted
  split at accepted
  · cases accepted
  case h_2 valid =>
    split at accepted
    · cases accepted
    · split at accepted
      · cases accepted
      · cases accepted
        exact ⟨valid, rfl, rfl⟩

/-- What a raw request is accepted with: its message reads, has an address in its
first From field, and that address is the sender's. -/
theorem send_raw_submission_ok (request : SendRawRequest) (submission : Submission) (messageID : Bytes)
    (accepted : sendRawSubmission outside options caller request = .ok (submission, messageID)) :
    ∃ raw fields inspected, stdDecode request.rawMessage = some raw ∧
      readRawHeader raw = .ok fields ∧
      submission.mailFrom = extractFirstAddress outside (headerGet fields (ascii "From")) ∧
      submission.mailFrom ≠ [] ∧ checkFromPolicy caller submission.mailFrom = none ∧
      inspectRawMessage caller.entropy raw options.hostname submission.mailFrom caller.now =
        .ok inspected ∧
      submission.body = some inspected.bytes ∧ submission.recipients = request.destinations := by
  unfold sendRawSubmission at accepted
  split at accepted
  · cases accepted
  case h_2 raw decoded =>
    obtain ⟨_, found⟩ := decode_raw_ok outside options request raw decoded
    split at accepted
    · cases accepted
    case h_2 fields readAs =>
      dsimp only at accepted
      split at accepted
      · cases accepted
      case isFalse named =>
        split at accepted
        · cases accepted
        case h_2 allowed =>
          split at accepted
          · cases accepted
          case h_2 inspected built =>
            cases accepted
            exact ⟨raw, fields, inspected, found, readAs, rfl, named, allowed, built, rfl, rfl⟩

theorem accept_envelope (request : Request) (submission : Submission) (messageID : Bytes)
    (accepted : accept outside options caller request = .ok (submission, messageID)) :
    submission.mailFrom = request.source outside ∧ submission.recipients = request.recipients := by
  cases request with
  | send request =>
    obtain ⟨_, sender, recipients⟩ :=
      send_submission_ok outside options caller request submission messageID accepted
    exact ⟨sender, recipients⟩
  | sendRaw request =>
    obtain ⟨raw, fields, _, found, readAs, sender, _, _, _, _, recipients⟩ :=
      send_raw_submission_ok outside options caller request submission messageID accepted
    refine ⟨?_, recipients⟩
    rw [sender, Request.source, found]
    simp only [readAs]

end

end Herold.Send

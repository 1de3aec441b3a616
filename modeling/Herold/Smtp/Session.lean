import Herold.Machine.Run
import Herold.Maillist.Verp
import Herold.Smtp.Command
import Herold.Smtp.DotStream

/-!
# The inbound SMTP session

The command loop of one connection and its handlers. What a handler asks of the
directory, the store, the disk, the SASL mechanism and the client's connection
while it runs is answered by an `Outside` that comes with the command. The log
records what the session accepted, in order.
-/

namespace Herold.Smtp

open Herold.Go Herold.Machine Herold.Maillist

inductive ListenerMode where
  | relayIn
  | submissionSTARTTLS
  | submissionImplicitTLS
  deriving DecidableEq

def ListenerMode.isSubmission : ListenerMode → Bool
  | relayIn => false
  | submissionSTARTTLS | submissionImplicitTLS => true

inductive SessionState where
  | init
  | greeted
  | envelope
  | recipients
  deriving DecidableEq

structure ServerOptions where
  hostname : Bytes
  maxCommandsPerSession : Nat := 1000
  maxRecipientsPerMessage : Nat := 100
  maxMessageSize : Int := 50 * 1024 * 1024
  greylist : Bool := false
  passwordLookup : Bool := false
  deriving DecidableEq

structure RcptEntry where
  addr : Bytes
  localPart : Bytes
  domain : Bytes
  principalID : Nat := 0
  notify : Bytes := []
  orcpt : Bytes := []
  synthetic : Bool := false
  routeTag : Bytes := []
  decisionSource : Bytes := []
  externalForward : Bytes := []
  srsBounceTo : Bytes := []
  mailingList : Option Nat := none
  mailingListBounce : Option (Nat × Bytes) := none
  deriving DecidableEq

structure Spill where
  file : Nat
  content : Bytes
  deriving DecidableEq

structure Envelope where
  mailFrom : Bytes := []
  mailFromParams : MailFromParams := {}
  rcpts : List RcptEntry := []
  spill : Option Spill := none
  spillSize : Int := 0
  deriving DecidableEq

inductive Reply where
  | line (text : Bytes)
  | challenge (challenge : Bytes)
  | badParameter (error : ParamError)
  deriving DecidableEq

/-- What `finishMessage` is given: the envelope and the body as they stand. -/
structure Submitted where
  authenticated : Bool
  tlsEstablished : Bool
  mailFrom : Bytes
  mailFromParams : MailFromParams
  rcpts : List RcptEntry
  body : Bytes
  deriving DecidableEq

inductive SessionEvent where
  | greeted
  | secured
  | authenticated (principal : Nat)
  | mailAccepted (mailFrom : Bytes) (params : MailFromParams)
  | rcptAccepted (entry : RcptEntry)
  | spillCreated
  | bodyWritten (bytes : Bytes)
  | envelopeReset
  | finished (message : Submitted)
  deriving DecidableEq

inductive Lookup (Answer : Type) where
  | found (answer : Answer)
  | notFound
  | failed

inductive SaslError where
  | tlsRequired
  | mechanismUnsupported
  | channelBindingMismatch
  | invalidMessage
  | protocolError
  | other
  deriving DecidableEq

/-- One run of a SASL mechanism: its answer to `Start` and to each `Next`, the
client's lines in between and the principal it ends with. -/
structure SaslRun where
  start : Except SaslError (Bytes × Bool) := .error .other
  next : List (Except SaslError (Bytes × Bool)) := []
  lines : List Bytes := []
  principal : Option Nat := none

structure Outside where
  flushes : Bool := true
  replied : Bool := true
  hasCertificates : Bool := true
  /-- The outcome of the handshake, with the channel binding it yields. -/
  handshake : Option Bytes := none
  sasl : SaslRun := {}
  greylisted : Bytes → Bytes → Bool := fun _ _ => false
  postingAddress : Bytes → Lookup Nat := fun _ => .notFound
  resolveAddress : Bytes → Bytes → Lookup Nat := fun _ _ => .notFound
  resolveExternalAlias : Bytes → Bytes → Lookup Bytes := fun _ _ => .notFound
  resolveInboundRcpt : RcptEntry → Except Bytes RcptEntry := fun entry => .ok entry
  createSpill : Bool := true
  room : Nat := 2 ^ 62
  syncSpill : Bool := true
  incoming : Bytes := []
  endsInEOF : Bool := true
  /-- The reply `finishMessage` comes to. -/
  verdict : Bytes := ascii "250 2.6.0 message accepted"

structure Session where
  mode : ListenerMode
  allowPlainAuth : Bool
  st : SessionState := .init
  helo : Bytes := []
  isEHLO : Bool := false
  tlsEstablished : Bool
  serverEndpoint : Bytes
  authenticated : Bool := false
  authPrincipal : Nat := 0
  authMechName : Bytes := []
  submissionAllow : Bool := false
  commandCount : Nat := 0
  envelope : Envelope := {}
  files : List Nat := []
  nextFile : Nat := 0
  replies : List Reply := []
  log : List SessionEvent := []
  closed : Bool := false

/-- The session of an accepted connection. Implicit TLS comes with its channel
binding. -/
def Session.accept (mode : ListenerMode) (allowPlainAuth : Bool) (implicit : Option Bytes) :
    Session where
  mode := mode
  allowPlainAuth := allowPlainAuth
  tlsEstablished := mode = .submissionImplicitTLS && implicit.isSome
  serverEndpoint := if mode = .submissionImplicitTLS then implicit.getD [] else []

namespace Session

def writeReply (session : Session) (reply : Reply) : Session :=
  { session with replies := session.replies ++ [reply] }

def answer (session : Session) (text : Bytes) : Session := session.writeReply (.line text)

def record (session : Session) (event : SessionEvent) : Session :=
  { session with log := session.log ++ [event] }

def resetEnvelope (session : Session) : Session :=
  record { session with
    envelope := {}
    files := match session.envelope.spill with
      | some spill => session.files.erase spill.file
      | none => session.files
    st := if session.st = .envelope ∨ session.st = .recipients then .greeted else session.st }
    .envelopeReset

def greet (session : Session) (name : Bytes) (isEHLO : Bool) : Session :=
  resetEnvelope (record { session with helo := name, isEHLO, st := .greeted } .greeted)

def cmdHELO (options : ServerOptions) (rest : Bytes) (session : Session) : Session :=
  let name := trimSpace rest
  if name = [] then session.answer (ascii "501 5.5.4 HELO requires domain name")
  else (session.greet name false).answer (ascii "250 " ++ options.hostname)

def authMechanismList (options : ServerOptions) (session : Session) : List Bytes :=
  (if session.tlsEstablished || session.allowPlainAuth then [ascii "PLAIN", ascii "LOGIN"]
    else []) ++
  if options.passwordLookup then
    ascii "SCRAM-SHA-256" ::
      if session.tlsEstablished && session.serverEndpoint ≠ [] then
        [ascii "SCRAM-SHA-256-PLUS"]
      else []
  else []

def ehloExtensions (options : ServerOptions) (outside : Outside) (session : Session) :
    List Bytes :=
  (if session.mode ≠ .submissionImplicitTLS && !session.tlsEstablished &&
      outside.hasCertificates then [ascii "STARTTLS"] else []) ++
  (if session.mode.isSubmission && session.authMechanismList options ≠ [] then
    [(session.authMechanismList options).foldl (fun line name => line ++ ascii " " ++ name)
      (ascii "AUTH")] else []) ++
  [ascii "SIZE " ++ decimal options.maxMessageSize.toNat, ascii "PIPELINING", ascii "8BITMIME",
    ascii "SMTPUTF8", ascii "CHUNKING", ascii "DSN", ascii "ENHANCEDSTATUSCODES",
    ascii "REQUIRETLS"]

/-- `replyMulti` with the code 250 and no enhanced code. -/
def replyMulti (heading : Bytes) (lines : List Bytes) (session : Session) : Session :=
  match lines.reverse with
  | [] => session.answer (ascii "250 " ++ heading)
  | last :: before =>
    (before.reverse.foldl (fun session line => session.answer (ascii "250-" ++ line))
      (session.answer (ascii "250-" ++ heading))).answer (ascii "250 " ++ last)

def cmdEHLO (options : ServerOptions) (outside : Outside) (rest : Bytes) (session : Session) :
    Session :=
  let name := trimSpace rest
  if name = [] then session.answer (ascii "501 5.5.4 EHLO requires domain name")
  else
    let session := session.greet name true
    session.replyMulti (options.hostname ++ ascii " Hello " ++ name)
      (session.ehloExtensions options outside)

/-- A handler returns the session and whether the connection closes after the
reply. -/
def cmdSTARTTLS (outside : Outside) (rest : Bytes) (session : Session) : Session × Bool :=
  if session.mode = .submissionImplicitTLS then
    (session.answer (ascii "503 5.5.1 TLS already active"), false)
  else if trimSpace rest ≠ [] then
    (session.answer (ascii "501 5.5.4 STARTTLS takes no arguments"), false)
  else if !outside.hasCertificates then
    (session.answer (ascii "454 4.7.0 TLS not available"), false)
  else if session.tlsEstablished then
    (session.answer (ascii "503 5.5.1 TLS already active"), false)
  else
    let session := session.answer (ascii "220 2.0.0 ready to start TLS")
    match outside.flushes, outside.handshake with
    | true, some binding =>
      (resetEnvelope (record
        { session with
          tlsEstablished := true
          serverEndpoint := binding
          helo := []
          isEHLO := false
          st := .init
          authenticated := false
          authPrincipal := 0 } .secured), false)
    | _, _ => (session, true)

def authErrorText : SaslError → Bytes
  | .tlsRequired => ascii "538 5.7.11 encryption required for requested mechanism"
  | .mechanismUnsupported => ascii "504 5.5.4 mechanism not supported"
  | .channelBindingMismatch => ascii "535 5.7.8 channel binding mismatch"
  | .invalidMessage => ascii "501 5.5.2 invalid SASL message"
  | .protocolError => ascii "503 5.5.1 SASL protocol error"
  | .other => ascii "535 5.7.8 authentication failed"

/-- Whether `buildMechanism` knows the name and offers it now. -/
def buildMechanism (options : ServerOptions) (session : Session) (name : Bytes) : Bool :=
  if name = ascii "PLAIN" ∨ name = ascii "LOGIN" then
    session.tlsEstablished || session.allowPlainAuth
  else if name = ascii "SCRAM-SHA-256" then options.passwordLookup
  else if name = ascii "SCRAM-SHA-256-PLUS" then
    options.passwordLookup && session.tlsEstablished && session.serverEndpoint ≠ []
  else false

inductive AuthEnd where
  | refused (text : Bytes)
  | closed
  | done (challenge : Bytes) (lines : List Bytes)

/-- The challenge loop of `cmdAUTH`, with the challenges it sent. A mechanism
that falls silent stands for a connection that does. -/
def authExchange (flushes : Bool) : List Bytes → Except SaslError (Bytes × Bool) →
    List (Except SaslError (Bytes × Bool)) → List Bytes × AuthEnd
  | _, .error error, _ => ([], .refused (authErrorText error))
  | lines, .ok (challenge, true), _ => ([], .done challenge lines)
  | [], .ok (challenge, false), _ => ([challenge], .closed)
  | line :: lines, .ok (challenge, false), answers =>
    if flushes = false then ([challenge], .closed)
    else if line = ascii "*" then
      ([challenge], .refused (ascii "501 5.0.0 AUTH aborted by client"))
    else if (stdDecode line).isNone then
      ([challenge], .refused (ascii "501 5.5.2 AUTH response not valid base64"))
    else match answers with
      | [] => ([challenge], .closed)
      | answer :: answers =>
        let (challenges, ended) := authExchange flushes lines answer answers
        (challenge :: challenges, ended)

def sendChallenges (challenges : List Bytes) (session : Session) : Session :=
  { session with replies := session.replies ++ challenges.map Reply.challenge }

def initialResponseOk : List Bytes → Bool
  | _ :: response :: _ => response = ascii "=" || (stdDecode response).isSome
  | _ => true

def login (principal : Nat) (name : Bytes) (session : Session) : Session :=
  record { session with
    authenticated := true
    authPrincipal := principal
    authMechName := name
    submissionAllow := true } (.authenticated principal)

def cmdAUTH (options : ServerOptions) (outside : Outside) (rest : Bytes) (session : Session) :
    Session × Bool :=
  if session.mode = .relayIn then
    (session.answer (ascii "502 5.5.1 AUTH not available on this port"), false)
  else if session.st = .init then (session.answer (ascii "503 5.5.1 EHLO first"), false)
  else if session.authenticated then
    (session.answer (ascii "503 5.5.1 already authenticated"), false)
  else match fields rest with
    | [] => (session.answer (ascii "501 5.5.4 AUTH requires a mechanism"), false)
    | mechanism :: response =>
      let name := toUpper mechanism
      if !initialResponseOk (mechanism :: response) then
        (session.answer (ascii "501 5.5.2 AUTH initial response not valid base64"), false)
      else if !session.buildMechanism options name then
        (session.answer (ascii "504 5.5.4 mechanism not supported"), false)
      else
        let (challenges, ended) := authExchange outside.flushes outside.sasl.lines
          outside.sasl.start outside.sasl.next
        let session := session.sendChallenges challenges
        match ended with
        | .refused text => (session.answer text, false)
        | .closed => (session, true)
        | .done challenge lines =>
          match outside.sasl.principal with
          | none => (session.answer (ascii "535 5.7.8 authentication failed"), false)
          | some principal =>
            -- the final server message is sent as one more challenge
            let session := session.sendChallenges (if challenge = [] then [] else [challenge])
            if challenge ≠ [] ∧ (outside.flushes = false ∨ lines = []) then (session, true)
            else
              ((session.login principal name).answer
                (ascii "235 2.7.0 authentication successful"), false)

def argumentError (usage : Bytes) (error : ArgumentError) (session : Session) : Session :=
  match error with
  | .syntaxError => session.answer usage
  | .path error => session.answer (ascii "501 5.5.4 " ++ error.text)
  | .parameter error => session.writeReply (.badParameter error)

def cmdMAIL (options : ServerOptions) (rest : Bytes) (session : Session) : Session :=
  if session.st = .init then session.answer (ascii "503 5.5.1 HELO/EHLO first")
  else if session.mode = .submissionSTARTTLS ∧ session.tlsEstablished = false then
    session.answer (ascii "530 5.7.0 must issue STARTTLS first")
  else if session.mode.isSubmission = true ∧ session.authenticated = false then
    session.answer (ascii "530 5.7.0 authentication required")
  else match parseArguments (ascii "FROM:") parseMailFromParams rest with
    | .error error =>
      session.argumentError (ascii "501 5.5.4 syntax: MAIL FROM:<addr> [PARAMS]") error
    | .ok (addr, params) =>
      if options.maxMessageSize < params.size then
        session.answer (ascii "552 5.3.4 message size " ++ decimal params.size.toNat ++
          ascii " exceeds limit " ++ decimal options.maxMessageSize.toNat)
      else
        let session := session.resetEnvelope
        (record { session with
          envelope := { session.envelope with mailFrom := addr, mailFromParams := params }
          st := .envelope } (.mailAccepted addr params)).answer (ascii "250 2.1.0 sender ok")

def lookupFailed : Bytes := ascii "451 4.3.0 directory lookup failed"

/-- A posting address of a hosted list, or the shape of one of its bounce
addresses. -/
def resolveList (outside : Outside) (entry : RcptEntry) : Lookup RcptEntry :=
  match outside.postingAddress entry.addr with
  | .found list => .found { entry with mailingList := some list }
  | .failed => .failed
  | .notFound =>
    match parseVERPBounceLocalPart entry.localPart with
    | none => .notFound
    | some (base, token) =>
      match outside.postingAddress (base ++ ascii "@" ++ entry.domain) with
      | .found list => .found { entry with mailingListBounce := some (list, token) }
      | .failed => .failed
      | .notFound => .notFound

/-- The resolution on a submission listener: a local principal, an alias that
leads outside, or any other address for the outbound queue. -/
def resolveSubmissionRcpt (outside : Outside) (entry : RcptEntry) : Except Bytes RcptEntry :=
  match outside.resolveAddress entry.localPart entry.domain with
  | .found principal =>
    .ok { entry with principalID := principal, decisionSource := ascii "internal" }
  | .failed => .error lookupFailed
  | .notFound =>
    match outside.resolveExternalAlias entry.localPart entry.domain with
    | .found target =>
      .ok { entry with externalForward := target, decisionSource := ascii "alias_external" }
    | .notFound => .ok { entry with decisionSource := ascii "submission_outbound" }
    | .failed => .error lookupFailed

def resolveRcpt (outside : Outside) (mode : ListenerMode) (entry : RcptEntry) :
    Except Bytes RcptEntry :=
  match resolveList outside entry with
  | .found entry => .ok entry
  | .failed => .error lookupFailed
  | .notFound =>
    if mode.isSubmission then resolveSubmissionRcpt outside entry
    else outside.resolveInboundRcpt entry

def acceptRcpt (entry : RcptEntry) (session : Session) : Session :=
  (record { session with
    envelope := { session.envelope with rcpts := session.envelope.rcpts ++ [entry] }
    st := .recipients } (.rcptAccepted entry)).answer (ascii "250 2.1.5 recipient ok")

def cmdRCPT (options : ServerOptions) (outside : Outside) (rest : Bytes) (session : Session) :
    Session :=
  if session.st ≠ .envelope ∧ session.st ≠ .recipients then
    session.answer (ascii "503 5.5.1 MAIL first")
  else if options.maxRecipientsPerMessage ≤ session.envelope.rcpts.length then
    session.answer (ascii "452 4.5.3 too many recipients")
  else match parseArguments (ascii "TO:") parseRcptParams rest with
    | .error error =>
      session.argumentError (ascii "501 5.5.4 syntax: RCPT TO:<addr> [PARAMS]") error
    | .ok (addr, params) =>
      match splitAddress addr with
      | none => session.answer (ascii "553 5.1.3 invalid recipient address")
      | some (localPart, domain) =>
        if options.greylist && outside.greylisted session.envelope.mailFrom addr then
          session.answer (ascii "451 4.7.1 greylisted; try again later")
        else
          match resolveRcpt outside session.mode
              { addr, localPart, domain, notify := params.notify, orcpt := params.orcpt } with
          | .error text => session.answer text
          | .ok entry => session.acceptRcpt entry

/-- Each message body starts in a new file. The file the envelope named before
stays on disk. -/
def openSpill (session : Session) : Session :=
  record { session with
    envelope := { session.envelope with spill := some ⟨session.nextFile, []⟩ }
    files := session.files ++ [session.nextFile]
    nextFile := session.nextFile + 1 } .spillCreated

def writeSpill (bytes : Bytes) (session : Session) : Session :=
  record { session with
    envelope := { session.envelope with
      spill := session.envelope.spill.map fun spill =>
        { spill with content := spill.content ++ bytes } } } (.bodyWritten bytes)

def storageFailure : Bytes := ascii "451 4.3.0 temporary storage failure"

/-- `finishMessage` ends in a reply and a reset on each of its paths. -/
def finishMessage (outside : Outside) (session : Session) : Session :=
  ((session.record (.finished
    { authenticated := session.authenticated
      tlsEstablished := session.tlsEstablished
      mailFrom := session.envelope.mailFrom
      mailFromParams := session.envelope.mailFromParams
      rcpts := session.envelope.rcpts
      body := (session.envelope.spill.map Spill.content).getD [] })).answer
    outside.verdict).resetEnvelope

def cmdDATA (options : ServerOptions) (outside : Outside) (session : Session) : Session × Bool :=
  if session.st ≠ .recipients ∨ session.envelope.rcpts = [] then
    (session.answer (ascii "503 5.5.1 no recipients"), false)
  else
    let session := session.answer (ascii "354 end data with <CR><LF>.<CR><LF>")
    if !outside.flushes then (session, true)
    else if !outside.createSpill then ((session.answer storageFailure).resetEnvelope, false)
    else
      let session := session.openSpill
      match readDotStream options.maxMessageSize outside.room outside.incoming with
      | .tooLarge _ =>
        ((session.answer (ascii "552 5.3.4 message too large")).resetEnvelope, false)
      | .cutShort =>
        if outside.endsInEOF then (session.resetEnvelope, true)
        else ((session.answer (ascii "451 4.3.0 I/O error reading DATA")).resetEnvelope, false)
      | .writeFailed _ =>
        ((session.answer (ascii "451 4.3.0 I/O error reading DATA")).resetEnvelope, false)
      | .complete content _ =>
        let session := session.writeSpill content
        let session :=
          { session with envelope := { session.envelope with spillSize := content.length } }
        if !outside.syncSpill then ((session.answer storageFailure).resetEnvelope, false)
        else (session.finishMessage outside, false)

/-- A value as an `int64` holds it. -/
def wrap64 (value : Int) : Int :=
  let low := value % 18446744073709551616
  if low < 9223372036854775808 then low else low - 18446744073709551616

/-- `cmdBDAT` with its chunk size read and a spill file at hand. -/
def receiveChunk (options : ServerOptions) (outside : Outside) (size : Nat) (last : Bool)
    (session : Session) : Session × Bool :=
  if options.maxMessageSize < wrap64 (session.envelope.spillSize + size) then
    ((session.answer (ascii "552 5.3.4 message too large")).resetEnvelope, false)
  else
    let chunk := outside.incoming.take (min size outside.room)
    let session := session.writeSpill chunk
    let session :=
      { session with
        envelope := { session.envelope with
          spillSize := wrap64 (session.envelope.spillSize + chunk.length) } }
    if chunk.length < size then (session.resetEnvelope, true)
    else if !last then
      (session.answer (ascii "250 2.0.0 " ++ decimal size ++ ascii " bytes received"), false)
    else if !outside.syncSpill then ((session.answer storageFailure).resetEnvelope, false)
    else (session.finishMessage outside, false)

def cmdBDAT (options : ServerOptions) (outside : Outside) (rest : Bytes) (session : Session) :
    Session × Bool :=
  if session.st ≠ .recipients ∨ session.envelope.rcpts = [] then
    (session.answer (ascii "503 5.5.1 no recipients"), false)
  else match fields rest with
    | [] => (session.answer (ascii "501 5.5.4 BDAT requires chunk size"), false)
    | size :: more =>
      match parseInt64 size with
      | none => (session.answer (ascii "501 5.5.4 BDAT bad chunk size"), false)
      | some size =>
        if size < 0 then (session.answer (ascii "501 5.5.4 BDAT bad chunk size"), false)
        else
          let last := (more.head?.map fun word => equalFold word (ascii "LAST")).getD false
          if session.envelope.spill.isNone && !outside.createSpill then
            ((session.answer storageFailure).resetEnvelope, false)
          else
            (if session.envelope.spill.isNone then session.openSpill else session).receiveChunk
              options outside size.toNat last

inductive Verb where
  | helo | ehlo | starttls | auth | mail | rcpt | data | bdat | rset | noop | quit | vrfy | expn
  | help
  | unrecognised
  deriving DecidableEq

def verbs : List (Bytes × Verb) :=
  [(ascii "HELO", .helo), (ascii "EHLO", .ehlo), (ascii "STARTTLS", .starttls),
    (ascii "AUTH", .auth), (ascii "MAIL", .mail), (ascii "RCPT", .rcpt), (ascii "DATA", .data),
    (ascii "BDAT", .bdat), (ascii "RSET", .rset), (ascii "NOOP", .noop), (ascii "QUIT", .quit),
    (ascii "VRFY", .vrfy), (ascii "EXPN", .expn), (ascii "HELP", .help)]

def verbOf (word : Bytes) : Verb :=
  ((verbs.find? fun entry => entry.1 = word).map Prod.snd).getD .unrecognised

def dispatch (options : ServerOptions) (outside : Outside) (verb : Verb) (rest : Bytes)
    (session : Session) : Session × Bool :=
  match verb with
  | .helo => (session.cmdHELO options rest, false)
  | .ehlo => (session.cmdEHLO options outside rest, false)
  | .starttls => session.cmdSTARTTLS outside rest
  | .auth => session.cmdAUTH options outside rest
  | .mail => (session.cmdMAIL options rest, false)
  | .rcpt => (session.cmdRCPT options outside rest, false)
  | .data => session.cmdDATA options outside
  | .bdat => session.cmdBDAT options outside rest
  | .rset => (session.resetEnvelope.answer (ascii "250 2.0.0 reset"), false)
  | .noop => (session.answer (ascii "250 2.0.0 ok"), false)
  | .quit =>
    (session.answer (ascii "221 2.0.0 " ++ options.hostname ++ ascii " closing connection"), true)
  | .vrfy => (session.answer (ascii "252 2.5.1 cannot verify user; try sending"), false)
  | .expn => (session.answer (ascii "502 5.5.1 EXPN not supported"), false)
  | .help => (session.answer (ascii "214 2.0.0 see https://example.invalid/herold"), false)
  | .unrecognised => (session.answer (ascii "500 5.5.1 unrecognised command"), false)

inductive Input where
  | line (text : Bytes) (outside : Outside)
  | lineTooLong
  | timeout
  | disconnected
  | shutdown

def closeWith (session : Session) (text : Bytes) : Session :=
  { session.answer text with closed := true }

def step (options : ServerOptions) (session : Session) (input : Input) : Option Session :=
  if session.closed then none
  else match input with
    | .shutdown => some (session.closeWith (ascii "421 4.3.2 server shutting down"))
    | input =>
      let session := { session with commandCount := session.commandCount + 1 }
      if options.maxCommandsPerSession < session.commandCount then
        some (session.closeWith (ascii "421 4.7.0 too many commands; closing connection"))
      else match input with
        | .line [] _ => some session
        | .line text outside =>
          let (verb, rest) := splitVerb text
          let (session, quits) := session.dispatch options outside (verbOf verb) rest
          some { session with closed := quits || !outside.replied }
        | .lineTooLong => some (session.closeWith (ascii "500 5.5.2 command line too long"))
        | .timeout => some (session.closeWith (ascii "421 4.4.2 timeout waiting for command"))
        | _ => some { session with closed := true }

end Session

def sessionMachine (options : ServerOptions) : Machine Session Session.Input where
  step := Session.step options

end Herold.Smtp

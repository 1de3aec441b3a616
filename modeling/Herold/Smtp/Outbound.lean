import Herold.Go.Base64
import Herold.Go.Decimal
import Herold.Machine.Exchange
import Herold.Smtp.Address
import Herold.Smtp.DotStream

/-!
# The outbound SMTP client

`Client.Deliver` for one recipient: the conversation with one mail exchanger, the
one with a smart host, and the orders in which they are tried. A peer says how
one connection behaves. The message is a reader that the whole call shares: it
is the list of the reads it still has to offer.
-/

namespace Herold.Smtp

open Herold.Go Herold.Machine Herold.Machine.Exchange

inductive DeliveryStatus where
  | unknown
  | success
  | transient
  | permanent
  deriving DecidableEq

structure DeliveryOutcome where
  status : DeliveryStatus := .unknown
  smtpCode : Int := 0
  enhancedCode : Bytes := []
  diagnostic : Bytes := []
  mxHost : Bytes := []
  tlsUsed : Bool := false
  tlsPolicy : Bytes := []
  deriving DecidableEq

def DeliveryOutcome.transient (out : DeliveryOutcome) (diagnostic : Bytes) : DeliveryOutcome :=
  { out with status := .transient, diagnostic }

def DeliveryOutcome.permanent (out : DeliveryOutcome) (smtpCode : Int) (enhancedCode : Bytes)
    (diagnostic : Bytes) : DeliveryOutcome :=
  { out with status := .permanent, smtpCode, enhancedCode, diagnostic }

structure DeliveryRequest where
  mailFrom : Bytes
  rcptTo : Bytes
  message : List Bytes
  requireTLS : Bool := false
  smtputf8 : Bool := false
  eightBitMIME : Bool := false
  envID : Bytes := []
  notify : Bytes := []
  deriving DecidableEq

/-- The lines of one reply as they stand on the wire, less the codes. -/
structure ReplyLines where
  code : Int
  texts : List Bytes
  deriving DecidableEq

structure SmtpReply where
  code : Int
  enhanced : Bytes
  text : Bytes
  deriving DecidableEq

/-- `code/100`. -/
def SmtpReply.family (reply : SmtpReply) : Int := reply.code.tdiv 100

inductive DataStage where
  | lineEnd
  | terminator
  | flush
  deriving DecidableEq

structure Peer where
  dialError : Option Bytes := none
  replies : List (Except Bytes ReplyLines) := []
  writeError : Nat → Option Bytes := fun _ => none
  handshakeError : Option Bytes := none
  /-- Whether authenticated TLSA records are published for the host and DANE is on. -/
  daneApplies : Bool := false
  daneMatches : Bool := false
  verifiedChain : Bool := true
  /-- The SASL client's first line and its answers to the challenges; it has none
  to a further one. -/
  authLine : Except Bytes Bytes := .error []
  authAnswers : List (Except Bytes Bytes) := []
  breaksAt : Option Nat := none
  dataFailure : Option DataStage := none
  dataError : Bytes := []

inductive CommandVerb where
  | ehlo
  | helo
  | starttls
  | auth
  | mailFrom
  | rcptTo
  | data
  | quit
  deriving DecidableEq

/-- What the client wrote, and whether a TLS handshake was complete then. -/
inductive Sent where
  | command (secure : Bool) (verb : CommandVerb) (text : Bytes)
  | data (secure : Bool) (bytes : Bytes)
  deriving DecidableEq

structure Conn where
  peer : Peer
  replies : List (Except Bytes ReplyLines)
  commands : Nat := 0
  secure : Bool := false
  extensions : List Bytes := []
  sent : List Sent := []

def Conn.start (peer : Peer) : Conn where
  peer := peer
  replies := peer.replies

def Conn.hasExtension (conn : Conn) (name : String) : Bool := ascii name ∈ conn.extensions

abbrev Conversing := Exchange Conn DeliveryOutcome

def require (condition : Prop) [Decidable condition] (otherwise : DeliveryOutcome) :
    Conversing Unit :=
  if condition then pure () else stop otherwise

/-- `command`. What was handed to the connection counts as written, also when the
write fails. -/
def command (verb : CommandVerb) (text : Bytes) (failed : Bytes → DeliveryOutcome) :
    Conversing Unit := fun conn =>
  let written := { conn with
    commands := conn.commands + 1
    sent := conn.sent ++ [.command conn.secure verb text] }
  match conn.peer.writeError conn.commands with
  | none => (written, .ok ())
  | some error => (written, .error (failed error))

/-- `parseEnhanced`: three numbers between dots before the first space. -/
def parseEnhanced (text : Bytes) : Option (Bytes × Bytes) :=
  match cutFirstByte 32 text with
  | none => none
  | some (token, rest) =>
    let parts := splitByte 46 token
    if parts.length = 3 ∧ ∀ part ∈ parts, (parseInt64 part).isSome then some (token, rest)
    else none

/-- The enhanced code of the first line that has one, and the texts without it. -/
def takeEnhanced : List Bytes → Bytes × List Bytes
  | [] => ([], [])
  | text :: texts =>
    match parseEnhanced text with
    | some (enhanced, rest) => (enhanced, rest :: texts)
    | none =>
      let (enhanced, texts) := takeEnhanced texts
      (enhanced, text :: texts)

def joinLines : List Bytes → Bytes
  | [] => []
  | [line] => line
  | line :: lines => line ++ [10] ++ joinLines lines

def readReply (failed : Bytes → DeliveryOutcome) : Conversing SmtpReply := fun conn =>
  match conn.replies with
  | [] => (conn, .error (failed (ascii "EOF")))
  | .error error :: replies => ({ conn with replies }, .error (failed error))
  | .ok lines :: replies =>
    let (enhanced, texts) := if conn.hasExtension "ENHANCEDSTATUSCODES" then
      takeEnhanced lines.texts else ([], lines.texts)
    ({ conn with replies }, .ok ⟨lines.code, enhanced, joinLines texts⟩)

/-- `trimReplyText`; the text is cut after 200 bytes with an ellipsis behind it. -/
def trimReplyText (text : Bytes) : Bytes :=
  let text := trimSpace text
  if 200 < text.length then text.take 200 ++ [0xE2, 0x80, 0xA6] else text

def decimalInt (value : Int) : Bytes :=
  if value < 0 then ascii "-" ++ decimal value.natAbs else decimal value.natAbs

/-- `mapReplyOutcome`: 5xx is permanent and everything else transient. -/
def mapReplyOutcome (out : DeliveryOutcome) (code : Int) (enhanced text phase : Bytes) :
    DeliveryOutcome :=
  { out with
    smtpCode := code
    enhancedCode := enhanced
    status := if code.tdiv 100 = 5 then .permanent else .transient
    diagnostic := phase ++ ascii ": " ++ decimalInt code ++ ascii " " ++
      (if enhanced = [] then [] else enhanced ++ ascii " ") ++ trimReplyText text }

/-- `parseExtensions`: the names behind the identity line, in upper case. -/
def parseExtensions (text : Bytes) : List Bytes :=
  ((splitByte 10 text).drop 1).filterMap fun line =>
    let line := trimSpace line
    if line = [] then none
    else match cutFirstAny [32, 9] line with
      | some (name, _) => some (toUpper name)
      | none => some (toUpper line)

def ehlo (hostName : Bytes) (failed : Bytes → DeliveryOutcome) : Conversing SmtpReply := do
  command .ehlo (ascii "EHLO " ++ hostName) failed
  let reply ← readReply failed
  modify fun conn =>
    if reply.code = 250 then { conn with extensions := parseExtensions reply.text } else conn
  pure reply

def helo (hostName : Bytes) (failed : Bytes → DeliveryOutcome) : Conversing SmtpReply := do
  command .helo (ascii "HELO " ++ hostName) failed
  readReply failed

def buildMailFromLine (request : DeliveryRequest) (conn : Conn) : Bytes :=
  ascii "MAIL FROM:<" ++ request.mailFrom ++ ascii ">" ++
    (if request.eightBitMIME && conn.hasExtension "8BITMIME" then ascii " BODY=8BITMIME" else []) ++
    (if request.smtputf8 && conn.hasExtension "SMTPUTF8" then ascii " SMTPUTF8" else []) ++
    (if request.requireTLS && conn.hasExtension "REQUIRETLS" then ascii " REQUIRETLS" else []) ++
    (if request.envID ≠ [] && conn.hasExtension "DSN" then ascii " ENVID=" ++ request.envID else [])

def buildRcptToLine (request : DeliveryRequest) (conn : Conn) : Bytes :=
  ascii "RCPT TO:<" ++ request.rcptTo ++ ascii ">" ++
    if request.notify ≠ [] && conn.hasExtension "DSN" then ascii " NOTIFY=" ++ request.notify else []

structure Wording where
  mailWrite : Bytes
  mailReply : Bytes
  mailPhase : Bytes
  rcptWrite : Bytes
  rcptReply : Bytes
  rcptPhase : Bytes
  dataWrite : Bytes
  dataReply : Bytes
  dataPhase : Bytes
  body : Bytes
  bodyLineEnd : Bytes
  terminator : Bytes
  flush : Bytes
  finalReply : Bytes
  finalPhase : Bytes

def mxWording : Wording where
  mailWrite := ascii "mail write: "
  mailReply := ascii "mail reply: "
  mailPhase := ascii "mail from"
  rcptWrite := ascii "rcpt write: "
  rcptReply := ascii "rcpt reply: "
  rcptPhase := ascii "rcpt to"
  dataWrite := ascii "data write: "
  dataReply := ascii "data reply: "
  dataPhase := ascii "data"
  body := ascii "data body write: "
  bodyLineEnd := ascii "data body terminator CRLF write: "
  terminator := ascii "data terminator write: "
  flush := ascii "data flush: "
  finalReply := ascii "data final reply: "
  finalPhase := ascii "data final"

def smartHostWording : Wording where
  mailWrite := ascii "smart-host mail write: "
  mailReply := ascii "smart-host mail reply: "
  mailPhase := ascii "smart-host mail from"
  rcptWrite := ascii "smart-host rcpt write: "
  rcptReply := ascii "smart-host rcpt reply: "
  rcptPhase := ascii "smart-host rcpt to"
  dataWrite := ascii "smart-host data write: "
  dataReply := ascii "smart-host data reply: "
  dataPhase := ascii "smart-host data"
  body := ascii "smart-host data body: "
  bodyLineEnd := ascii "smart-host data body terminator CRLF: "
  terminator := ascii "smart-host data terminator: "
  flush := ascii "smart-host data flush: "
  finalReply := ascii "smart-host data final: "
  finalPhase := ascii "smart-host data final"

def expect (out : DeliveryOutcome) (label phase : Bytes) (accepts : SmtpReply → Bool) :
    Conversing Unit := do
  let reply ← readReply fun error => out.transient (label ++ error)
  require (accepts reply = true) (mapReplyOutcome out reply.code reply.enhanced reply.text phase)

def isPositive (reply : SmtpReply) : Bool := reply.family = 2

def asksForData (reply : SmtpReply) : Bool := reply.code = 354

def serialEnvelope (wording : Wording) (request : DeliveryRequest) (out : DeliveryOutcome) :
    Conversing Unit := do
  let conn ← get
  command .mailFrom (buildMailFromLine request conn) fun error =>
    out.transient (wording.mailWrite ++ error)
  expect out wording.mailReply wording.mailPhase isPositive
  command .rcptTo (buildRcptToLine request conn) fun error =>
    out.transient (wording.rcptWrite ++ error)
  expect out wording.rcptReply wording.rcptPhase isPositive
  command .data (ascii "DATA") fun error => out.transient (wording.dataWrite ++ error)
  expect out wording.dataReply wording.dataPhase asksForData

def pipelinedEnvelope (wording : Wording) (request : DeliveryRequest) (out : DeliveryOutcome) :
    Conversing Unit := do
  let conn ← get
  command .mailFrom (buildMailFromLine request conn) fun error =>
    out.transient (wording.mailWrite ++ error)
  command .rcptTo (buildRcptToLine request conn) fun error =>
    out.transient (wording.rcptWrite ++ error)
  command .data (ascii "DATA") fun error => out.transient (wording.dataWrite ++ error)
  expect out wording.mailReply wording.mailPhase isPositive
  expect out wording.rcptReply wording.rcptPhase isPositive
  expect out wording.dataReply wording.dataPhase asksForData

inductive MtaStsMode where
  | none
  | testing
  | enforce
  deriving DecidableEq

structure MtaStsPolicy where
  mode : MtaStsMode
  mx : List Bytes
  deriving DecidableEq

def enforces (policy : Option MtaStsPolicy) : Bool :=
  policy.any fun policy => policy.mode = .enforce

def canonicaliseHost (host : Bytes) : Bytes := trimSuffix (toLower (trimSpace host)) [46]

/-- `mtaSTSMatch`: a wildcard stands for exactly one label. -/
def mtaSTSMatch (pattern host : Bytes) : Bool :=
  if pattern = [] then false
  else if hasPrefix pattern [42, 46] then
    let ending := pattern.drop 1
    ending.isSuffixOf host &&
      let label := host.take (host.length - ending.length)
      label ≠ [] && !label.contains 46
  else pattern = host

def MtaStsPolicy.admits (policy : MtaStsPolicy) (host : Bytes) : Bool :=
  policy.mx.any fun pattern => mtaSTSMatch (canonicaliseHost pattern) (canonicaliseHost host)

structure TlsDecision where
  used : Bool
  policy : Bytes
  deriving DecidableEq

def noTls : TlsDecision where
  used := false
  policy := ascii "none"

def negotiationFailed (out : DeliveryOutcome) (host error : Bytes) : DeliveryOutcome :=
  out.permanent 554 (ascii "5.7.0") (ascii "TLS negotiation failed for " ++ host ++
    ascii " under strict policy: protosmtp: TLS negotiation failed under strict policy: " ++ error)

/-- The handshake of `upgradeTLS` and the checks behind it. -/
def handshake (host : Bytes) (policy : Option MtaStsPolicy) (strict : Bool)
    (out : DeliveryOutcome) : Conversing TlsDecision := do
  let conn ← get
  match conn.peer.handshakeError with
  | some error =>
    if strict then stop (negotiationFailed out host (ascii "handshake: " ++ error))
    else pure noTls
  | none =>
    if conn.peer.daneApplies then
      if conn.peer.daneMatches then pure ⟨true, ascii "dane"⟩
      else stop (out.permanent 554 (ascii "5.7.0")
        (ascii "DANE TLSA validation failed for " ++ host))
    else if enforces policy then
      if conn.peer.verifiedChain then pure ⟨true, ascii "mta_sts"⟩
      else stop (negotiationFailed out host (ascii "no verified chain"))
    else pure ⟨true, ascii "opportunistic"⟩

/-- `upgradeTLS`: DANE, an enforced MTA-STS policy and REQUIRETLS each make TLS
mandatory, else a failure falls back to plain text. -/
def upgradeTLS (host : Bytes) (policy : Option MtaStsPolicy) (requireTLS : Bool)
    (out : DeliveryOutcome) : Conversing TlsDecision := do
  let conn ← get
  let strict := conn.peer.daneApplies || enforces policy || requireTLS
  if conn.hasExtension "STARTTLS" then do
    command .starttls (ascii "STARTTLS") fun error =>
      out.transient (ascii "tls negotiation: starttls write: " ++ error)
    let reply ← readReply fun error =>
      out.transient (ascii "tls negotiation: starttls read: " ++ error)
    if reply.code = 220 then handshake host policy strict out
    else if strict then
      stop (negotiationFailed out host (ascii "STARTTLS rejected: " ++ decimalInt reply.code ++
        ascii " " ++ reply.text))
    else pure noTls
  else if strict then
    stop (out.permanent 530 (ascii "5.7.10")
      (ascii "STARTTLS not offered by " ++ host ++ ascii " but required by policy"))
  else pure noTls

def helloAgain (hostName : Bytes) (out : DeliveryOutcome) (label phase : Bytes) :
    Conversing Unit := do
  modify fun conn => { conn with secure := true }
  let reply ← ehlo hostName fun error => out.transient (label ++ error)
  require (reply.code = 250) (mapReplyOutcome out reply.code [] reply.text phase)

def hello (hostName : Bytes) (out : DeliveryOutcome) : Conversing Unit := do
  let reply ← ehlo hostName fun error => out.transient (ascii "ehlo: " ++ error)
  if reply.code = 250 then pure ()
  else do
    let reply ← helo hostName fun error => out.transient (ascii "helo: " ++ error)
    require (reply.code = 250) (mapReplyOutcome out reply.code [] reply.text (ascii "helo"))

def helloAfter (hostName : Bytes) (decision : TlsDecision) (out : DeliveryOutcome) :
    Conversing Unit :=
  if decision.used then
    helloAgain hostName out (ascii "post-tls ehlo: ") (ascii "post-tls ehlo")
  else pure ()

def mxTransaction (request : DeliveryRequest) (out : DeliveryOutcome) : Conversing Unit := do
  let conn ← get
  if conn.hasExtension "PIPELINING" then pipelinedEnvelope mxWording request out
  else serialEnvelope mxWording request out

/-- `deliverToMX` up to the reply that asks for the data. -/
def mxEnvelope (hostName host : Bytes) (policy : Option MtaStsPolicy)
    (request : DeliveryRequest) : Conversing DeliveryOutcome := do
  let out : DeliveryOutcome := { mxHost := host }
  let greeting ← readReply fun error => out.transient (ascii "greeting read: " ++ error)
  require (greeting.family = 2)
    (mapReplyOutcome out greeting.code [] greeting.text (ascii "greeting"))
  hello hostName out
  let decision ← upgradeTLS host policy request.requireTLS out
  helloAfter hostName decision out
  let out := { out with tlsUsed := decision.used, tlsPolicy := decision.policy }
  require (request.requireTLS = false ∨ decision.used = true)
    (out.permanent 530 (ascii "5.7.10")
      (ascii "REQUIRETLS=true and TLS not negotiated with " ++ host))
  mxTransaction request out
  pure out

inductive TlsMode where
  | starttls
  | implicitTLS
  | none
  deriving DecidableEq

inductive TlsVerifyMode where
  | systemRoots
  | pinned
  | insecureSkipVerify
  deriving DecidableEq

inductive AuthMethod where
  | plain
  | login
  | scramSHA256
  | xoauth2
  | none
  deriving DecidableEq

inductive FallbackPolicy where
  | smartHostOnly
  | smartHostThenMX
  | mxThenSmartHost
  deriving DecidableEq

/-- A smart host as `validateSmartHost` lets it through: no credentials in plain
text. -/
structure SmartHostConfig where
  host : Bytes
  port : Nat
  tlsMode : TlsMode
  tlsVerifyMode : TlsVerifyMode
  authMethod : AuthMethod
  fallbackPolicy : FallbackPolicy
  fallbackAfterFailureSeconds : Nat
  noPlainCredentials : tlsMode = .none → authMethod = .none

def TlsVerifyMode.text : TlsVerifyMode → Bytes
  | systemRoots => ascii "system_roots"
  | pinned => ascii "pinned"
  | insecureSkipVerify => ascii "insecure_skip_verify"

def AuthMethod.text : AuthMethod → Bytes
  | plain => ascii "plain"
  | login => ascii "login"
  | scramSHA256 => ascii "scram-sha-256"
  | xoauth2 => ascii "xoauth2"
  | none => ascii "none"

def authTurn (failed : Bytes → DeliveryOutcome) (reply : SmtpReply)
    (respond : Conversing Unit) : Conversing Unit :=
  if reply.code = 235 then pure ()
  else if reply.code = 334 then
    if (stdDecode (trimSpace reply.text)).isNone then stop (failed (ascii "decode challenge"))
    else respond
  else stop (failed (ascii "auth rejected: " ++ decimalInt reply.code ++ ascii " " ++
    trimSpace reply.text))

def cancelAuth (failed : Bytes → DeliveryOutcome) (error : Bytes) : Conversing Unit := do
  command .auth (ascii "*") fun _ => failed error
  stop (failed error)

/-- The loop of `runSmartHostAuth` over the mechanism's answers. -/
def authLoop (failed : Bytes → DeliveryOutcome) : List (Except Bytes Bytes) → Conversing Unit
  | [] => do
      let reply ← readReply fun error => failed (ascii "auth read: " ++ error)
      authTurn failed reply (cancelAuth failed [])
  | .error error :: _ => do
      let reply ← readReply fun error => failed (ascii "auth read: " ++ error)
      authTurn failed reply (cancelAuth failed error)
  | .ok line :: answers => do
      let reply ← readReply fun error => failed (ascii "auth read: " ++ error)
      authTurn failed reply do
        command .auth line fun error => failed (ascii "auth client write: " ++ error)
        authLoop failed answers

def runSmartHostAuth (failed : Bytes → DeliveryOutcome) : Conversing Unit := do
  let conn ← get
  match conn.peer.authLine with
  | .error error => stop (failed error)
  | .ok line => do
      command .auth line fun error => failed (ascii "auth write: " ++ error)
      authLoop failed conn.peer.authAnswers

/-- The STARTTLS step of the smart-host conversation, which never falls back. -/
def smartHostSTARTTLS (hostName : Bytes) (config : SmartHostConfig) (out : DeliveryOutcome) :
    Conversing Unit := do
  let conn ← get
  require (conn.hasExtension "STARTTLS" = true)
    (out.permanent 530 (ascii "5.7.10") (ascii "smart host " ++ config.host ++
      ascii " does not advertise STARTTLS but tls_mode=starttls"))
  command .starttls (ascii "STARTTLS") fun error =>
    out.transient (ascii "smart-host starttls write: " ++ error)
  let reply ← readReply fun error => out.transient (ascii "smart-host starttls read: " ++ error)
  require (reply.code = 220)
    (mapReplyOutcome out reply.code [] reply.text (ascii "smart-host starttls"))
  require (conn.peer.handshakeError = none)
    (out.permanent 554 (ascii "5.7.0")
      (ascii "smart-host TLS handshake: " ++ conn.peer.handshakeError.getD []))
  helloAgain hostName out (ascii "smart-host post-tls ehlo: ") (ascii "smart-host post-tls ehlo")

def smartHostTLS (hostName : Bytes) (config : SmartHostConfig) (out : DeliveryOutcome) :
    Conversing Unit :=
  if config.tlsMode = .starttls then smartHostSTARTTLS hostName config out else pure ()

def smartHostAuth (config : SmartHostConfig) (out : DeliveryOutcome) : Conversing Unit :=
  if config.authMethod = .none then pure ()
  else runSmartHostAuth fun error => out.permanent 535 (ascii "5.7.8")
    (ascii "smart-host AUTH " ++ config.authMethod.text ++ ascii ": " ++ error)

/-- `deliverViaSmartHost` from the dialled connection up to the reply that asks
for the data. -/
def smartHostEnvelope (hostName : Bytes) (config : SmartHostConfig) (request : DeliveryRequest) :
    Conversing DeliveryOutcome := do
  let out : DeliveryOutcome := { mxHost := config.host }
  let greeting ← readReply fun error => out.transient (ascii "smart-host greeting read: " ++ error)
  require (greeting.family = 2)
    (mapReplyOutcome out greeting.code [] greeting.text (ascii "smart-host greeting"))
  let reply ← ehlo hostName fun error => out.transient (ascii "smart-host ehlo: " ++ error)
  require (reply.code = 250)
    (mapReplyOutcome out reply.code [] reply.text (ascii "smart-host ehlo"))
  smartHostTLS hostName config out
  let out := if config.tlsMode = .none then { out with tlsPolicy := ascii "none" }
    else { out with tlsUsed := true, tlsPolicy := ascii "smart_host_" ++ config.tlsVerifyMode.text }
  smartHostAuth config out
  serialEnvelope smartHostWording request out
  pure out

def Conn.write (conn : Conn) (bytes : Bytes) : Conn :=
  { conn with sent := conn.sent ++ [.data conn.secure bytes] }

def finalReply (wording : Wording) (out : DeliveryOutcome) : Conversing DeliveryOutcome := do
  let reply ← readReply fun error => out.transient (wording.finalReply ++ error)
  if reply.family = 2 then
    pure { out with
      status := .success, smtpCode := reply.code, enhancedCode := reply.enhanced,
      diagnostic := reply.text }
  else pure (mapReplyOutcome out reply.code reply.enhanced reply.text wording.finalPhase)

/-- The stage behind the body at which the connection fails, if it comes to it. -/
def failingStage (peer : Peer) (endedAtLineStart : Bool) : Option DataStage :=
  match peer.dataFailure with
  | some .lineEnd => if endedAtLineStart then none else some .lineEnd
  | stage => stage

def Wording.stage (wording : Wording) : DataStage → Bytes
  | .lineEnd => wording.bodyLineEnd
  | .terminator => wording.terminator
  | .flush => wording.flush

def transmit (wording : Wording) (out : DeliveryOutcome) (conn : Conn) (message : List Bytes) :
    Conn × List Bytes × DeliveryOutcome :=
  let body := writeDotStuffed conn.peer.breaksAt true message
  match body.endedAtLineStart with
  | none =>
    (conn.write body.written, body.rest, out.transient (wording.body ++ conn.peer.dataError))
  | some ended =>
    match failingStage conn.peer ended with
    | some stage =>
      (conn.write body.written, body.rest,
        out.transient (wording.stage stage ++ conn.peer.dataError))
    | none =>
      match finalReply wording out (conn.write (body.written ++ dataEnd ended)) with
      | (conn, .ok outcome) => (conn, body.rest, outcome)
      | (conn, .error outcome) => (conn, body.rest, outcome)

inductive Route where
  | mx (host : Bytes) (policy : Option MtaStsPolicy)
  | smartHost (config : SmartHostConfig)

def Route.wording : Route → Wording
  | mx _ _ => mxWording
  | smartHost _ => smartHostWording

def Route.envelope (hostName : Bytes) (request : DeliveryRequest) :
    Route → Conversing DeliveryOutcome
  | mx host policy => mxEnvelope hostName host policy request
  | smartHost config => smartHostEnvelope hostName config request

def Route.dialFailed (error : Bytes) : Route → DeliveryOutcome
  | mx host _ =>
    DeliveryOutcome.transient { mxHost := host } (ascii "dial " ++ host ++ ascii ": " ++ error)
  | smartHost config =>
    DeliveryOutcome.transient { mxHost := config.host }
      (ascii "smart-host dial " ++ config.host ++ ascii ":" ++ decimal config.port ++
        ascii ": " ++ error)

/-- The connection dialled. With implicit TLS it is encrypted from the start. -/
def Route.connect (peer : Peer) : Route → Except DeliveryOutcome Conn
  | mx _ _ => .ok (Conn.start peer)
  | smartHost config =>
    if config.tlsMode = .implicitTLS then
      match peer.handshakeError with
      | some error => .error (DeliveryOutcome.permanent { mxHost := config.host } 554
          (ascii "5.7.0") (ascii "smart-host implicit TLS: " ++ error))
      | none => .ok { Conn.start peer with secure := true }
    else .ok (Conn.start peer)

def Route.dial (route : Route) (peer : Peer) : Except DeliveryOutcome Conn :=
  match peer.dialError with
  | some error => .error (route.dialFailed error)
  | none => route.connect peer

structure Conversation where
  route : Route
  peer : Peer
  sent : List Sent

structure Call where
  message : List Bytes
  conversations : List Conversation

structure World where
  peer : Nat → Peer
  policy : Option MtaStsPolicy := none
  /-- What `resolveMX` comes to: the hosts in order, or an error. -/
  candidates : Except (Bool × Bool × Bytes) (List Bytes) := .ok []
  outageSeconds : Nat := 0

structure Client where
  hostName : Bytes
  smartHost : Option SmartHostConfig
  perDomain : Bytes → Option SmartHostConfig
  /-- `netguard.CheckHost`: the error for a host that may not be dialled. -/
  checkHost : Bytes → Option Bytes

def Conn.close (conn : Conn) : List Sent :=
  conn.sent ++ [.command conn.secure .quit (ascii "QUIT")]

def Call.record (call : Call) (conversation : Conversation) (message : List Bytes) : Call :=
  ⟨message, call.conversations ++ [conversation]⟩

/-- One connection of a call: dial, converse, and QUIT whatever happened. -/
def converse (client : Client) (world : World) (request : DeliveryRequest) (route : Route)
    (call : Call) : Call × DeliveryOutcome :=
  let peer := world.peer call.conversations.length
  match route.dial peer with
  | .error outcome => (call.record ⟨route, peer, []⟩ call.message, outcome)
  | .ok conn =>
    match route.envelope client.hostName request conn with
    | (conn, .error outcome) => (call.record ⟨route, peer, conn.close⟩ call.message, outcome)
    | (conn, .ok out) =>
      let (conn, message, outcome) := transmit route.wording out conn call.message
      (call.record ⟨route, peer, conn.close⟩ message, outcome)

def deliverToMX (client : Client) (world : World) (request : DeliveryRequest) (host : Bytes)
    (call : Call) : Call × DeliveryOutcome :=
  converse client world request (.mx host world.policy) call

def deliverViaSmartHost (client : Client) (world : World) (request : DeliveryRequest)
    (config : SmartHostConfig) (call : Call) : Call × DeliveryOutcome :=
  match if config.tlsVerifyMode = .insecureSkipVerify then none else client.checkHost config.host with
  | some error =>
    (call, DeliveryOutcome.permanent { mxHost := config.host } 550 (ascii "5.7.1")
      (ascii "smart-host dial blocked by netguard: " ++ error))
  | none => converse client world request (.smartHost config) call

def settleLast (last : DeliveryOutcome) : DeliveryOutcome :=
  if last.status = .unknown then last.transient (ascii "no MX candidates produced an outcome")
  else last

/-- The candidate loop of `Deliver`. A host outside an enforced policy is skipped
before it is dialled. -/
def tryCandidates (client : Client) (world : World) (request : DeliveryRequest)
    (domain : Bytes) : DeliveryOutcome → List Bytes → Call → Call × DeliveryOutcome
  | last, [], call => (call, settleLast last)
  | last, host :: hosts, call =>
    if enforces world.policy && !(world.policy.any fun policy => policy.admits host) then
      tryCandidates client world request domain
        (DeliveryOutcome.permanent { mxHost := host } 550 (ascii "5.7.1")
          (ascii "MX " ++ host ++ ascii " not in MTA-STS enforce policy for " ++ domain))
        hosts call
    else
      let (call, outcome) := deliverToMX client world request host call
      match outcome.status with
      | .success | .permanent => (call, outcome)
      | .transient => tryCandidates client world request domain outcome hosts call
      | .unknown => tryCandidates client world request domain last hosts call

/-- The candidate loop of `deliverDirectMX`, which has no such gate. -/
def tryEveryCandidate (client : Client) (world : World) (request : DeliveryRequest) :
    DeliveryOutcome → List Bytes → Call → Call × DeliveryOutcome
  | last, [], call => (call, settleLast last)
  | last, host :: hosts, call =>
    let (call, outcome) := deliverToMX client world request host call
    match outcome.status with
    | .success | .permanent => (call, outcome)
    | .transient => tryEveryCandidate client world request outcome hosts call
    | .unknown => tryEveryCandidate client world request last hosts call

def resolutionFailed (text : Bytes) : DeliveryOutcome :=
  DeliveryOutcome.transient {} (ascii "mx resolution: " ++ text)

def deliverDirectMX (client : Client) (world : World) (request : DeliveryRequest) (call : Call) :
    Call × DeliveryOutcome :=
  match world.candidates with
  | .error (_, _, text) => (call, resolutionFailed text)
  | .ok hosts => tryEveryCandidate client world request {} hosts call

def refusals : List Bytes :=
  [ascii "connection refused", ascii "no route to host", ascii "network is unreachable",
    ascii "no such host", ascii "i/o timeout", ascii "tcp unreachable", ascii "dial tcp"]

def isConnectionRefusal (diagnostic : Bytes) : Bool :=
  refusals.any fun text => (cutFirst text (toLower diagnostic)).isSome

def shouldFallbackToMX (world : World) (config : SmartHostConfig) (out : DeliveryOutcome) : Bool :=
  match out.status with
  | .success => false
  | .permanent => true
  | .transient =>
    isConnectionRefusal out.diagnostic &&
      decide (config.fallbackAfterFailureSeconds ≤ world.outageSeconds)
  | .unknown => false

def dispatchSmartHost (client : Client) (world : World) (request : DeliveryRequest)
    (config : SmartHostConfig) (call : Call) : Call × DeliveryOutcome :=
  match config.fallbackPolicy with
  | .smartHostOnly => deliverViaSmartHost client world request config call
  | .smartHostThenMX =>
    let (call, out) := deliverViaSmartHost client world request config call
    if shouldFallbackToMX world config out then deliverDirectMX client world request call
    else (call, out)
  | .mxThenSmartHost =>
    let (call, out) := deliverDirectMX client world request call
    if out.status = .transient ∨ out.status = .permanent then
      deliverViaSmartHost client world request config call
    else (call, out)

/-- `effectiveSmartHost`: an override for the domain goes before the global one. -/
def effectiveSmartHost (client : Client) (domain : Bytes) : Option SmartHostConfig :=
  match client.perDomain (toLower domain) with
  | some config => some config
  | none => client.smartHost

def domainOfAddress (addr : Bytes) : Option Bytes :=
  (splitAddress addr).map fun halves => toLower halves.2

/-- The part of `Deliver` below the smart-host fork. -/
def deliverByMX (client : Client) (world : World) (request : DeliveryRequest) (domain : Bytes)
    (call : Call) : Call × DeliveryOutcome :=
  match world.candidates with
  | .error (temporary, noRecords, text) =>
    if !temporary && (noRecords || (cutFirst (ascii "no such host") text).isSome) then
      (call, DeliveryOutcome.permanent {} 550 [] (ascii "no MX or A/AAAA for " ++ domain))
    else (call, resolutionFailed text)
  | .ok hosts => tryCandidates client world request domain {} hosts call

/-- `Client.Deliver`, with the call it made of the request. -/
def deliver (client : Client) (world : World) (request : DeliveryRequest) :
    Call × DeliveryOutcome :=
  let call : Call := ⟨request.message, []⟩
  match domainOfAddress request.rcptTo with
  | none =>
    (call, DeliveryOutcome.permanent {} 550 [] (ascii "invalid recipient address"))
  | some domain =>
    match effectiveSmartHost client domain with
    | some config => dispatchSmartHost client world request config call
    | none => deliverByMX client world request domain call

end Herold.Smtp

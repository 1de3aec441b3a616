import Mathlib.Data.List.Sort
import Herold.Imap.Datum
import Herold.Mail.Message

/-!
# ENVELOPE and BODYSTRUCTURE

`formatEnvelope` and `renderBodyStructure` write parsed messages as lists. What
`mailparse.Parse` makes of the bytes of a message is a parameter, and so is the
reading and printing of its date. Parsing leaves the parts of an embedded message
alone, so the renderer parses the body of each message/rfc822 part anew; how deep it
may go in is bounded by a fuel.
-/

namespace Herold.BodyStructure

open Herold.Go Herold.Imap
open Herold.Mail (Headers)

def imapQuote (text : Bytes) : Bytes :=
  if containsAny text [0, 13, 10] then 123 :: (decimal text.length ++ literalMark ++ text)
  else 34 :: (escaped text ++ [34])

def nilText : Bytes := [78, 73, 76]

def imapNString (text : Bytes) : Bytes := if text = [] then nilText else imapQuote text

structure Address where
  name : Bytes := []
  mailbox : Bytes := []
  host : Bytes := []
  deriving DecidableEq

/-- `imap.Envelope`. The date is its text in `time.RFC1123Z`, unless it is zero. -/
structure Envelope where
  date : Option Bytes := none
  subject : Bytes := []
  fromAddrs : List Address := []
  sender : List Address := []
  replyTo : List Address := []
  toAddrs : List Address := []
  cc : List Address := []
  bcc : List Address := []
  inReplyTo : List Bytes := []
  messageID : Bytes := []
  deriving DecidableEq

def formatAddress (address : Address) : Bytes :=
  parens [imapNString address.name, nilText, imapNString address.mailbox, imapNString address.host]

def formatAddrList (addrs : List Address) : Bytes :=
  if addrs = [] then nilText else parens (addrs.map formatAddress)

def formatEnvelope (e : Envelope) : Bytes :=
  parens [e.date.elim nilText imapQuote, imapNString e.subject, formatAddrList e.fromAddrs,
    formatAddrList e.sender, formatAddrList e.replyTo, formatAddrList e.toAddrs, formatAddrList e.cc,
    formatAddrList e.bcc,
    if e.inReplyTo ≠ [] then imapNString ([32].intercalate e.inReplyTo) else nilText,
    imapNString e.messageID]

/-- `mail.Address`. -/
structure MailAddress where
  name : Bytes := []
  address : Bytes := []
  deriving DecidableEq

/-- `mailparse.Envelope`, less the references, which nothing here reads. -/
structure MailEnvelope where
  fromAddrs : List MailAddress := []
  sender : Option MailAddress := none
  replyTo : List MailAddress := []
  toAddrs : List MailAddress := []
  cc : List MailAddress := []
  bcc : List MailAddress := []
  subject : Bytes := []
  messageID : Bytes := []
  date : Bytes := []
  inReplyTo : List Bytes := []
  deriving DecidableEq

def convertMailAddrs (addrs : List MailAddress) : List Address :=
  addrs.map fun addr =>
    match cutLastByte 64 addr.address with
    | some (mailbox, host) => { name := addr.name, mailbox := mailbox, host := host }
    | none => { name := addr.name, mailbox := addr.address }

/-- `printDate` stands for `mail.ParseDate` and the printing of what it found. -/
def convertMailparseEnvelope (printDate : Bytes → Option Bytes) (e : MailEnvelope) : Envelope where
  date := if e.date = [] then none else printDate e.date
  subject := e.subject
  fromAddrs := convertMailAddrs e.fromAddrs
  sender := convertMailAddrs e.sender.toList
  replyTo := convertMailAddrs e.replyTo
  toAddrs := convertMailAddrs e.toAddrs
  cc := convertMailAddrs e.cc
  bcc := convertMailAddrs e.bcc
  inReplyTo := e.inReplyTo
  messageID := e.messageID

/-- `mailparse.Part`, with the fields that sections and structures read. -/
structure Part where
  contentType : Bytes
  contentTransferEncoding : Bytes
  headers : Headers
  rawOffset : Nat
  rawLen : Nat
  rawHeaderOffset : Nat
  rawHeaderLen : Nat
  children : List Part

def Part.zero : Part := ⟨[], [], ⟨[]⟩, 0, 0, 0, 0, []⟩

/-- What `mailparse.Parse` returns, and whether with an error. -/
structure Parsed where
  envelope : MailEnvelope := {}
  body : Part
  failed : Bool := false

def Parsed.lost (message : Parsed) : Bool := message.failed && message.body.contentType.isEmpty

/-- What reading an `io.SectionReader` to its end yields. -/
def sectionOf (raw : Bytes) (offset length : Nat) : Bytes := (raw.drop offset).take length

/-- `readAllOrNil` of `RawBody`: a container has no body of its own. -/
def Part.rawBody (p : Part) (raw : Bytes) : Option Bytes :=
  if p.children.isEmpty then some (sectionOf raw p.rawOffset p.rawLen) else none

def Part.rawHeader (p : Part) (raw : Bytes) : Bytes := sectionOf raw p.rawHeaderOffset p.rawHeaderLen

/-- A `map[string]string`, one entry for each key. -/
abbrev Params := List (Bytes × Bytes)

def setParam (params : Params) (key value : Bytes) : Params :=
  params.filter (fun entry => entry.1 ≠ key) ++ [(key, value)]

/-- `strings.Trim` with a single quote in its cutset. -/
def trimQuotes (text : Bytes) : Bytes := dropTrailing (· = 34) (text.dropWhile (· = 34))

def splitTypeSubtype (mt : Bytes) : Bytes × Bytes :=
  match cutFirstByte 47 mt with
  | some (typ, subtype) => if typ = [] then ([], []) else (typ, subtype)
  | none => ([], [])

def splitMediaType (text : Bytes) : Bytes × Params :=
  let parts := splitByte 59 text
  (trimSpace (parts.headD []), parts.tail.foldl
    (fun params part =>
      match splitN 61 2 (trimSpace part) with
      | [key, value] => setParam params (toLower key) (trimQuotes value)
      | _ => params) [])

def sortedParams (params : Params) : Params := params.insertionSort fun left right => left.1 ≤ right.1

def formatMimeParams (params : Params) : Bytes :=
  if params = [] then nilText
  else parens ((sortedParams params).flatMap fun entry =>
    [imapQuote (toUpper entry.1), imapQuote entry.2])

def dispositionOf (p : Part) : Option (Bytes × Params) :=
  let header := p.headers.get (ascii "Content-Disposition")
  if header = [] then none
  else
    let (dtype, dparams) := splitMediaType header
    if dtype = [] then none else some (dtype, dparams)

def formatDisposition (p : Part) : Bytes :=
  match dispositionOf p with
  | none => nilText
  | some (dtype, dparams) => parens [imapQuote (toUpper dtype), formatMimeParams dparams]

/-- The media type of a part that is no container, with its parameters. -/
def mediaTypeOf (p : Part) : Bytes × Params :=
  let (mt, params) := splitMediaType (p.headers.get (ascii "Content-Type"))
  if mt = [] then
    (p.contentType, if equalFold p.contentType (ascii "text/plain") then
      [(ascii "charset", ascii "us-ascii")] else params)
  else (mt, params)

def typeOf (p : Part) : Bytes × Bytes :=
  let (typ, subtype) := splitTypeSubtype (mediaTypeOf p).1
  if typ = [] then (ascii "text", ascii "plain") else (typ, subtype)

def encodingOf (p : Part) : Bytes :=
  let encoding := toUpper (trimSpace p.contentTransferEncoding)
  if encoding = [] then ascii "7BIT" else encoding

/-- The length of what `RawBody` reads. -/
def octetsOf (p : Part) (raw : Bytes) : Nat := ((p.rawBody raw).getD []).length

/-- `bytes.Count` of line feeds. -/
def linesOf (text : Bytes) : Nat := text.count 10

def basicItems (p : Part) (raw : Bytes) : List Bytes :=
  [imapQuote (toUpper (typeOf p).1), imapQuote (toUpper (typeOf p).2),
    formatMimeParams (mediaTypeOf p).2,
    imapNString (p.headers.get (ascii "Content-Id")),
    imapNString (p.headers.get (ascii "Content-Description")), imapQuote (encodingOf p),
    decimal (octetsOf p raw)]

def isTextType (p : Part) : Bool := hasPrefix (toLower (mediaTypeOf p).1) (ascii "text/")

def showsMessage (p : Part) : Bool := toLower (mediaTypeOf p).1 = ascii "message/rfc822"

def quoted (text : Bytes) : Bytes := 34 :: (text ++ [34])

def unreadableText : Bytes :=
  parens [quoted (ascii "TEXT"), quoted (ascii "PLAIN"), nilText, nilText, nilText,
    quoted (ascii "7BIT"),
    decimal 0, decimal 0]

section

variable (parse : Bytes → Parsed) (printDate : Bytes → Option Bytes)

def parseNestedMessage (p : Part) (raw : Bytes) : Option (Parsed × Bytes) :=
  match p.rawBody raw with
  | none => none
  | some nestedRaw => if (parse nestedRaw).lost then none else some (parse nestedRaw, nestedRaw)

/-- The items between the octets and the extension; `embedded` renders the body of an
embedded message. -/
def typeItems (embedded : Bytes → Part → Option Bytes) (raw : Bytes) (p : Part) : Option (List Bytes) :=
  if isTextType p then some [decimal (linesOf ((p.rawBody raw).getD []))]
  else if showsMessage p then
    match parseNestedMessage parse p raw with
    | none => some [nilText, unreadableText, decimal 0]
    | some (nested, nestedRaw) =>
      (embedded nestedRaw nested.body).map fun inner =>
        [formatEnvelope (convertMailparseEnvelope printDate nested.envelope), inner,
          decimal (linesOf nestedRaw)]
  else some []

def renderSinglePartStructure (embedded : Bytes → Part → Option Bytes) (extended : Bool) (raw : Bytes)
    (p : Part) : Option Bytes :=
  (typeItems parse printDate embedded raw p).map fun items =>
    parens (basicItems p raw ++ items ++
      if extended then [nilText, formatDisposition p, nilText, nilText] else [])

def renderMultipartStructure (extended : Bool) (p : Part) (children : List Bytes) : Bytes :=
  let items :=
    if extended then
      [formatMimeParams (splitMediaType (p.headers.get (ascii "Content-Type"))).2, formatDisposition p,
        nilText, nilText]
    else []
  40 :: (children.flatten ++ trailing (imapQuote (toUpper (splitTypeSubtype p.contentType).2) :: items))

mutual

/-- `renderBodyStructure` within one message. -/
def renderPart (embedded : Bytes → Part → Option Bytes) (extended : Bool) (raw : Bytes) :
    Part → Option Bytes
  | ⟨contentType, encoding, headers, offset, length, headerOffset, headerLength, children⟩ =>
    let p : Part := ⟨contentType, encoding, headers, offset, length, headerOffset,
      headerLength, children⟩
    if children.isEmpty then renderSinglePartStructure parse printDate embedded extended raw p
    else (renderParts embedded extended raw children).map (renderMultipartStructure extended p)

def renderParts (embedded : Bytes → Part → Option Bytes) (extended : Bool) (raw : Bytes) :
    List Part → Option (List Bytes)
  | [] => some []
  | part :: parts => do
      let text ← renderPart embedded extended raw part
      let texts ← renderParts embedded extended raw parts
      some (text :: texts)

end

/-- The rendered structure, or nothing where the messages are nested deeper than the
fuel allows. -/
def renderBodyStructure : Nat → Bool → Bytes → Part → Option Bytes
  | 0, _, _, _ => none
  | fuel + 1, extended, raw, p =>
    renderPart parse printDate (renderBodyStructure fuel extended) extended raw p

def formatBodyStructure (fuel : Nat) (raw : Bytes) (extended : Bool) : Option Bytes :=
  let label := if extended then ascii "BODYSTRUCTURE" else ascii "BODY"
  let message := parse raw
  if message.lost then
    some (label ++ [32] ++ parens [quoted (ascii "TEXT"), quoted (ascii "PLAIN"),
      parens [quoted (ascii "CHARSET"), quoted (ascii "us-ascii")], nilText, nilText,
      quoted (ascii "7BIT"), decimal raw.length, decimal 0])
  else
    (renderBodyStructure parse printDate fuel extended raw message.body).map fun text =>
      label ++ [32] ++ text

end

end Herold.BodyStructure

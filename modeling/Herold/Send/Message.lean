import Herold.Go.Base64
import Herold.Go.Bytes

/-!
# The message of a structured send

`buildStructuredMessage` collects the header fields in a map, writes them in the
order of their names and puts the encoded texts behind them. A Go map is a list
of entries with distinct names here; the caller's own headers come in the order
in which the runtime visits them. Random bytes are an argument, and so is the
quoted-printable writer, whose output the header does not depend on.
-/

namespace Herold.Send

open Herold.Go

structure Destination where
  toAddresses : List Bytes := []
  ccAddresses : List Bytes := []
  bccAddresses : List Bytes := []
  deriving DecidableEq

structure MessageTag where
  name : Bytes
  value : Bytes
  deriving DecidableEq

structure Body where
  text : Bytes := []
  html : Bytes := []
  headers : List (Bytes × Bytes) := []
  deriving DecidableEq

structure SendRequest where
  source : Bytes
  destination : Destination
  subject : Bytes
  body : Body
  configurationSet : Bytes := []
  tags : List MessageTag := []
  idempotencyKey : Bytes := []
  dsnNotify : List Bytes := []
  deriving DecidableEq

def crlf : Bytes := [13, 10]

/-- A point in time as `time.RFC1123Z` prints it, in UTC. -/
structure Stamp where
  weekday : Fin 7
  day : Fin 32
  month : Fin 12
  year : Fin 10000
  hour : Fin 24
  minute : Fin 60
  second : Fin 60
  deriving DecidableEq

def digit (value : Nat) : UInt8 := UInt8.ofNat (48 + value % 10)

def twoDigits (value : Nat) : Bytes := [digit (value / 10), digit value]

def weekdayName (weekday : Fin 7) : Bytes :=
  (ascii "SunMonTueWedThuFriSat").drop (3 * weekday.val) |>.take 3

def monthName (month : Fin 12) : Bytes :=
  (ascii "JanFebMarAprMayJunJulAugSepOctNovDec").drop (3 * month.val) |>.take 3

def Stamp.rfc1123Z (stamp : Stamp) : Bytes :=
  weekdayName stamp.weekday ++ ascii ", " ++ twoDigits stamp.day ++ ascii " " ++
    monthName stamp.month ++ ascii " " ++ twoDigits (stamp.year / 100) ++ twoDigits stamp.year ++
      ascii " " ++ twoDigits stamp.hour ++ ascii ":" ++ twoDigits stamp.minute ++ ascii ":" ++
        twoDigits stamp.second ++ ascii " +0000"

def hexDigits : Bytes := ascii "0123456789abcdef"

def hexDigit (value : Nat) : UInt8 := hexDigits.getD value 48

/-- `hex.EncodeToString`. -/
def hexEncode (bytes : Bytes) : Bytes :=
  bytes.flatMap fun byte => [hexDigit (byte.toNat / 16), hexDigit (byte.toNat % 16)]

/-- What `rand.Read` comes to for the Message-ID and for the boundary. -/
structure Entropy where
  messageID : Except Bytes Bytes
  boundary : Except Bytes Bytes

def newMessageID (random : Except Bytes Bytes) (domain : Bytes) : Except Bytes Bytes :=
  match random with
  | .error error => .error (ascii "message-id: " ++ error)
  | .ok bytes => .ok (hexEncode bytes ++ ascii "@" ++
      toLower (if domain = [] then ascii "localhost" else domain))

def newBoundary (random : Except Bytes Bytes) : Except Bytes Bytes :=
  match random with
  | .error error => .error (ascii "boundary: " ++ error)
  | .ok bytes => .ok (ascii "herold_" ++ hexEncode bytes)

def joinWith (separator : Bytes) : List Bytes → Bytes
  | [] => []
  | [item] => item
  | item :: rest => item ++ separator ++ joinWith separator rest

def joinAddresses (addresses : List Bytes) : Bytes :=
  joinWith (ascii ", ") ((addresses.map trimSpace).filter fun address => !address.isEmpty)

def tableChar (sextet : Nat) : UInt8 := stdAlphabet.getD sextet 65

def base64URLOk : Bytes → Bytes
  | first :: second :: third :: rest =>
    tableChar (first.toNat / 4) ::
      tableChar (first.toNat % 4 * 16 + second.toNat / 16) ::
        tableChar (second.toNat % 16 * 4 + third.toNat / 64) ::
          tableChar (third.toNat % 64) :: base64URLOk rest
  | [first, second] =>
    [tableChar (first.toNat / 4), tableChar (first.toNat % 4 * 16 + second.toNat / 16),
      tableChar (second.toNat % 16 * 4), 61]
  | [first] => [tableChar (first.toNat / 4), tableChar (first.toNat % 4 * 16), 61, 61]
  | [] => []

def needsEncoding (text : Bytes) : Bool :=
  (runes text).any fun rune => 0x7E < rune.1 || rune.1 < 0x20

def encodeHeaderValue (text : Bytes) : Bytes :=
  if needsEncoding text then ascii "=?utf-8?B?" ++ base64URLOk text ++ ascii "?=" else text

/-- The loop of `canonHeaderName`: capitals at the start and behind a hyphen. -/
def capitalize : Bool → Bytes → Bytes
  | _, [] => []
  | upper, char :: rest =>
    let char := if upper && 97 ≤ char && char ≤ 122 then char - 32 else char
    char :: capitalize (char == 45) rest

def canonHeaderName (name : Bytes) : Bytes := capitalize true (toLower name)

def isTagRune (rune : Rune) : Bool :=
  (65 ≤ rune && rune ≤ 90) || (97 ≤ rune && rune ≤ 122) || (48 ≤ rune && rune ≤ 57) ||
    rune == 45 || rune == 95

def sanitizeHeaderName (name : Bytes) : Bytes :=
  (runes name).map fun rune => if isTagRune rune.1 then UInt8.ofNat rune.1 else 45

def reservedHeaders : List Bytes :=
  ["From", "Date", "Message-Id", "Mime-Version", "Content-Type", "Content-Transfer-Encoding",
    "Dkim-Signature", "Arc-Authentication-Results", "Arc-Message-Signature", "Arc-Seal",
    "Received"].map ascii

def isReservedHeader (canon : Bytes) : Bool := reservedHeaders.contains canon

/-- The entries the request puts into the map behind the generated ones, in the
order of the assignments. -/
def supplied (request : SendRequest) : List (Bytes × Bytes) :=
  let recipients := joinAddresses request.destination.toAddresses
  let copies := joinAddresses request.destination.ccAddresses
  (if recipients = [] then [] else [(ascii "To", recipients)]) ++
    (if copies = [] then [] else [(ascii "Cc", copies)]) ++
    (if request.configurationSet = [] then []
      else [(ascii "X-Herold-Configuration-Set", request.configurationSet)]) ++
    (request.tags.filter fun tag => !tag.name.isEmpty).map (fun tag =>
      (ascii "X-Herold-Tag-" ++ sanitizeHeaderName tag.name, tag.value)) ++
    (request.body.headers.map fun field => (canonHeaderName field.1, field.2)).filter fun field =>
      !isReservedHeader field.1

/-- `headers[name] = value`. -/
def setHeader (headers : List (Bytes × Bytes)) (field : Bytes × Bytes) : List (Bytes × Bytes) :=
  headers.filter (fun other => other.1 ≠ field.1) ++ [field]

def generated (request : SendRequest) (now : Stamp) (messageID : Bytes) : List (Bytes × Bytes) :=
  [(ascii "From", request.source), (ascii "Date", now.rfc1123Z),
    (ascii "Message-ID", ascii "<" ++ messageID ++ ascii ">"),
    (ascii "Subject", encodeHeaderValue request.subject), (ascii "MIME-Version", ascii "1.0")]

def contentHeaders (body : Body) (boundary : Bytes) : List (Bytes × Bytes) :=
  if body.text ≠ [] ∧ body.html ≠ [] then
    [(ascii "Content-Type", ascii "multipart/alternative; boundary=\"" ++ boundary ++ ascii "\"")]
  else if body.html ≠ [] then
    [(ascii "Content-Type", ascii "text/html; charset=utf-8"),
      (ascii "Content-Transfer-Encoding", ascii "quoted-printable")]
  else
    [(ascii "Content-Type", ascii "text/plain; charset=utf-8"),
      (ascii "Content-Transfer-Encoding", ascii "quoted-printable")]

def headerMap (request : SendRequest) (now : Stamp) (messageID boundary : Bytes) :
    List (Bytes × Bytes) :=
  (generated request now messageID ++ supplied request ++
    contentHeaders request.body boundary).foldl setHeader []

/-- The order of `sort.Strings`. -/
def bytesLe : Bytes → Bytes → Bool
  | [], _ => true
  | _ :: _, [] => false
  | left :: lefts, right :: rights => left < right || (left == right && bytesLe lefts rights)

def insertHeader (field : Bytes × Bytes) : List (Bytes × Bytes) → List (Bytes × Bytes)
  | [] => [field]
  | other :: rest =>
    if bytesLe field.1 other.1 then field :: other :: rest else other :: insertHeader field rest

def sortHeaders (headers : List (Bytes × Bytes)) : List (Bytes × Bytes) :=
  headers.foldr insertHeader []

def headerLine (field : Bytes × Bytes) : Bytes := field.1 ++ ascii ": " ++ field.2

def writeHeaders (headers : List (Bytes × Bytes)) : Bytes :=
  (sortHeaders headers).flatMap fun field => headerLine field ++ crlf

/-- `writeQP` on what stands in the buffer. -/
def writeQP (quotedPrintable : Bytes → Bytes) (buffer text : Bytes) : Bytes :=
  let buffer := buffer ++ quotedPrintable text
  if crlf.isSuffixOf buffer then buffer else buffer ++ crlf

def writeAlternativePart (quotedPrintable : Bytes → Bytes) (buffer boundary contentType text : Bytes) :
    Bytes :=
  writeQP quotedPrintable (buffer ++ ascii "--" ++ boundary ++ crlf ++ ascii "Content-Type: " ++
    contentType ++ crlf ++ ascii "Content-Transfer-Encoding: quoted-printable" ++ crlf ++ crlf) text

def writeBody (quotedPrintable : Bytes → Bytes) (body : Body) (boundary buffer : Bytes) : Bytes :=
  if body.text ≠ [] ∧ body.html ≠ [] then
    let buffer := writeAlternativePart quotedPrintable buffer boundary
      (ascii "text/plain; charset=utf-8") body.text
    let buffer := writeAlternativePart quotedPrintable buffer boundary
      (ascii "text/html; charset=utf-8") body.html
    buffer ++ ascii "--" ++ boundary ++ ascii "--" ++ crlf
  else if body.html ≠ [] then writeQP quotedPrintable buffer body.html
  else writeQP quotedPrintable buffer body.text

structure BuiltMessage where
  bytes : Bytes
  messageID : Bytes
  deriving DecidableEq

def messageDomain (hostname source : Bytes) : Bytes :=
  match cutLastByte 64 source with
  | some (_, domain) => domain
  | none => hostname

def writeHead (request : SendRequest) (now : Stamp) (messageID boundary : Bytes) : Bytes :=
  writeHeaders (headerMap request now messageID boundary) ++ crlf

def bodyBoundary (entropy : Entropy) (body : Body) : Except Bytes Bytes :=
  if body.text ≠ [] ∧ body.html ≠ [] then newBoundary entropy.boundary else .ok []

def buildStructuredMessage (quotedPrintable : Bytes → Bytes) (entropy : Entropy)
    (request : SendRequest) (hostname : Bytes) (now : Stamp) : Except Bytes BuiltMessage :=
  match newMessageID entropy.messageID (messageDomain hostname request.source) with
  | .error error => .error error
  | .ok messageID => match bodyBoundary entropy request.body with
    | .error error => .error error
    | .ok boundary =>
      let head := writeHead request now messageID boundary
      .ok ⟨writeBody quotedPrintable request.body boundary head, messageID⟩

end Herold.Send

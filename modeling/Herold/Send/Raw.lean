import Herold.Mail.Message
import Herold.Send.Header

/-!
# Raw messages

`mail.ReadMessage` on the header of a raw message and `inspectRawMessage`, which
puts a Message-ID and a date in front of a message without them. The reader takes
a line to end at LF, joins continuation lines with one space and keeps the fields
in order under their canonical names.
-/

namespace Herold.Send

open Herold.Go

def splitLines : Bytes → List Bytes
  | [] => []
  | 10 :: rest => [] :: splitLines rest
  | 13 :: 10 :: rest => [] :: splitLines rest
  | byte :: rest =>
    match splitLines rest with
    | [] => [[byte]]
    | line :: lines => (byte :: line) :: lines

def isBlank (byte : UInt8) : Bool := byte = 32 || byte = 9

def trimBlanks (text : Bytes) : Bytes := dropTrailing isBlank (text.dropWhile isBlank)

theorem split_lines_line (lineEnd line rest : Bytes) (ends : lineEnd = [13, 10] ∨ lineEnd = [10])
    (breakless : 13 ∉ line ∧ 10 ∉ line) :
    splitLines (line ++ (lineEnd ++ rest)) = line :: splitLines rest := by
  induction line with
  | nil =>
    rcases ends with rfl | rfl
    · simp [splitLines]
    · simp [splitLines]
  | cons byte line ih =>
    simp only [List.mem_cons, not_or] at breakless
    have behind := ih ⟨breakless.1.2, breakless.2.2⟩
    rw [List.cons_append, splitLines]
    · rw [behind]
    · exact fun feed => breakless.2.1 feed.symm
    · intro _ carriage
      exact absurd carriage.symm breakless.1.1

/-- `ReadContinuedLine` over the lines of a header, the first of them at hand. -/
def gather (current : Bytes) : List Bytes → List Bytes
  | [] => [current]
  | line :: rest =>
    if continues line then gather (current ++ [32] ++ trimBlanks line) rest
    else current :: gather (trimBlanks line) rest

def logicalLines : List Bytes → List Bytes
  | [] => []
  | line :: rest => gather (trimBlanks line) rest

def tokenMarks : Bytes := ascii "!#$%&'*+-.^_`|~"

/-- `validHeaderFieldByte`. -/
def isTokenByte (byte : UInt8) : Bool :=
  (48 ≤ byte && byte ≤ 57) || (65 ≤ byte && byte ≤ 90) || (97 ≤ byte && byte ≤ 122) ||
    tokenMarks.contains byte

/-- `textproto.CanonicalMIMEHeaderKey`: a name with other bytes is left as it is. -/
def canonicalMIMEHeaderKey (name : Bytes) : Bytes :=
  if name.all isTokenByte then Mail.canonicalHeaderKey name else name

/-- The loop of `readHeader`. A field without a name is skipped. -/
def parseFields : List Bytes → Except Bytes (List (Bytes × Bytes))
  | [] => .ok []
  | line :: rest =>
    match cutFirstByte 58 line with
    | none => .error (ascii "malformed header line: " ++ line)
    | some (name, value) =>
      match parseFields rest with
      | .error error => .error error
      | .ok fields =>
        if name = [] then .ok fields
        else .ok ((canonicalMIMEHeaderKey name, value.dropWhile isBlank) :: fields)

def headerBlock (lines : List Bytes) : List Bytes := lines.takeWhile fun line => !line.isEmpty

/-- The end of the text before an empty line is an error only without a field. -/
def endsEarly (lines : List Bytes) (fields : List (Bytes × Bytes)) : Bool :=
  lines.all (fun line => !line.isEmpty) && fields.isEmpty

/-- The fields of `mail.ReadMessage`. -/
def readRawHeader (raw : Bytes) : Except Bytes (List (Bytes × Bytes)) :=
  let lines := splitLines raw
  if continues raw then .error (ascii "malformed initial line: " ++ lines.headD [])
  else match parseFields (logicalLines (headerBlock lines)) with
    | .error error => .error error
    | .ok fields => if endsEarly lines fields then .error (ascii "EOF") else .ok fields

def headerValues (fields : List (Bytes × Bytes)) (name : Bytes) : List Bytes :=
  (fields.filter fun field => field.1 = canonicalMIMEHeaderKey name).map Prod.snd

/-- `Header.Get`. -/
def headerGet (fields : List (Bytes × Bytes))
    (name : Bytes) : Bytes := (headerValues fields name).headD []

def stripAngleBrackets (text : Bytes) : Bytes :=
  trimSuffix (trimPrefix (trimSpace text) (ascii "<")) (ascii ">")

structure Inspected where
  bytes : Bytes
  messageID : Bytes
  deriving DecidableEq

def messageIDLine (messageID : Bytes) : Bytes := ascii "Message-ID: <" ++ messageID ++ ascii ">" ++ crlf

def dateLine (now : Stamp) : Bytes := ascii "Date: " ++ now.rfc1123Z ++ crlf

def fromLine (source : Bytes) : Bytes := ascii "From: " ++ source ++ crlf

/-- The Message-ID of the message, or a new one, and the line a new one needs. -/
def ensureMessageID (entropy : Entropy) (fields : List (Bytes × Bytes)) (hostname defaultFrom : Bytes) :
    Except Bytes (Bytes × Bytes) :=
  let existing := stripAngleBrackets (headerGet fields (ascii "Message-ID"))
  if existing = [] then
    match newMessageID entropy.messageID (messageDomain hostname defaultFrom) with
    | .error error => .error error
    | .ok messageID => .ok (messageID, messageIDLine messageID)
  else .ok (existing, [])

def inspectRawMessage (entropy : Entropy) (raw hostname defaultFrom : Bytes) (now : Stamp) :
    Except Bytes Inspected :=
  match readRawHeader raw with
  | .error error => .error (ascii "parse raw message: " ++ error)
  | .ok fields =>
    match ensureMessageID entropy fields hostname defaultFrom with
    | .error error => .error error
    | .ok (messageID, idLine) =>
      let date := if headerGet fields (ascii "Date") = [] then dateLine now else []
      let sender := if headerGet fields (ascii "From") = [] && defaultFrom ≠ [] then
        fromLine defaultFrom else []
      .ok ⟨idLine ++ date ++ sender ++ raw, messageID⟩

end Herold.Send

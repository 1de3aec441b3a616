import Herold.Mail.Fields
import Herold.Sieve.Commands

/-!
# Rewriting a message

`ApplyMutations` carries out the header and body edits of an outcome. The message is
read from memory and writing does not fail. The random boundaries are a parameter: the
`n`-th call of `newEncloseBoundary` returns the `n`-th of them.

An out-of-range slice is `none`; an outcome of the whole is `Mutated`.
-/

namespace Herold.Sieve

open Herold.Go
open Herold.Mail (startsBlank)

def crlf : Bytes := [13, 10]

def maxHeaderReadSize : Nat := 256 * 1024

def findHeaderEnd (raw : Bytes) : Option Nat :=
  match cutFirst [13, 10, 13, 10] raw with
  | some (before, _) => some (before.length + 4)
  | none => (cutFirst [10, 10] raw).map fun halves => halves.1.length + 2

/-- The header block with the blank line, and the body. The blank line is looked for
in what is buffered only. -/
def readHeaderBlock (raw : Bytes) : Option (Bytes × Bytes) :=
  (findHeaderEnd (raw.take maxHeaderReadSize)).map fun headerEnd =>
    (raw.take headerEnd, raw.drop headerEnd)

def applyAddHeader (headerSection name value : Bytes) : Bytes :=
  name ++ ascii ": " ++ value ++ crlf ++ headerSection

/-- Whether the text before the colon is the name, by `EqualFold`. -/
def matchesName (field name : Bytes) : Bool := equalFold (field ++ [58]) (toLower name ++ [58])

/-- The next line with its CRLF and the rest. Without a CRLF everything left is one
line, except that a single byte is sliced beyond its end: what is left of a block
that ends in CRLF and LF. -/
def sliceLine (headerSection : Bytes) : Option (Bytes × Bytes) :=
  match cutFirst crlf headerSection with
  | some (line, rest) => some (line ++ crlf, rest)
  | none => if headerSection.length = 1 then none else some (headerSection, [])

/-- The loop of `applyDeleteHeader`, at most once for each byte. -/
def deleteLines (name : Bytes) : Nat → Bool → Bytes → Option Bytes
  | 0, _, _ => some []
  | fuel + 1, skipping, headerSection =>
    if headerSection = [] then some []
    else
      match sliceLine headerSection with
      | none => none
      | some (line, rest) =>
        if startsBlank line then
          (deleteLines name fuel skipping rest).map fun out => if skipping then out else line ++ out
        else if line = crlf then some line
        else
          match cutFirstByte 58 line with
          | none => (deleteLines name fuel false rest).map (line ++ ·)
          | some (field, _) =>
            if matchesName field name then deleteLines name fuel true rest
            else (deleteLines name fuel false rest).map (line ++ ·)

def applyDeleteHeader (headerSection name : Bytes) : Option Bytes :=
  deleteLines name (headerSection.length + 1) false headerSection

/-- The continuation lines behind a value, each trimmed and behind a space. -/
def continuedValue : Nat → Bytes → Bytes
  | 0, _ => []
  | fuel + 1, rest =>
    if startsBlank rest then
      match cutFirst crlf rest with
      | some (line, rest) => [32] ++ trimSpace line ++ continuedValue fuel rest
      | none => []
    else []

def readHeaderFrom (name : Bytes) : Nat → Bytes → Bytes
  | 0, _ => []
  | fuel + 1, rest =>
    match cutFirst crlf rest with
    | none => []
    | some (line, rest) =>
      if line = [] then []
      else if startsBlank line then readHeaderFrom name fuel rest
      else
        match cutFirstByte 58 line with
        | none => readHeaderFrom name fuel rest
        | some (field, value) =>
          if matchesName field name then trimSpace value ++ continuedValue fuel rest
          else readHeaderFrom name fuel rest

def readHeader (headerSection name : Bytes) : Bytes :=
  readHeaderFrom name (headerSection.length + 1) headerSection

def echoLine (name : String) (value : Bytes) : Bytes :=
  if value = [] then [] else ascii name ++ ascii ": " ++ value ++ crlf

def outerFields (innerHeaders subject : Bytes) : Bytes :=
  echoLine "Subject" (if subject = [] then readHeader innerHeaders (ascii "Subject") else subject) ++
    echoLine "From" (readHeader innerHeaders (ascii "From")) ++
    echoLine "To" (readHeader innerHeaders (ascii "To"))

def extraFields (headers : List Bytes) : Bytes :=
  headers.flatMap fun header =>
    let header := dropTrailing (fun byte => byte = 13 || byte = 10) header
    if header = [] then [] else header ++ crlf

def withLineEnd (text : Bytes) : Bytes := if crlf.isSuffixOf text then text else text ++ crlf

def enclosureStart (boundary body : Bytes) (headers : List Bytes) : Bytes :=
  extraFields headers ++ ascii "MIME-Version: 1.0" ++ crlf ++
    ascii "Content-Type: multipart/mixed; boundary=\"" ++ boundary ++ ascii "\"" ++ crlf ++ crlf ++
    ascii "--" ++ boundary ++ crlf ++
    ascii "Content-Type: text/plain; charset=utf-8" ++ crlf ++ crlf ++ withLineEnd body ++
    ascii "--" ++ boundary ++ crlf ++ ascii "Content-Type: message/rfc822" ++ crlf ++ crlf

def enclosureEnd (boundary : Bytes) : Bytes := ascii "--" ++ boundary ++ ascii "--" ++ crlf

structure Enclosure where
  body : Bytes
  subject : Bytes
  headers : List Bytes
  deriving DecidableEq

def applyEnclose (boundary raw : Bytes) (enclosure : Enclosure) : Bytes :=
  match findHeaderEnd raw with
  | none => raw
  | some headerEnd =>
    outerFields (raw.take headerEnd) enclosure.subject ++
      enclosureStart boundary enclosure.body enclosure.headers ++ withLineEnd raw ++
        enclosureEnd boundary

/-- What `applyEncloseStreaming` writes. The caller says whether the embedded message
ends in CRLF. -/
def applyEncloseStreaming (boundary innerHeaders innerMsg : Bytes) (innerHasCRLF : Bool)
    (enclosure : Enclosure) : Bytes :=
  outerFields innerHeaders enclosure.subject ++
    enclosureStart boundary enclosure.body enclosure.headers ++ innerMsg ++
    (if innerHasCRLF then [] else crlf) ++ enclosureEnd boundary

/-- The check of the embedded message's tail, which looks at the body alone unless
that is empty. -/
def endsInCRLF (headers body : Bytes) : Bool :=
  if 2 ≤ body.length then crlf.isSuffixOf body
  else if body.length = 0 && 2 ≤ headers.length then crlf.isSuffixOf headers
  else false

def Action.enclosure : Action → Option Enclosure
  | enclose body subject headers => some ⟨body, subject, headers⟩
  | _ => none

def Action.isReplace : Action → Bool
  | replace .. => true
  | _ => false

def Action.mutates : Action → Bool
  | addHeader .. => true
  | deleteHeader _ => true
  | replace .. => true
  | enclose .. => true
  | _ => false

def hasMutations (outcome : Outcome) : Bool := outcome.actions.any Action.mutates

def editHeader (headers : Bytes) : Action → Option Bytes
  | .addHeader name value => some (applyAddHeader headers name value)
  | .deleteHeader name => applyDeleteHeader headers name
  | _ => some headers

def editHeaders : List Action → Bytes → Option Bytes
  | [], headers => some headers
  | action :: actions, headers => (editHeader headers action).bind (editHeaders actions)

def setOrReplaceHeader (headerSection name value : Bytes) : Option Bytes :=
  (applyDeleteHeader headerSection name).map fun deleted => applyAddHeader deleted name value

/-- The boundary parameter, empty when there is none. It is found in the value in lower
case and sliced from the value as it is. -/
def readBoundary (headerSection : Bytes) : Option Bytes :=
  let contentType := readHeader headerSection (ascii "Content-Type")
  if contentType = [] then some []
  else
    match cutFirst (ascii "boundary=") (toLower contentType) with
    | none => some []
    | some (before, _) =>
      if contentType.length < before.length + 9 then none
      else
        match contentType.drop (before.length + 9) with
        | [] => some []
        | first :: rest =>
          if first = 34 then some ((cutFirstByte 34 rest).elim [] Prod.fst)
          else some ((cutFirstAny [59, 32, 9] (first :: rest)).elim (first :: rest) Prod.fst)

def pastLine (text : Bytes) : Bytes := (cutFirst crlf text).elim text Prod.snd

def delimiter (boundary : Bytes) : Bytes := ascii "--" ++ boundary

/-- The loop of `splitMultipart`, at most once for each byte. -/
def splitParts (boundary : Bytes) : Nat → Bytes → List Bytes
  | 0, _ => []
  | fuel + 1, cursor =>
    match cutFirst (crlf ++ delimiter boundary ++ ascii "--") cursor,
        cutFirst (crlf ++ delimiter boundary) cursor with
    | none, none => [cursor]
    | some (part, _), none => [part]
    | some (part, _), some (shorter, next) =>
      if part.length ≤ shorter.length then [part]
      else shorter :: splitParts boundary fuel (pastLine next)
    | none, some (part, next) => part :: splitParts boundary fuel (pastLine next)

def splitMultipart (body boundary : Bytes) : List Bytes :=
  match cutFirst (delimiter boundary) body with
  | none => []
  | some (_, after) => splitParts boundary (body.length + 1) (pastLine (delimiter boundary ++ after))

/-- The parts behind a delimiter line each, every one ended by a CRLF unless it ends in
one already, and the closing delimiter. -/
def assembleMultipart (parts : List Bytes) (delim : Bytes) : Bytes :=
  (parts.flatMap fun part => withLineEnd (delim ++ crlf ++ part)) ++ delim ++ ascii "--" ++ crlf

def buildReplacementPart (replacement : Bytes) : Bytes :=
  ascii "Content-Type: text/plain; charset=utf-8" ++ crlf ++ crlf ++ withLineEnd replacement

/-- The rewritten body, `some none` when the path cannot be resolved. -/
def replacePartInMultipart (replacement : Bytes) : List Nat → Bytes → Bytes → Option (Option Bytes)
  | [], _, _ => some none
  | index :: path, body, boundary =>
    let parts := splitMultipart body boundary
    match parts[index]? with
    | none => some none
    | some child =>
      if path = [] then
        some (some (assembleMultipart (parts.set index (buildReplacementPart replacement))
          (delimiter boundary)))
      else
        match findHeaderEnd child with
        | none => some none
        | some headerEnd =>
          match readBoundary (child.take headerEnd) with
          | none => none
          | some childBoundary =>
            if childBoundary = [] then some none
            else
              (replacePartInMultipart replacement path (child.drop headerEnd) childBoundary).map
                fun rewritten =>
                rewritten.map fun newBody =>
                  assembleMultipart (parts.set index (child.take headerEnd ++ newBody))
                    (delimiter boundary)

def replacePartByPath (raw : Bytes) (path : List Nat) (replacement : Bytes) : Option (Option Bytes) :=
  match findHeaderEnd raw with
  | none => some none
  | some headerEnd =>
    match readBoundary (raw.take headerEnd) with
    | none => none
    | some boundary =>
      if boundary = [] then some none
      else
        (replacePartInMultipart replacement path (raw.drop headerEnd) boundary).map fun rewritten =>
          rewritten.map fun newBody => raw.take headerEnd ++ newBody

def overrideHeader (headers : Bytes) (name : String) (value : Bytes) : Option Bytes :=
  if value = [] then some headers else setOrReplaceHeader headers (ascii name) value

def replaceWhole (raw body subject sender : Bytes) : Option Bytes :=
  match findHeaderEnd raw with
  | none => some raw
  | some headerEnd =>
    (overrideHeader (raw.take headerEnd) "Subject" subject).bind fun headers =>
      (overrideHeader headers "From" sender).map fun headers => headers ++ withLineEnd body

def applyReplace (raw body subject sender : Bytes) (path : List Nat) : Option Bytes :=
  if path = [] then replaceWhole raw body subject sender
  else
    match replacePartByPath raw path body with
    | none => none
    | some (some out) => some out
    | some none => replaceWhole raw body subject sender

def replaceBodies : List Action → Bytes → Option Bytes
  | [], raw => some raw
  | .replace body subject sender path :: actions, raw =>
    (applyReplace raw body subject sender path).bind (replaceBodies actions)
  | _ :: actions, raw => replaceBodies actions raw

inductive Mutated where
  | unchanged
  | noSeparator
  | outOfRange
  | written (bytes : Bytes)
  deriving DecidableEq

def writeIt (result : Option Bytes) : Mutated := result.elim .outOfRange .written

variable (boundaries : Nat → Bytes)

/-- The embeddings one in the other, the `n`-th with the `n`-th boundary. -/
def encloseInMemory : Nat → List Enclosure → Bytes → Bytes
  | _, [], raw => raw
  | count, enclosure :: enclosures, raw =>
    encloseInMemory (count + 1) enclosures (applyEnclose (boundaries count) raw enclosure)

/-- The embeddings as the streaming path writes them, one behind the other. -/
def encloseStreaming (headers body : Bytes) : Nat → List Enclosure → Bytes
  | _, [] => []
  | count, enclosure :: enclosures =>
    applyEncloseStreaming (boundaries count) headers (headers ++ body) (endsInCRLF headers body)
      enclosure ++
      encloseStreaming headers body (count + 1) enclosures

def applyMutations (raw : Bytes) (outcome : Outcome) : Mutated :=
  if !hasMutations outcome then .unchanged
  else
    match readHeaderBlock raw with
    | none => .noSeparator
    | some (headerBytes, body) =>
      match editHeaders outcome.actions headerBytes with
      | none => .outOfRange
      | some headers =>
        let enclosures := outcome.actions.filterMap Action.enclosure
        if outcome.actions.any Action.isReplace then
          writeIt ((replaceBodies outcome.actions (headers ++ body)).map
            (encloseInMemory boundaries 0 enclosures))
        else if enclosures = [] then .written (headers ++ body)
        else .written (encloseStreaming boundaries headers body 0 enclosures)

/-- `ApplyMutationsBytes`: the message afterwards, when there is one. -/
def applyMutationsBytes (raw : Bytes) (outcome : Outcome) : Option Bytes :=
  match applyMutations boundaries raw outcome with
  | .unchanged => some raw
  | .written bytes => some bytes
  | _ => none

end Herold.Sieve

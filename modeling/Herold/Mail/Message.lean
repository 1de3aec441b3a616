import Herold.Go.Strings

/-!
# Parsed messages

The parts of a parsed message that filtering reads: header fields under their
canonical names, the tree of MIME parts, the size and the Message-ID. How a
message is parsed is not modelled.
-/

namespace Herold.Mail

open Herold.Go

def canonicalFrom : Bool → Bytes → Bytes
  | _, [] => []
  | upper, char :: rest =>
    let char :=
      if upper && 97 ≤ char && char ≤ 122 then char - 32
      else if !upper && 65 ≤ char && char ≤ 90 then char + 32
      else char
    char :: canonicalFrom (char == 45) rest

def canonicalHeaderKey (name : Bytes) : Bytes := canonicalFrom true name

structure Headers where
  fields : List (Bytes × Bytes)
  deriving DecidableEq

namespace Headers

def getAll (headers : Headers) (name : Bytes) : List Bytes :=
  (headers.fields.filter fun field => field.1 = canonicalHeaderKey name).map Prod.snd

def get (headers : Headers) (name : Bytes) : Bytes := (headers.getAll name).headD []

end Headers

inductive Disposition where
  | unknown
  | inline
  | attachment
  deriving DecidableEq

structure Part where
  contentType : Bytes
  headers : Headers
  disposition : Disposition
  text : Bytes
  children : List Part

namespace Part

def isText (part : Part) : Bool := hasPrefix (toLower part.contentType) (ascii "text/")

mutual

def textParts : Part → List Part
  | ⟨contentType, headers, disposition, text, children⟩ =>
    if children.isEmpty then
      let part : Part := ⟨contentType, headers, disposition, text, children⟩
      if part.isText && disposition ≠ .attachment then [part] else []
    else textPartsOf children

def textPartsOf : List Part → List Part
  | [] => []
  | part :: parts => textParts part ++ textPartsOf parts

end

end Part

structure Message where
  headers : Headers
  messageId : Bytes
  body : Part
  size : Nat

/-- The first plain-text leaf, or else the first text that is not empty. -/
def primaryTextBody (message : Message) : Bytes :=
  let parts := message.body.textParts
  match parts.find? fun part => toLower part.contentType = ascii "text/plain" with
  | some part => part.text
  | none => ((parts.map Part.text).find? fun text => text ≠ []).getD []

end Herold.Mail

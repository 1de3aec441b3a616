import Herold.Imap.Tokens

/-!
# The items of FETCH

`parseFetch` reads the set, the items or one macro, and the options of
`CHANGEDSINCE`. A body section may carry a part number, a specifier and a window
`<offset.size>` of signed integers.
-/

namespace Herold.Imap

open Herold.Go

inductive PartSpecifier where
  | whole
  | header
  | text
  | mime
  deriving DecidableEq

/-- `SectionPartial`. -/
structure Window where
  offset : Int
  size : Int
  deriving DecidableEq

/-- `FetchItemBodySection`. -/
structure BodySection where
  specifier : PartSpecifier := .whole
  part : List Int := []
  headerFields : List Bytes := []
  headerFieldsNot : List Bytes := []
  window : Option Window := none
  peek : Bool := false
  deriving DecidableEq

structure FetchOptions where
  uid : Bool := false
  flags : Bool := false
  internalDate : Bool := false
  rfc822Size : Bool := false
  envelope : Bool := false
  modSeq : Bool := false
  bodyStructure : Option Bool := none
  bodySection : List BodySection := []
  changedSince : Nat := 0
  deriving DecidableEq

def FetchOptions.addSection (options : FetchOptions) (wanted : BodySection) : FetchOptions :=
  { options with bodySection := options.bodySection ++ [wanted] }

def applyFetchItem (name : Bytes) (options : FetchOptions) : Parse FetchOptions :=
  if name = ascii "UID" then pure { options with uid := true }
  else if name = ascii "FLAGS" then pure { options with flags := true }
  else if name = ascii "INTERNALDATE" then pure { options with internalDate := true }
  else if name = ascii "RFC822.SIZE" then pure { options with rfc822Size := true }
  else if name = ascii "ENVELOPE" then pure { options with envelope := true }
  else if name = ascii "BODY" then pure { options with bodyStructure := some false }
  else if name = ascii "BODYSTRUCTURE" then pure { options with bodyStructure := some true }
  else if name = ascii "RFC822" then pure (options.addSection {})
  else if name = ascii "RFC822.HEADER" then
    pure (options.addSection { specifier := .header, peek := true })
  else if name = ascii "RFC822.TEXT" then pure (options.addSection { specifier := .text })
  else if name = ascii "MODSEQ" then pure { options with modSeq := true }
  else throw (.unknownFetchItem name)

def applyFetchMacro (name : Bytes) (options : FetchOptions) : Parse FetchOptions :=
  let fast := { options with flags := true, internalDate := true, rfc822Size := true }
  if name = ascii "ALL" then pure { fast with envelope := true }
  else if name = ascii "FAST" then pure fast
  else if name = ascii "FULL" then pure { fast with envelope := true, bodyStructure := some false }
  else applyFetchItem name options

/-- The part numbers `1.2.3`; empty ones are skipped. -/
def parsePart (text : Bytes) : Parse (List Int) :=
  match ((splitByte 46 text).filter fun number => !number.isEmpty).mapM parseInt64 with
  | some part => pure part
  | none => throw .badPart

def parseSpecifier (wanted : BodySection) : Parse BodySection := do
  ifNext 46 advance (pure ())
  let spec ← readAtom
  let specU := toUpper spec
  if specU = ascii "HEADER" then pure { wanted with specifier := .header }
  else if specU = ascii "HEADER.FIELDS" then do
    skipSP
    let fields ← readAtomList
    pure { wanted with specifier := .header, headerFields := fields }
  else if specU = ascii "HEADER.FIELDS.NOT" then do
    skipSP
    let fields ← readAtomList
    pure { wanted with specifier := .header, headerFieldsNot := fields }
  else if specU = ascii "TEXT" then pure { wanted with specifier := .text }
  else if specU = ascii "MIME" then pure { wanted with specifier := .mime }
  else throw (.unknownBodySpecifier spec)

/-- The window between `<` and `>`. Without a size it runs to the end. -/
def parseWindow (spec : Bytes) : Except ParseError Window :=
  match splitN 46 2 spec with
  | [offset] =>
    match parseInt64 offset with
    | some offset => .ok ⟨offset, -1⟩
    | none => .error .badPartialOffset
  | offset :: size :: _ =>
    match parseInt64 offset with
    | some offset =>
      match parseInt64 size with
      | some size => .ok ⟨offset, size⟩
      | none => .error .badPartialSize
    | none => .error .badPartialOffset
  | [] => .error .badPartialOffset

def takeWindow : Parse Bytes := fun p =>
  match cutFirstByte 62 p.src with
  | some (spec, rest) => .ok (spec, { p with src := rest })
  | none => .error .unterminatedPartial

def parseSectionWindow (options : FetchOptions) (wanted : BodySection) : Parse FetchOptions := do
  advance
  let spec ← takeWindow
  match parseWindow spec with
  | .ok window => pure (options.addSection { wanted with window := some window })
  | .error failure => throw failure

def parseBodySection (name : Bytes) (options : FetchOptions) : Parse FetchOptions := do
  let peeks := (ascii ".PEEK").isSuffixOf name
  expect 91
  let partText ← takeRun fun byte => isDigit byte || byte = 46
  let part ← parsePart partText
  let wanted : BodySection := { part := part, peek := peeks }
  let wanted ← ifNext 93 (pure wanted) (parseSpecifier wanted)
  expect 93
  ifNext 60 (parseSectionWindow options wanted) (pure (options.addSection wanted))

def parseFetchItem (options : FetchOptions) : Parse FetchOptions := do
  let name := toUpper (← readAtom)
  ifNext 91 (parseBodySection name options) (applyFetchItem name options)

/-- The loop of `parseFetchItemList`. -/
def fetchItems : Nat → FetchOptions → Parse FetchOptions
  | 0, _ => throw .starved
  | fuel + 1, options => do
      skipSP
      ifNext 41 (do advance; pure options) do
        let options ← parseFetchItem options
        fetchItems fuel options

def parseFetchItemList (options : FetchOptions) : Parse FetchOptions := do
  expect 40
  fetchItems (← rounds) options

def fetchTail : Nat → FetchOptions → Parse FetchOptions
  | 0, _ => throw .starved
  | fuel + 1, options => do
      skipSP
      ifNext 41 (do advance; pure options) do
        let word := toUpper (← readAtom)
        if word = ascii "CHANGEDSINCE" then do
          skipSP
          let number ← readNum
          match parseUint64 number with
          | some since => fetchTail fuel { options with changedSince := since, modSeq := true }
          | none => throw .badChangedSince
        else fetchTail fuel options

def parseSingleItem : Parse FetchOptions := do
  let name := toUpper (← readAtom)
  if name = ascii "ALL" ∨ name = ascii "FAST" ∨ name = ascii "FULL" then applyFetchMacro name {}
  else ifNext 91 (parseBodySection name {}) (applyFetchItem name {})

def parseFetch : Parse (NumSet × FetchOptions) := do
  skipSP
  let set ← parseNumSet
  skipSP
  let options ← ifNext 40 (parseFetchItemList {}) parseSingleItem
  skipSP
  let options ← ifNext 40 (do advance; fetchTail (← rounds) options) (pure options)
  pure (set, options)

end Herold.Imap

import Herold.Imap.NumSet

/-!
# The tokens of a command line

A command is one flattened line in which a NUL byte stands for each literal. The
parser keeps what is left of the line and the literals not yet taken. Literals
above a threshold lie in a file; what the file operations will return is part of
the state too. The position an error names is left out.
-/

namespace Herold.Imap

open Herold.Go

inductive ParseError where
  | expected (byte : UInt8)
  | expectedAtom
  | unexpectedEOL
  | unterminatedQuoted
  | literalSlot
  | spill
  | expectedNumberSet
  | badNumber
  | badPart
  | unknownBodySpecifier (name : Bytes)
  | unterminatedPartial
  | badPartialOffset
  | badPartialSize
  | unknownFetchItem (name : Bytes)
  | badChangedSince
  | badUnchangedSince
  | unknownStoreOp (name : Bytes)
  | unterminatedGroup
  | badSize
  | badSearchDate (text : Bytes)
  | badModSeq
  | unknownSearchKey (token : Bytes)
  | appendLiteral
  | unknownCommand (verb : Bytes)
  | starved
  deriving DecidableEq

/-- `parsedLiteral`: the bytes, and whether they lie in a spill file. -/
structure Literal where
  data : Bytes
  spilled : Bool
  deriving DecidableEq

structure Parser where
  src : Bytes
  lits : List Literal := []
  /-- Whether each coming file operation fails; beyond the list none does. -/
  disk : List Bool := []
  deriving DecidableEq

abbrev Parse := StateT Parser (Except ParseError)

def eof : Parse Bool := fun p => .ok (p.src.isEmpty, p)

def peek : Parse UInt8 := fun p => .ok (p.src.headD 0, p)

def ifNext {Value : Type} (byte : UInt8) (found other : Parse Value) : Parse Value := do
  let next ← peek
  if next = byte then found else other

/-- `p.pos++`. -/
def advance : Parse Unit := fun p => .ok ((), { p with src := p.src.drop 1 })

def skipSP : Parse Unit := fun p => .ok ((), { p with src := p.src.dropWhile (· = 32) })

def expect (byte : UInt8) : Parse Unit := fun p =>
  if p.src.head? = some byte then .ok ((), { p with src := p.src.drop 1 })
  else .error (.expected byte)

def takeRun (inside : UInt8 → Bool) : Parse Bytes := fun p =>
  .ok (p.src.takeWhile inside, { p with src := p.src.dropWhile inside })

/-- Not a space, a parenthesis, a bracket, a quote or the mark of a literal. -/
def isAtomByte (byte : UInt8) : Bool :=
  byte ≠ 32 && byte ≠ 40 && byte ≠ 41 && byte ≠ 91 && byte ≠ 93 && byte ≠ 34 && byte ≠ 0

def readAtom : Parse Bytes := do
  let atom ← takeRun isAtomByte
  if atom = [] then throw .expectedAtom else pure atom

/-- The rest of a quoted string, and what follows its closing quote. -/
def quotedRest : Bytes → Option (Bytes × Bytes)
  | [] => none
  | [byte] => if byte = 34 then some ([], []) else none
  | byte :: next :: rest =>
    if byte = 92 then (quotedRest rest).map fun found => (next :: found.1, found.2)
    else if byte = 34 then some ([], next :: rest)
    else (quotedRest (next :: rest)).map fun found => (byte :: found.1, found.2)

def takeQuoted : Parse Bytes := fun p =>
  match quotedRest p.src with
  | some (text, rest) => .ok (text, { p with src := rest })
  | none => .error .unterminatedQuoted

def readQuoted : Parse Bytes := do
  expect 34
  takeQuoted

def nextLiteral : Parse Literal := fun p =>
  match p.lits with
  | literal :: lits => .ok (literal, { p with lits := lits })
  | [] => .error .literalSlot

def useFile : Parse Unit := fun p =>
  match p.disk with
  | true :: _ => .error .spill
  | false :: disk => .ok ((), { p with disk := disk })
  | [] => .ok ((), p)

def takeLiteral : Parse Bytes := do
  expect 0
  let literal ← nextLiteral
  if literal.spilled then do
    useFile
    pure literal.data
  else pure literal.data

/-- `takeSpillLiteral`: the bytes of the file it returns. A literal held in memory
is written to a new file first. -/
def takeSpillLiteral : Parse Bytes := do
  expect 0
  let literal ← nextLiteral
  if literal.spilled then pure literal.data
  else do
    useFile
    pure literal.data

def readAstring : Parse Bytes := do
  if ← eof then throw .unexpectedEOL
  else
    let byte ← peek
    if byte = 34 then readQuoted
    else if byte = 0 then takeLiteral
    else readAtom

/-- `readNum`, and `mustReadNum`, which reads the same. -/
def readNum : Parse Bytes := takeRun isDigit

/-- `strconv.ParseUint` in base ten for 64 bits. -/
def parseUint64 (text : Bytes) : Option Nat :=
  if text = [] ∨ !text.all isDigit then none
  else if decimalValue text < 2 ^ 64 then some (decimalValue text) else none

def isSetByte (byte : UInt8) : Bool :=
  byte ≠ 32 && byte ≠ 40 && byte ≠ 41 && byte ≠ 91 && byte ≠ 93

def parseNumSet : Parse NumSet := do
  let text ← takeRun isSetByte
  if text = [] then throw .expectedNumberSet
  else
    match parseNumSetString text with
    | some set => pure set
    | none => throw .badNumber

/-- The items up to a closing parenthesis. Each takes at least a byte, so the
bound is never reached. -/
def untilClose {Item : Type} (item : Parse Item) : Nat → Parse (List Item)
  | 0 => throw .starved
  | fuel + 1 => do
      skipSP
      ifNext 41 (do advance; pure []) do
        let first ← item
        let rest ← untilClose item fuel
        pure (first :: rest)

def rounds : Parse Nat := fun p => .ok (p.src.length + 1, p)

def parenList {Item : Type} (item : Parse Item) : Parse (List Item) := do
  expect 40
  untilClose item (← rounds)

def parseAtomParenList : Parse (List Bytes) := parenList readAtom

def parseStringParenList : Parse (List Bytes) := parenList readAstring

def parseFlagList : Parse (List Bytes) := parenList readAtom

def readAtomList : Parse (List Bytes) := parenList readAstring

end Herold.Imap

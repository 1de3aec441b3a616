import Herold.Go.Strings

/-!
# The Sieve grammar and its parser

A script is parsed by recursive descent over the runes of its source. The parser
only ever stands between two runes, so its position is the list of runes that
are left, each with the bytes it was decoded from. Source lines and columns, which
nothing but the texts of errors reads, are not kept.

The recursion is bounded by a count of calls. A run that stops for that reason
alone reports `outOfFuel`; `Herold.Sieve.Fuel` shows that more of it never changes what a
parse succeeds with.
-/

namespace Herold.Sieve

open Herold.Go

inductive Argument where
  | tag (name : Bytes)
  | string (text : Bytes)
  | number (value : Nat)
  | stringList (items : List Bytes)
  deriving DecidableEq

structure Test where
  name : Bytes
  args : List Argument
  children : List Test

structure Command where
  name : Bytes
  args : List Argument
  test : Option Test
  block : List Command

structure Script where
  requires : List Bytes
  commands : List Command

inductive ParseError where
  | scriptTooLarge
  | unterminatedComment
  | requireArity
  | requireArgument
  | eofInCommand (name : Bytes)
  | identifierAfterTest (rune : Rune)
  | characterInCommand (rune : Rune)
  | tooDeep
  | unterminatedBlock
  | eofInTest (name : Bytes)
  | characterInTest (rune : Rune) (name : Bytes)
  | expectedTestList
  | expectedCommaOrParen
  | tokenInArgument (rune : Rune)
  | expectedArgument (rune : Rune)
  | expectedIdentifierAtEof
  | expectedIdentifier (rune : Rune)
  | unterminatedEscape
  | unterminatedString
  | unterminatedText
  | expectedNewline
  | expectedQuote
  | expectedCommaOrBracket
  | expectedDigit
  | numberOverflow
  | quantityOverflow
  | outOfFuel
  deriving DecidableEq

abbrev Text := List (Rune × Bytes)

def defaultMaxScriptBytes : Nat := 256 * 1024

def defaultMaxNestingDepth : Nat := 1024

def peek : Text → Rune
  | [] => runeError
  | here :: _ => here.1

def advance (text : Text) : Text := text.drop 1

inductive Skipping where
  | plain
  | hash
  | bracket

def skipFrom : Skipping → Text → Except ParseError Text
  | .plain, [] => .ok []
  | .hash, [] => .ok []
  | .bracket, [] => .error .unterminatedComment
  | .plain, here :: rest =>
    if isSpaceRune here.1 then skipFrom .plain rest
    else if here.1 = 35 then skipFrom .hash rest
    else if here.1 = 47 then
      match rest with
      | [] => .ok [here]
      | next :: after =>
        if next.1 = 42 then skipFrom .bracket after else .ok (here :: next :: after)
    else .ok (here :: rest)
  -- the newline that ends a hash comment is white space itself
  | .hash, here :: rest => if here.1 = 10 then skipFrom .plain rest else skipFrom .hash rest
  | .bracket, here :: rest =>
    if here.1 = 42 then
      match rest with
      | [] => .error .unterminatedComment
      | next :: after =>
        if next.1 = 47 then skipFrom .plain after else skipFrom .bracket (next :: after)
    else skipFrom .bracket rest

def skipWhitespaceAndComments (text : Text) : Except ParseError Text := skipFrom .plain text

def isIdentStart (rune : Rune) : Bool :=
  (65 ≤ rune && rune ≤ 90) || (97 ≤ rune && rune ≤ 122) || rune == 95

def isIdentPart (rune : Rune) : Bool :=
  isIdentStart rune || (48 ≤ rune && rune ≤ 57) || rune == 45

def writeRunes (text : Text) : Bytes := text.flatMap fun here => encodeRune here.1

def readIdentifier (text : Text) : Except ParseError (Bytes × Text) := do
  let text ← skipWhitespaceAndComments text
  match text with
  | [] => .error .expectedIdentifierAtEof
  | here :: rest =>
    if isIdentStart here.1 then
      .ok (writeRunes ((here :: rest).takeWhile fun rune => isIdentPart rune.1),
        (here :: rest).dropWhile fun rune => isIdentPart rune.1)
    else .error (.expectedIdentifier here.1)

def hexDigit (rune : Rune) : Option Nat :=
  if 48 ≤ rune && rune ≤ 57 then some (rune - 48)
  else if 97 ≤ rune && rune ≤ 102 then some (rune - 97 + 10)
  else if 65 ≤ rune && rune ≤ 70 then some (rune - 65 + 10)
  else none

def hexFrom (value : Nat) : Text → Option Rune
  | [] => some value
  | here :: rest =>
    match hexDigit here.1 with
    | none => none
    | some digit =>
      if 0x10FFFF < value * 16 + digit then none else hexFrom (value * 16 + digit) rest

def parseHex (text : Bytes) : Option Rune := if text = [] then none else hexFrom 0 (runes text)

def decodeEncodedRef (text : Bytes) : Option Rune :=
  let inner := trimSpace text
  if hasPrefix inner (ascii "unicode:") then parseHex (inner.drop 8)
  else if hasPrefix inner (ascii "hex:") then parseHex (inner.drop 4)
  else none

-- `pending` counts the bytes of a reference that is already written out, so
-- that the recursion stays structural on the bytes.
def expandFrom (replace : Bytes → Bytes) : Nat → Bytes → Bytes
  | _, [] => []
  | pending + 1, _ :: rest => expandFrom replace pending rest
  | 0, first :: rest =>
    if first = 36 ∧ rest.head? = some 123 then
      match cutFirstByte 125 (rest.drop 1) with
      | none => first :: rest
      | some (inner, _) => replace inner ++ expandFrom replace (inner.length + 2) rest
    else first :: expandFrom replace 0 rest

/-- Replace each `${...}` of a text, from left to right. A `${` that is never
closed ends the search. -/
def expandReferences (replace : Bytes → Bytes) (text : Bytes) : Bytes := expandFrom replace 0 text

def reference (inner : Bytes) : Bytes := ascii "$\x7b" ++ inner ++ ascii "\x7d"

def decodedRef (inner : Bytes) : Bytes :=
  match decodeEncodedRef inner with
  | some rune => encodeRune rune
  | none => reference inner

def expandEncodedChars (text : Bytes) : Bytes := expandReferences decodedRef text

def quotedFrom (written : Bytes) : Text → Except ParseError (Bytes × Text)
  | [] => .error .unterminatedString
  | here :: rest =>
    if here.1 = 34 then .ok (expandEncodedChars written, rest)
    else if here.1 = 92 then
      match rest with
      | [] => .error .unterminatedEscape
      | escaped :: after =>
        if escaped.1 = 34 ∨ escaped.1 = 92 then
          quotedFrom (written ++ encodeRune escaped.1) after
        else quotedFrom (written ++ 92 :: encodeRune escaped.1) after
    else quotedFrom (written ++ encodeRune here.1) rest

def readQuotedString (text : Text) : Except ParseError (Bytes × Text) :=
  if peek text = 34 then quotedFrom [] (advance text) else .error .expectedQuote

def unstuffLine (line : Bytes) : Bytes := if hasPrefix line (ascii "..") then line.drop 1 else line

-- `line` holds the bytes of the current line up to the parser's position.
def multilineFrom (written line : Bytes) : Text → Except ParseError (Bytes × Text)
  | [] =>
    if trimSuffix line [13] = ascii "." then .ok (expandEncodedChars written, [])
    else .error .unterminatedText
  | here :: rest =>
    if here.1 = 10 then
      if trimSuffix line [13] = ascii "." then .ok (expandEncodedChars written, rest)
      else multilineFrom (written ++ unstuffLine (trimSuffix line [13]) ++ [10]) [] rest
    else multilineFrom written (line ++ here.2) rest

def readMultilineString (text : Text) : Except ParseError (Bytes × Text) :=
  let text := (text.drop 5).dropWhile fun here => here.1 = 32 || here.1 = 9
  if text = [] then .error .unterminatedText
  else
    let text := if peek text = 13 then advance text else text
    if peek text = 10 then multilineFrom [] [] (advance text) else .error .expectedNewline

def startsText (text : Text) : Bool :=
  (text.take 5).map Prod.fst = (ascii "text:").map UInt8.toNat

def isDigitRune (rune : Rune) : Bool := 48 ≤ rune && rune ≤ 57

def digitsFrom (value : Nat) : Text → Except ParseError (Nat × Text)
  | [] => .ok (value, [])
  | here :: rest =>
    if isDigitRune here.1 then
      if (1 <<< 62) / 10 < value then .error .numberOverflow
      else digitsFrom (value * 10 + (here.1 - 48)) rest
    else .ok (value, here :: rest)

def quantity (rune : Rune) : Option Nat :=
  if rune = 75 ∨ rune = 107 then some 1024
  else if rune = 77 ∨ rune = 109 then some (1024 * 1024)
  else if rune = 71 ∨ rune = 103 then some (1024 * 1024 * 1024)
  else none

def readNumber (text : Text) : Except ParseError (Nat × Text) :=
  if isDigitRune (peek text) then do
    let (value, rest) ← digitsFrom 0 text
    match quantity (peek rest) with
    | none => .ok (value, rest)
    | some factor =>
      if (1 <<< 62) / factor < value then .error .quantityOverflow
      else .ok (value * factor, advance rest)
  else .error .expectedDigit

def stringListFrom : Nat → Text → Except ParseError (List Bytes × Text)
  | 0, _ => .error .outOfFuel
  | fuel + 1, text => do
      let text ← skipWhitespaceAndComments text
      if peek text = 93 then .ok ([], advance text)
      else do
        let (item, rest) ← readQuotedString text
        let rest ← skipWhitespaceAndComments rest
        if peek rest = 44 then do
          let (items, rest) ← stringListFrom fuel (advance rest)
          .ok (item :: items, rest)
        else if peek rest = 93 then .ok ([item], advance rest)
        else .error .expectedCommaOrBracket

def parseArgument (fuel : Nat) (text : Text) : Except ParseError (Argument × Text) := do
  let text ← skipWhitespaceAndComments text
  if peek text = 58 then do
    let (name, rest) ← readIdentifier (advance text)
    .ok (.tag (58 :: toLower name), rest)
  else if peek text = 34 then do
    let (string, rest) ← readQuotedString text
    .ok (.string string, rest)
  else if peek text = 116 then
    if startsText text then do
      let (string, rest) ← readMultilineString text
      .ok (.string string, rest)
    else .error (.tokenInArgument (peek text))
  else if peek text = 91 then do
    let (items, rest) ← stringListFrom fuel (advance text)
    .ok (.stringList items, rest)
  else if isDigitRune (peek text) then do
    let (value, rest) ← readNumber text
    .ok (.number value, rest)
  else .error (.expectedArgument (peek text))

/-- The runes an argument other than a `text:` block begins with. -/
def startsArgument (rune : Rune) : Bool := rune == 58 || rune == 34 || rune == 91 || isDigitRune rune

def testArguments : Nat → Bytes → Text → Except ParseError (List Argument × Text)
  | 0, _, _ => .error .outOfFuel
  | fuel + 1, name, text => do
      let text ← skipWhitespaceAndComments text
      if text = [] then .error (.eofInTest name)
      else if peek text = 44 ∨ peek text = 41 ∨ peek text = 123 ∨ peek text = 59 then .ok ([], text)
      else if startsArgument (peek text) then do
        let (arg, rest) ← parseArgument fuel text
        let (args, rest) ← testArguments fuel name rest
        .ok (arg :: args, rest)
      else .error (.characterInTest (peek text) name)

def enterDepth (depth : Nat) : Except ParseError Nat :=
  if defaultMaxNestingDepth < depth + 1 then .error .tooDeep else .ok (depth + 1)

mutual

def parseTest : Nat → Nat → Text → Except ParseError (Test × Text)
  | 0, _, _ => .error .outOfFuel
  | fuel + 1, depth, text => do
      let (identifier, text) ← readIdentifier text
      let name := toLower identifier
      if name = ascii "allof" ∨ name = ascii "anyof" then do
        let text ← skipWhitespaceAndComments text
        if peek text = 40 then do
          let depth ← enterDepth depth
          let (children, rest) ← testListFrom fuel depth (advance text)
          .ok (⟨name, [], children⟩, rest)
        else .error .expectedTestList
      else if name = ascii "not" then do
        let depth ← enterDepth depth
        let (child, rest) ← parseTest fuel depth text
        .ok (⟨name, [], [child]⟩, rest)
      else if name = ascii "true" ∨ name = ascii "false" then .ok (⟨name, [], []⟩, text)
      else do
        let (args, rest) ← testArguments fuel name text
        .ok (⟨name, args, []⟩, rest)

def testListFrom : Nat → Nat → Text → Except ParseError (List Test × Text)
  | 0, _, _ => .error .outOfFuel
  | fuel + 1, depth, text => do
      let text ← skipWhitespaceAndComments text
      if peek text = 41 then .ok ([], advance text)
      else do
        let (test, rest) ← parseTest fuel depth text
        let rest ← skipWhitespaceAndComments rest
        if peek rest = 44 then do
          let (tests, rest) ← testListFrom fuel depth (advance rest)
          .ok (test :: tests, rest)
        else if peek rest = 41 then .ok ([test], advance rest)
        else .error .expectedCommaOrParen

end

mutual

def parseCommand : Nat → Nat → Text → Except ParseError (Command × Text)
  | 0, _, _ => .error .outOfFuel
  | fuel + 1, depth, text => do
      let (identifier, text) ← readIdentifier text
      commandFrom fuel depth ⟨toLower identifier, [], none, []⟩ text

/-- The rest of a command, whose name and first arguments are already read. -/
def commandFrom : Nat → Nat → Command → Text → Except ParseError (Command × Text)
  | 0, _, _, _ => .error .outOfFuel
  | fuel + 1, depth, command, text => do
      let text ← skipWhitespaceAndComments text
      if text = [] then .error (.eofInCommand command.name)
      else if peek text = 59 then .ok (command, advance text)
      else if peek text = 123 then do
        let depth ← enterDepth depth
        let (block, rest) ← blockFrom fuel depth (advance text)
        .ok ({ command with block }, rest)
      else if startsArgument (peek text) ∨ startsText text then do
        let (arg, rest) ← parseArgument fuel text
        commandFrom fuel depth { command with args := command.args ++ [arg] } rest
      else if isIdentStart (peek text) then
        if command.test.isSome then .error (.identifierAfterTest (peek text))
        else do
          let (test, rest) ← parseTest fuel depth text
          commandFrom fuel depth { command with test := some test } rest
      else .error (.characterInCommand (peek text))

def blockFrom : Nat → Nat → Text → Except ParseError (List Command × Text)
  | 0, _, _ => .error .outOfFuel
  | fuel + 1, depth, text => do
      let text ← skipWhitespaceAndComments text
      if text = [] then .error .unterminatedBlock
      else if peek text = 125 then .ok ([], advance text)
      else do
        let (command, rest) ← parseCommand fuel depth text
        let (commands, rest) ← blockFrom fuel depth rest
        .ok (command :: commands, rest)

end

/-- The extensions a `require` command names. -/
def requireNames (command : Command) : Except ParseError (List Bytes) :=
  match command.args with
  | [.string name] => .ok [name]
  | [.stringList names] => .ok names
  | [_] => .error .requireArgument
  | _ => .error .requireArity

def scriptFrom : Nat → Text → Except ParseError Script
  | 0, _ => .error .outOfFuel
  | fuel + 1, text => do
      let text ← skipWhitespaceAndComments text
      if text = [] then .ok ⟨[], []⟩
      else do
        let (command, rest) ← parseCommand fuel 0 text
        if command.name = ascii "require" then do
          let names ← requireNames command
          let script ← scriptFrom fuel rest
          .ok { script with requires := names ++ script.requires }
        else do
          let script ← scriptFrom fuel rest
          .ok { script with commands := command :: script.commands }

def fuelFor (text : Text) : Nat := 2 * text.length + 2

def parseScript (text : Text) : Except ParseError Script := scriptFrom (fuelFor text) text

def parse (source : Bytes) : Except ParseError Script :=
  if defaultMaxScriptBytes < source.length then .error .scriptTooLarge
  else parseScript (runes source)

end Herold.Sieve

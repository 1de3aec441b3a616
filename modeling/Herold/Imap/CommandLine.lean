import Herold.Imap.SearchKeys
import Herold.Imap.FetchItems

/-!
# The commands a client writes

`parseCommand` reads the tag, the verb and the arguments of the verb from the
flattened line. The time of an `APPEND` item is kept as the text it is read from.
-/

namespace Herold.Imap

open Herold.Go

inductive StoreAction where
  | replace
  | add
  | delete
  deriving DecidableEq

structure StoreArguments where
  set : NumSet
  unchangedSince : Nat
  action : StoreAction
  silent : Bool
  flags : List Bytes
  deriving DecidableEq

structure ReturnOptions where
  min : Bool := false
  max : Bool := false
  all : Bool := false
  count : Bool := false
  save : Bool := false
  deriving DecidableEq

/-- One `[(flags)] [internaldate] literal` of an `APPEND`. -/
structure AppendTuple where
  flags : List Bytes
  internal : Option Bytes
  data : Bytes
  deriving DecidableEq

inductive Arguments where
  | none
  | compress (mechanism : Bytes)
  | enable (tokens : List Bytes)
  | notify (raw : Bytes)
  | copyMove (set : NumSet) (destination : Bytes)
  | login (user pass : Bytes)
  | authenticate (mechanism : Bytes) (initial : Option Bytes)
  | select (mailbox : Bytes) (options : List (Bytes × Bytes))
  | mailbox (name : Bytes)
  | create (name : Bytes) (uses : List Bytes)
  | rename (old new : Bytes)
  | list (selectOptions : List Bytes) (reference : Bytes) (patterns returnOptions : List Bytes)
  | status (mailbox : Bytes) (items : List Bytes)
  | append (mailbox : Bytes) (tuples : List AppendTuple)
  | id (parameters : List (Bytes × Bytes))
  | fetch (set : NumSet) (options : FetchOptions)
  | store (arguments : StoreArguments)
  | search (options : ReturnOptions) (charset : Option Bytes) (keys : List SearchKey)
  | expunge (set : Option NumSet)
  | acl (mailbox : Bytes) (identifier rights : Option Bytes)

/-- `Command`, as `parseCommand` fills it. -/
structure ClientCommand where
  tag : Bytes := []
  op : Bytes := []
  isUID : Bool := false
  arguments : Arguments := .none

/-- A parenthesised text, nested parentheses included, and what follows it. An
unclosed one runs to the end of the line. -/
def splitParens : Nat → Bytes → Bytes × Bytes
  | _, [] => ([], [])
  | depth, byte :: rest =>
    if byte = 40 then
      let inner := splitParens (depth + 1) rest
      (byte :: inner.1, inner.2)
    else if byte = 41 then
      if depth ≤ 1 then ([byte], rest)
      else
        let inner := splitParens (depth - 1) rest
        (byte :: inner.1, inner.2)
    else
      let inner := splitParens depth rest
      (byte :: inner.1, inner.2)

def takeParens : Parse Bytes := fun p =>
  .ok ((splitParens 0 p.src).1, { p with src := (splitParens 0 p.src).2 })

def optionArgument : Parse Bytes := do
  skipSP
  ifNext 40 takeParens (pure [])

def selectOption : Parse (Bytes × Bytes) := do
  let name ← readAtom
  let value ← optionArgument
  pure (toUpper name, value)

def parseSelectOptionList : Parse (List (Bytes × Bytes)) := parenList selectOption

def returnOption : Parse Bytes := do
  let name ← readAtom
  let value ← optionArgument
  pure (name ++ value)

def parseListReturnOpts : Parse (List Bytes) := parenList returnOption

/-- The loop of `parseCreateSpecialUse`, which ends at `USE`. -/
def specialUse : Nat → Parse (List Bytes)
  | 0 => throw .starved
  | fuel + 1 => do
      skipSP
      ifNext 41 (do advance; pure []) do
        let name ← readAtom
        if equalFold name (ascii "USE") then do
          skipSP
          parseAtomParenList
        else do
          let _ ← optionArgument
          specialUse fuel

def parseCreateSpecialUse : Parse (List Bytes) := do
  expect 40
  specialUse (← rounds)

/-- The tuples of `parseAppend` after the mailbox. Only the first must have a
literal. -/
def appendTuples : Nat → Bool → Parse (List AppendTuple)
  | 0, _ => throw .starved
  | fuel + 1, first => do
      skipSP
      if (← eof) then pure []
      else do
        let flags ← ifNext 40 (do let flags ← parseFlagList; skipSP; pure flags) (pure [])
        let internal ← ifNext 34 (do let date ← readQuoted; skipSP; pure (some date)) (pure none)
        ifNext 0
          (do
            let data ← takeSpillLiteral
            let tuples ← appendTuples fuel false
            pure ({ flags := flags, internal := internal, data := data } :: tuples))
          (if first then throw .appendLiteral else pure [])

def parseAppend : Parse Arguments := do
  skipSP
  let mailbox ← readAstring
  let tuples ← appendTuples (← rounds) true
  pure (.append mailbox tuples)

/-- A value of `ID`, where the atom `NIL` is the empty text. -/
def idValue : Parse Bytes := do
  let byte ← peek
  if byte = 34 ∨ byte = 0 then readAstring
  else do
    let value ← readAtom
    pure (if equalFold value (ascii "NIL") then [] else value)

def idPair : Parse (Bytes × Bytes) := do
  let key ← readAstring
  skipSP
  let value ← idValue
  pure (key, value)

def parseID : Parse Arguments := do
  skipSP
  if (← eof) then pure (.id [])
  else do
    let byte ← peek
    if byte = 78 ∨ byte = 110 then do
      let _ ← readAtomOrEmpty
      pure (.id [])
    else do
      let parameters ← parenList idPair
      pure (.id parameters)

/-- The `(UNCHANGEDSINCE n)` block of `STORE`. -/
def storeModifiers : Nat → Nat → Parse Nat
  | 0, _ => throw .starved
  | fuel + 1, since => do
      skipSP
      ifNext 41 (do advance; pure since) do
        let name ← readAtom
        skipSP
        if equalFold name (ascii "UNCHANGEDSINCE") then do
          let number ← readNum
          match parseUint64 number with
          | some since => storeModifiers fuel since
          | none => throw .badUnchangedSince
        else storeModifiers fuel since

def storeAction (name : Bytes) : Parse (StoreAction × Bool) :=
  let upper := toUpper name
  let silent := (ascii ".SILENT").isSuffixOf upper
  let base := if silent then trimSuffix upper (ascii ".SILENT") else upper
  if base = ascii "FLAGS" then pure (.replace, silent)
  else if base = ascii "+FLAGS" then pure (.add, silent)
  else if base = ascii "-FLAGS" then pure (.delete, silent)
  else throw (.unknownStoreOp name)

def parseStore : Parse Arguments := do
  skipSP
  let set ← parseNumSet
  skipSP
  let since ← ifNext 40 (do advance; let since ← storeModifiers (← rounds) 0; skipSP; pure since)
    (pure 0)
  let name ← readAtom
  let action ← storeAction name
  skipSP
  let flags ← parseFlagList
  pure (.store { set := set, unchangedSince := since, action := action.1, silent := action.2
                 flags := flags })

def ReturnOptions.with (options : ReturnOptions) (name : Bytes) : ReturnOptions :=
  if name = ascii "MIN" then { options with min := true }
  else if name = ascii "MAX" then { options with max := true }
  else if name = ascii "ALL" then { options with all := true }
  else if name = ascii "COUNT" then { options with count := true }
  else if name = ascii "SAVE" then { options with save := true }
  else options

/-- A word before the arguments, which is put back unless it is the one expected. -/
def optionalWord (first word : Bytes) : Parse Bool := fun p =>
  let atom := p.src.takeWhile isAtomByte
  if first.contains (p.src.headD 0) ∧ equalFold atom word then
    .ok (true, { p with src := p.src.dropWhile isAtomByte })
  else .ok (false, p)

def searchReturn : Parse ReturnOptions := do
  if (← optionalWord (ascii "Rr") (ascii "RETURN")) then do
    skipSP
    let names ← parenList readAtom
    skipSP
    pure (names.foldl (fun options name => options.with (toUpper name)) {})
  else pure {}

def searchCharset : Parse (Option Bytes) := do
  if (← optionalWord (ascii "Cc") (ascii "CHARSET")) then do
    skipSP
    let charset ← readAstring
    skipSP
    pure (some charset)
  else pure none

def parseSearch : Parse Arguments := do
  skipSP
  let options ← searchReturn
  let charset ← searchCharset
  let keys ← parseSearchCriteriaList
  pure (.search options charset keys)

/-- The atoms of `ENABLE` to the end of the line. -/
def enableTokens : Nat → Parse (List Bytes)
  | 0 => throw .starved
  | fuel + 1 => do
      skipSP
      if (← eof) then pure []
      else do
        let token ← readAtom
        let tokens ← enableTokens fuel
        pure (toUpper token :: tokens)

def parseEnable : Parse Arguments := do
  let tokens ← enableTokens (← rounds)
  pure (.enable tokens)

/-- The initial response; `=` stands for an empty one. -/
def initialResponse : Parse (Option Bytes) :=
  ifNext 61 (do advance; pure (some [])) do
    let initial ← readAstring
    pure (some initial)

def parseAuthenticate : Parse Arguments := do
  skipSP
  let mechanism ← readAtom
  let initial ← ifNext 32 (do skipSP; initialResponse) (pure none)
  pure (.authenticate (toUpper mechanism) initial)

def parseSelect : Parse Arguments := do
  skipSP
  let mailbox ← readAstring
  skipSP
  let options ← ifNext 40 parseSelectOptionList (pure [])
  pure (.select mailbox options)

def parseCreate : Parse Arguments := do
  skipSP
  let name ← readAstring
  skipSP
  let uses ← ifNext 40 parseCreateSpecialUse (pure [])
  pure (.create name uses)

def listReturn : Parse (List Bytes) := do
  skipSP
  if (← optionalWord (ascii "Rr") (ascii "RETURN")) then do
    skipSP
    parseListReturnOpts
  else pure []

def parseList : Parse Arguments := do
  skipSP
  let selectOptions ← ifNext 40 (do let options ← parseAtomParenList; skipSP; pure options) (pure [])
  let reference ← readAstring
  skipSP
  let patterns ← ifNext 40 parseStringParenList (do let pattern ← readAstring; pure [pattern])
  let returnOptions ← listReturn
  pure (.list selectOptions reference patterns returnOptions)

def parseStatus : Parse Arguments := do
  skipSP
  let mailbox ← readAstring
  skipSP
  let items ← parenList readAtom
  pure (.status mailbox (items.map toUpper))

def spacedAstring : Parse Bytes := do
  skipSP
  readAstring

def astringIf (wanted : Bool) : Parse (Option Bytes) :=
  if wanted then do
    let text ← spacedAstring
    pure (some text)
  else pure none

def parseCopyMove : Parse Arguments := do
  skipSP
  let set ← parseNumSet
  let destination ← spacedAstring
  pure (.copyMove set destination)

def parseLogin : Parse Arguments := do
  let user ← spacedAstring
  let pass ← spacedAstring
  pure (.login user pass)

def parseRename : Parse Arguments := do
  let old ← spacedAstring
  let new ← spacedAstring
  pure (.rename old new)

/-- The mailbox of an ACL command, with the identifier and the rights where the verb
has them. -/
def parseACL (identifier rights : Bool) : Parse Arguments := do
  let mailbox ← spacedAstring
  let named ← astringIf identifier
  let granted ← astringIf rights
  pure (.acl mailbox named granted)

def parseExpunge (isUID : Bool) : Parse Arguments := do
  if isUID then do
    skipSP
    let set ← parseNumSet
    pure (.expunge (some set))
  else pure (.expunge none)

def parseCompress : Parse Arguments := do
  skipSP
  let mechanism ← readAtom
  pure (.compress (toUpper mechanism))

def parseMailbox : Parse Arguments := do
  let name ← spacedAstring
  pure (.mailbox name)

def parseNotify (raw : Bytes) : Parse Arguments := fun p => .ok (.notify raw, { p with src := [] })

def parseFetchArguments : Parse Arguments := do
  let fetch ← parseFetch
  pure (.fetch fetch.1 fetch.2)

def bareVerbs : List Bytes :=
  ["CAPABILITY", "NOOP", "LOGOUT", "STARTTLS", "CHECK", "CLOSE", "IDLE", "DONE", "UNSELECT",
    "NAMESPACE"].map ascii

/-- The switch of `parseCommand` over the verb. -/
def verbTable (raw : Bytes) (isUID : Bool) : List (Bytes × Parse Arguments) :=
  [(ascii "COMPRESS", parseCompress),
    (ascii "ENABLE", parseEnable),
    (ascii "NOTIFY", parseNotify raw),
    (ascii "MOVE", parseCopyMove),
    (ascii "COPY", parseCopyMove),
    (ascii "LOGIN", parseLogin),
    (ascii "AUTHENTICATE", parseAuthenticate),
    (ascii "SELECT", parseSelect),
    (ascii "EXAMINE", parseSelect),
    (ascii "DELETE", parseMailbox),
    (ascii "SUBSCRIBE", parseMailbox),
    (ascii "UNSUBSCRIBE", parseMailbox),
    (ascii "CREATE", parseCreate),
    (ascii "RENAME", parseRename),
    (ascii "LIST", parseList),
    (ascii "LSUB", parseList),
    (ascii "STATUS", parseStatus),
    (ascii "APPEND", parseAppend),
    (ascii "ID", parseID),
    (ascii "FETCH", parseFetchArguments),
    (ascii "STORE", parseStore),
    (ascii "SEARCH", parseSearch),
    (ascii "EXPUNGE", parseExpunge isUID),
    (ascii "SETACL", parseACL true true),
    (ascii "DELETEACL", parseACL true false),
    (ascii "GETACL", parseACL false false),
    (ascii "MYRIGHTS", parseACL false false),
    (ascii "LISTRIGHTS", parseACL true false)]

def parseArguments (raw verb : Bytes) (isUID : Bool) : Parse Arguments :=
  if bareVerbs.contains verb then pure .none
  else
    match (verbTable raw isUID).find? fun entry => entry.1 = verb with
    | some (_, parse) => parse
    | none => throw (.unknownCommand verb)

/-- The verb, and whether `UID` stands before it. -/
def readVerb : Parse (Bytes × Bool) := do
  let verb ← readAtom
  if toUpper verb = ascii "UID" then do
    skipSP
    let inner ← readAtom
    pure (toUpper inner, true)
  else pure (toUpper verb, false)

def parseCommand (raw : Bytes) : Parse ClientCommand := do
  let tag ← readAtom
  skipSP
  let verb ← readVerb
  let arguments ← parseArguments raw verb.1 verb.2
  pure { tag := tag, op := verb.1, isUID := verb.2, arguments := arguments }

end Herold.Imap

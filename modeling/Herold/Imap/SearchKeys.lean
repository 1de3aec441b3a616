import Herold.Imap.Tokens
import Herold.Imap.SearchSets

/-!
# The keys of SEARCH

`parseSearchTerm` reads one key, `parseSearchCriteriaList` the keys to the end of
the line. Each key gives criteria with the fields it sets; a list of keys, in
parentheses or at the end of the command, is merged with `And`.
-/

namespace Herold.Imap

open Herold.Go

inductive SearchKey where
  | flags (have_ lack : List Bytes)
  | text (key : TextKey)
  | larger (number : Int)
  | smaller (number : Int)
  | since (date : Int)
  | before (date : Int)
  | on (date : Int)
  | sentSince (date : Int)
  | sentBefore (date : Int)
  | uid (ranges : List SetRange)
  | seq (ranges : List SetRange)
  | modSeq (number : Nat)
  | not (key : SearchKey)
  | or (left right : SearchKey)
  | group (keys : List SearchKey)

def mergeCriteria (criteria : List SearchCriteria) : SearchCriteria :=
  criteria.foldl SearchCriteria.and (.mk {} [] [])

def ofFields (own : SearchFields) : SearchCriteria := .mk own [] []

mutual

/-- The criteria a branch of `parseSearchTerm` returns. -/
def SearchKey.criteria : SearchKey → SearchCriteria
  | .flags have_ lack => ofFields { flag := have_, notFlag := lack }
  | .text (.header key value) => ofFields { header := [(key, value)] }
  | .text (.body value) => ofFields { body := [value] }
  | .text (.text value) => ofFields { text := [value] }
  | .larger number => ofFields { larger := number }
  | .smaller number => ofFields { smaller := number }
  | .since date => ofFields { since := date }
  | .before date => ofFields { before := date }
  | .on date => ofFields { since := date, before := date + 86400 }
  | .sentSince date => ofFields { sentSince := date }
  | .sentBefore date => ofFields { sentBefore := date }
  | .uid ranges => ofFields { uid := [encodedSet ranges] }
  | .seq ranges => ofFields { seqNum := [encodedSet ranges] }
  | .modSeq number => ofFields { modSeq := some number }
  | .not key => .mk {} [key.criteria] []
  | .or left right => .mk {} [] [(left.criteria, right.criteria)]
  | .group keys => mergeCriteria (allCriteria keys)

def allCriteria : List SearchKey → List SearchCriteria
  | [] => []
  | key :: keys => key.criteria :: allCriteria keys

end

def searchCriteria (keys : List SearchKey) : SearchCriteria := mergeCriteria (allCriteria keys)

def monthAbbreviations : List Bytes :=
  ["jan", "feb", "mar", "apr", "may", "jun", "jul", "aug", "sep", "oct", "nov", "dec"].map ascii

def isLeapYear (year : Int) : Bool := year % 4 = 0 && (year % 100 ≠ 0 || year % 400 = 0)

def monthLengths (year : Int) : List Nat :=
  [31, if isLeapYear year then 29 else 28, 31, 30, 31, 30, 31, 31, 30, 31, 30, 31]

/-- The days from the start of the year one to the start of the year. -/
def daysBeforeYear (year : Int) : Int :=
  let past := year - 1
  365 * past + past / 4 - past / 100 + past / 400

def dayTime (year : Int) (month day : Nat) : Int :=
  (daysBeforeYear year + ((monthLengths year).take month).sum + day - 1) * 86400

/-- `time.Parse` with the layouts `2-Jan-2006` and `02-Jan-2006`: one or two digits,
a month by three letters, four digits. -/
def parseDay (text : Bytes) : Option Int :=
  match splitN 45 3 text with
  | [day, month, year] =>
    if (day.length = 1 ∨ day.length = 2) ∧ day.all isDigit ∧ year.length = 4 ∧ year.all isDigit ∧
        month.all (fun byte => byte < 128) then
      let number := (decimalValue year : Int)
      match monthAbbreviations.findIdx? (· = toLower month) with
      | some index =>
        if 1 ≤ decimalValue day ∧ decimalValue day ≤ (monthLengths number).getD index 0 then
          some (dayTime number index (decimalValue day))
        else none
      | none => none
    else none
  | _ => none

/-- The error of `readAtom` is dropped and leaves an empty text. -/
def readAtomOrEmpty : Parse Bytes := takeRun isAtomByte

def readSearchDate : Parse Int := do
  let raw ← ifNext 34 readQuoted readAtomOrEmpty
  match parseDay raw with
  | some date => pure date
  | none => throw (.badSearchDate raw)

inductive KeyShape where
  | done (key : SearchKey)
  | astring (make : Bytes → SearchKey)
  | header
  | size (make : Int → SearchKey)
  | date (make : Int → SearchKey)
  | uid
  | modSeq
  | not
  | or

def hasFlagKey (flag : String) : KeyShape := .done (.flags [ascii flag] [])

def lacksFlagKey (flag : String) : KeyShape := .done (.flags [] [ascii flag])

def headerKey (name : String) : KeyShape := .astring fun value => .text (.header (ascii name) value)

/-- The switch of `parseSearchTerm` over the upper-cased word. -/
def keyTable : List (Bytes × KeyShape) :=
  [(ascii "ALL", .done (.flags [] [])),
    (ascii "ANSWERED", hasFlagKey "\\Answered"),
    (ascii "DELETED", hasFlagKey "\\Deleted"),
    (ascii "FLAGGED", hasFlagKey "\\Flagged"),
    (ascii "DRAFT", hasFlagKey "\\Draft"),
    (ascii "SEEN", hasFlagKey "\\Seen"),
    (ascii "UNANSWERED", lacksFlagKey "\\Answered"),
    (ascii "UNDELETED", lacksFlagKey "\\Deleted"),
    (ascii "UNFLAGGED", lacksFlagKey "\\Flagged"),
    (ascii "UNDRAFT", lacksFlagKey "\\Draft"),
    (ascii "UNSEEN", lacksFlagKey "\\Seen"),
    (ascii "NEW", .done (.flags [ascii "\\Recent"] [ascii "\\Seen"])),
    (ascii "OLD", lacksFlagKey "\\Recent"),
    (ascii "RECENT", hasFlagKey "\\Recent"),
    (ascii "KEYWORD", .astring fun flag => .flags [flag] []),
    (ascii "UNKEYWORD", .astring fun flag => .flags [] [flag]),
    (ascii "BCC", headerKey "Bcc"),
    (ascii "CC", headerKey "Cc"),
    (ascii "FROM", headerKey "From"),
    (ascii "TO", headerKey "To"),
    (ascii "SUBJECT", headerKey "Subject"),
    (ascii "HEADER", .header),
    (ascii "BODY", .astring fun value => .text (.body value)),
    (ascii "TEXT", .astring fun value => .text (.text value)),
    (ascii "LARGER", .size .larger),
    (ascii "SMALLER", .size .smaller),
    (ascii "SINCE", .date .since),
    (ascii "BEFORE", .date .before),
    (ascii "ON", .date .on),
    (ascii "SENTSINCE", .date .sentSince),
    (ascii "SENTBEFORE", .date .sentBefore),
    (ascii "UID", .uid),
    (ascii "MODSEQ", .modSeq),
    (ascii "NOT", .not),
    (ascii "OR", .or)]

def keyShape (word : Bytes) : Option KeyShape :=
  (keyTable.find? fun entry => entry.1 = word).map Prod.snd

def readSize (make : Int → SearchKey) : Parse SearchKey := do
  skipSP
  let number ← readNum
  match parseInt64 number with
  | some size => pure (make size)
  | none => throw .badSize

/-- `parseNumSet` with the set as it is written; `parse_num_set_encodes` gives the
numbers kept for it. -/
def readUIDKey : Parse SearchKey := do
  skipSP
  let text ← takeRun isSetByte
  if text = [] then throw .expectedNumberSet
  else
    match readSet text with
    | some ranges => pure (.uid ranges)
    | none => throw .badNumber

/-- The entry name and type before the number of `MODSEQ`, which are ignored. -/
def readEntry : Parse Unit := do
  let _ ← readQuoted
  skipSP
  let _ ← readAtomOrEmpty
  skipSP

def readModSeq : Parse SearchKey := do
  skipSP
  ifNext 34 readEntry (pure ())
  let number ← readNum
  match parseUint64 number with
  | some modSeq => pure (.modSeq modSeq)
  | none => throw .badModSeq

def readSeqKey (token : Bytes) : Parse SearchKey :=
  match readSet token with
  | some ranges => pure (.seq ranges)
  | none => throw (.unknownSearchKey token)

mutual

/-- `parseSearchTerm`, with a bound on its depth. -/
def parseSearchTerm : Nat → Parse SearchKey
  | 0 => throw .starved
  | fuel + 1 => do
      ifNext 40 (do advance; let keys ← parseGroup fuel; pure (.group keys)) do
        let token ← readAtom
        match keyShape (toUpper token) with
        | some (.done key) => pure key
        | some (.astring make) => do
            skipSP
            let value ← readAstring
            pure (make value)
        | some .header => do
            skipSP
            let key ← readAstring
            skipSP
            let value ← readAstring
            pure (.text (.header key value))
        | some (.size make) => readSize make
        | some (.date make) => do
            skipSP
            let date ← readSearchDate
            pure (make date)
        | some .uid => readUIDKey
        | some .modSeq => readModSeq
        | some .not => do
            skipSP
            let key ← parseSearchTerm fuel
            pure (.not key)
        | some .or => do
            skipSP
            let left ← parseSearchTerm fuel
            skipSP
            let right ← parseSearchTerm fuel
            pure (.or left right)
        | none => readSeqKey token

def parseGroup : Nat → Parse (List SearchKey)
  | 0 => throw .starved
  | fuel + 1 => do
      skipSP
      ifNext 41 (do advance; pure []) do
        if (← eof) then throw .unterminatedGroup
        else do
          let key ← parseSearchTerm fuel
          let keys ← parseGroup fuel
          pure (key :: keys)

end

/-- The loop of `parseSearchCriteriaList`. -/
def searchTerms : Nat → Parse (List SearchKey)
  | 0 => throw .starved
  | fuel + 1 => do
      skipSP
      if (← eof) then pure []
      else do
        let key ← parseSearchTerm (← searchDepth)
        let keys ← searchTerms fuel
        pure (key :: keys)
where
  /-- More than the line can nest: a level takes a byte, and a group two rounds. -/
  searchDepth : Parse Nat := fun p => .ok (2 * p.src.length + 2, p)

def parseSearchCriteriaList : Parse (List SearchKey) := do searchTerms (← rounds)

end Herold.Imap

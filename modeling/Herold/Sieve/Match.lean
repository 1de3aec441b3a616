import Herold.Go.Decimal
import Herold.Mail.Message
import Herold.Sieve.Parse

/-!
# Comparators and match types

What a test compares and how: the matcher its tags select, the comparators, the
glob, relational operators, address parts and date parts. Mail-address parsing,
regular expressions and date parsing are library functions and stay parameters.
-/

namespace Herold.Sieve

open Herold.Go Herold.Mail

inductive MatchType where
  | is
  | contains
  | matches
  | regex
  deriving DecidableEq

inductive AddressPart where
  | all
  | localpart
  | domain
  | user
  | detail
  deriving DecidableEq

inductive BodyType where
  | raw
  | text
  | content
  deriving DecidableEq

structure Moment where
  year : Nat
  month : Nat
  day : Nat
  hour : Nat
  minute : Nat
  second : Nat
  weekday : Nat
  deriving DecidableEq

structure Library where
  /-- The addresses of `mail.ParseAddressList`, unless it fails. -/
  parseAddressList : Bytes → Option (List Bytes)
  /-- The address of `mail.ParseAddress`, unless it fails. -/
  parseAddress : Bytes → Option Bytes
  /-- `mail.ParseDate`, in UTC. -/
  parseDate : Bytes → Option Moment
  /-- `regexp.Compile` with the matcher it gives. -/
  compileRegex : Bytes → Option (Bytes → Bool)

def emptyLibrary : Library where
  parseAddressList _ := none
  parseAddress _ := none
  parseDate _ := none
  compileRegex _ := none

inductive EvalError where
  | instructionBudget
  | variableBudget
  | variableSize
  | totalVariableBytes
  | redirectBudget
  | notifyBudget
  | outcomeActions
  | elsifWithoutIf
  | elseWithoutIf
  | ifWithoutTest
  | notImplemented (name : Bytes)
  | requires (name extension : Bytes)
  | breakOutsideLoop
  | breakWithoutLoop (name : Bytes)
  | missingArgument (name : Bytes)
  | notMailto
  | noVacationStore
  | vacationStore
  | noDuplicateStore
  | duplicateStore
  | notTakesOneTest
  | invalidRegex (key : Bytes)
  | unsupportedMatch
  | badRelation (relation : Bytes)
  | unknownRelation (op : Bytes)
  deriving DecidableEq

structure Matcher where
  comparator : Bytes := ascii "i;ascii-casemap"
  matchType : MatchType := .is
  /-- The `:count` or `:value` tag with its operator, or the empty text. -/
  relation : Bytes := []
  addressPart : AddressPart := .all
  bodyType : BodyType := .text
  contentTypes : List Bytes := []
  mime : Bool := false
  anychild : Bool := false
  deriving DecidableEq

def matchTypeTag (tag : Bytes) : Option MatchType :=
  if tag = ascii ":is" then some .is
  else if tag = ascii ":contains" then some .contains
  else if tag = ascii ":matches" then some .matches
  else if tag = ascii ":regex" then some .regex
  else none

def addressPartTag (tag : Bytes) : Option AddressPart :=
  if tag = ascii ":all" then some .all
  else if tag = ascii ":localpart" then some .localpart
  else if tag = ascii ":domain" then some .domain
  else if tag = ascii ":user" then some .user
  else if tag = ascii ":detail" then some .detail
  else none

/-- Walk over arguments with a look at the one that follows. A step tells whether
it has used that one up. -/
def scanArguments {State : Type} (step : State → Argument → Option Argument → State × Bool) :
    Bool → State → List Argument → State
  | _, state, [] => state
  | true, state, _ :: rest => scanArguments step false state rest
  | false, state, arg :: rest =>
    scanArguments step (step state arg rest.head?).2 (step state arg rest.head?).1 rest

def followingString : Option Argument → Option Bytes
  | some (.string text) => some text
  | _ => none

/-- What a tag does to the matcher and whether it uses up the next argument,
unless it is no tag of a matcher. -/
def matcherTag (matcher : Matcher) (tag : Bytes) (next : Option Argument) : Option (Matcher × Bool) :=
  match matchTypeTag tag, addressPartTag tag with
  | some matchType, _ => some ({ matcher with matchType }, false)
  | none, some addressPart => some ({ matcher with addressPart }, false)
  | none, none =>
    if tag = ascii ":comparator" then
      match followingString next with
      | some comparator => some ({ matcher with comparator }, true)
      | none => some (matcher, false)
    else if tag = ascii ":count" ∨ tag = ascii ":value" then
      match followingString next with
      | some op => some ({ matcher with relation := tag ++ ascii " " ++ op }, true)
      | none => some (matcher, false)
    else if tag = ascii ":raw" then some ({ matcher with bodyType := .raw }, false)
    else if tag = ascii ":text" then some ({ matcher with bodyType := .text }, false)
    else if tag = ascii ":content" then
      let contentTypes (items : List Bytes) : Matcher :=
        { matcher with bodyType := .content, contentTypes := matcher.contentTypes ++ items }
      match next with
      | some (.stringList items) => some (contentTypes items, true)
      | some (.string item) => some (contentTypes [item], true)
      | _ => some (contentTypes [], false)
    else if tag = ascii ":index" then some (matcher, true)
    else if tag = ascii ":last" then some (matcher, false)
    else if tag = ascii ":mime" then some ({ matcher with mime := true }, false)
    else if tag = ascii ":anychild" then some ({ matcher with anychild := true }, false)
    else none

def matcherStep (found : Matcher × List Argument) (arg : Argument) (next : Option Argument) :
    (Matcher × List Argument) × Bool :=
  match arg with
  | .tag name =>
    match matcherTag found.1 (toLower name) next with
    | some (matcher, used) => ((matcher, found.2), used)
    | none => ((found.1, found.2 ++ [arg]), false)
  | _ => ((found.1, found.2 ++ [arg]), false)

/-- `parseMatcher`: the matcher, and the arguments that are no tags of it. -/
def parseMatcher (args : List Argument) : Matcher × List Argument :=
  scanArguments matcherStep false ({}, []) args

def asStrings : Argument → List Bytes
  | .string text => [text]
  | .stringList items => items
  | _ => []

def asString : Argument → Bytes
  | .string text => text
  | _ => []

/-- What the glob returns to when a later byte does not match: the pattern after
the last star, and the subject from where that star's match ends. -/
abbrev Retry := Option (Bytes × Bytes)

def globSteps : Nat → Bytes → Bytes → Retry → Option Bool
  | 0, _, _, _ => none
  | _ + 1, pattern, [], _ => some (pattern.all fun char => char = 42)
  | fuel + 1, pattern, char :: subject, retry =>
    match pattern, retry with
    | wanted :: later, retry =>
      if wanted = 63 ∨ wanted = char then globSteps fuel later subject retry
      else if wanted = 42 then globSteps fuel later (char :: subject) (some (later, char :: subject))
      else match retry with
        | some (after, _ :: tail) => globSteps fuel after tail (some (after, tail))
        | _ => some false
    | [], some (after, _ :: tail) => globSteps fuel after tail (some (after, tail))
    | [], _ => some false

def globFuel (pattern subject : Bytes) : Nat :=
  (subject.length + 1) * (pattern.length + subject.length + 1) + 1

def globMatch (pattern subject : Bytes) : Bool :=
  (globSteps (globFuel pattern subject) pattern subject none).getD false

/-- `strings.Contains`. -/
def containsText (text needle : Bytes) : Bool := (cutFirst needle text).isSome

/-- The loop of `parseLeadingNumber` over the text, as its accumulator computes. -/
def leadingLoop : Int64 → Bool → Bytes → Int64 × Bool
  | number, found, [] => (number, found)
  | number, found, byte :: rest =>
    if isDigit byte then
      leadingLoop (number * 10 + Int64.ofNat (byte.toNat - 48)) true rest
    else (number, found)

/-- A text that begins with no digit is beyond every number. -/
def parseLeadingNumber (text : Bytes) : Option Int64 :=
  let (number, hasDigit) := leadingLoop 0 false text
  if hasDigit then some number else none

def compareAsciiNumeric (value key : Bytes) : MatchType → Except EvalError Bool
  | .is => .ok (parseLeadingNumber value = parseLeadingNumber key)
  | _ => .error .unsupportedMatch

def compareBy (library : Library) (matchType : MatchType) (value key original : Bytes) :
    Except EvalError Bool :=
  match matchType with
  | .is => .ok (value = key)
  | .contains => .ok (containsText value key)
  | .matches => .ok (globMatch key value)
  | .regex =>
    match library.compileRegex (ascii "(?s)" ++ key) with
    | some matches? => .ok (matches? value)
    | none => .error (.invalidRegex original)

def compare (library : Library) (matcher : Matcher) (value key : Bytes) : Except EvalError Bool :=
  let comparator := toLower matcher.comparator
  if comparator = ascii "i;ascii-casemap" ∨ comparator = [] then
    compareBy library matcher.matchType (toLower value) (toLower key) key
  else if comparator = ascii "i;ascii-numeric" then compareAsciiNumeric value key matcher.matchType
  else compareBy library matcher.matchType value key key

def relates {Value : Type} [DecidableEq Value] [LT Value]
    [DecidableRel fun left right : Value => left < right]
    (op : Bytes) (left right : Value) : Option Bool :=
  if op = ascii "eq" then some (left = right)
  else if op = ascii "ne" then some (left ≠ right)
  else if op = ascii "gt" then some (right < left)
  else if op = ascii "ge" then some (!decide (left < right))
  else if op = ascii "lt" then some (left < right)
  else if op = ascii "le" then some (!decide (right < left))
  else none

/-- `compareRelational` with the operator already taken from the relation. -/
def compareRelational (value op key : Bytes) : Except EvalError Bool :=
  let result :=
    match parseInt64 (trimSpace value), parseInt64 (trimSpace key) with
    | some left, some right => relates op left right
    | _, _ => relates op value key
  match result with
  | some holds => .ok holds
  | none => .error (.unknownRelation op)

def relationOp (relation : Bytes) : Except EvalError Bytes :=
  match fields relation with
  | [_, op] => .ok op
  | _ => .error (.badRelation relation)

def anyOf : List (Except EvalError Bool) → Except EvalError Bool
  | [] => .ok false
  | test :: tests => do
      let holds ← test
      if holds then .ok true else anyOf tests

def addressPart (part : AddressPart) (address : Bytes) : List Bytes :=
  let halves := cutFirstByte 64 address
  let localPart := match halves with
    | some (before, _) => before
    | none => address
  match part with
  | .all => [address]
  | .localpart => [localPart]
  | .domain => (halves.map Prod.snd).toList
  | .user => [(cut 43 localPart).1]
  | .detail => [(cut 43 localPart).2]

def extractAddressParts (library : Library) (raw : Bytes) (part : AddressPart) : List Bytes :=
  let addresses :=
    match library.parseAddressList raw with
    | some addresses => addresses
    | none =>
      match library.parseAddress raw with
      | some address => [address]
      | none => if raw = [] then [] else [raw]
  addresses.flatMap (addressPart part)

def contentTypePrefixMatch (contentType start : Bytes) : Bool :=
  let start := toLower start
  if start = [] then true
  else if start.contains 47 then hasPrefix (toLower contentType) start
  else hasPrefix (toLower contentType) (start ++ ascii "/")

mutual

def collectText : Part → List Bytes
  | ⟨contentType, headers, disposition, text, children⟩ =>
    let part : Part := ⟨contentType, headers, disposition, text, children⟩
    (if part.isText && text ≠ [] then [text] else []) ++ collectTexts children

def collectTexts : List Part → List Bytes
  | [] => []
  | part :: parts => collectText part ++ collectTexts parts

end

mutual

def collectContent (filters : List Bytes) : Part → List Bytes
  | ⟨contentType, _, _, text, children⟩ =>
    (if filters.any (contentTypePrefixMatch contentType) && text ≠ [] then [text] else []) ++
      collectContents filters children

def collectContents (filters : List Bytes) : List Part → List Bytes
  | [] => []
  | part :: parts => collectContent filters part ++ collectContents filters parts

end

def collectBody (body : Part) (mode : BodyType) (filters : List Bytes) : Bytes :=
  match mode with
  | .raw => body.text
  | .content => List.intercalate [10] (collectContent filters body)
  | .text => List.intercalate [10] (collectText body)

mutual

def collectAllHeaders : Part → List Headers
  | ⟨_, headers, _, _, children⟩ => headers :: collectAllHeadersOf children

def collectAllHeadersOf : List Part → List Headers
  | [] => []
  | part :: parts => collectAllHeaders part ++ collectAllHeadersOf parts

end

mutual

/-- Everything below a part in pre-order, each with the child indices that lead
to it. -/
def collectDescendantPathParts : List Nat → Part → List (Part × List Nat)
  | base, ⟨_, _, _, _, children⟩ => descendantsFrom base 0 children

def descendantsFrom (base : List Nat) : Nat → List Part → List (Part × List Nat)
  | _, [] => []
  | index, part :: parts =>
    (part, base ++ [index]) ::
      (collectDescendantPathParts (base ++ [index]) part ++ descendantsFrom base (index + 1) parts)

end

/-- The `%0nd` rendering of a number that is not negative. -/
def padded (width value : Nat) : Bytes :=
  List.replicate (width - (decimal value).length) 48 ++ decimal value

def decimalInt (value : Int) : Bytes :=
  if value < 0 then 45 :: decimal value.natAbs else decimal value.natAbs

/-- The Modified Julian Day as the code computes it. The products of the code are
floating point; they are exact here, and their integer parts the same. -/
def julian (moment : Moment) : Int :=
  let (year, month) : Int × Int :=
    if moment.month ≤ 2 then ((moment.year : Int) - 1, moment.month + 12)
    else (moment.year, moment.month)
  let century := Int.tdiv year 100
  let leap := 2 - century + Int.tdiv century 4
  1461 * (year + 4716) / 4 + 306001 * (month + 1) / 10000 + moment.day + leap - 1524 - 2400000

def weekdayNames : List Bytes := ["Sun", "Mon", "Tue", "Wed", "Thu", "Fri", "Sat"].map ascii

def monthNames : List Bytes :=
  ["Jan", "Feb", "Mar", "Apr", "May", "Jun", "Jul", "Aug", "Sep", "Oct", "Nov", "Dec"].map ascii

def dateText (moment : Moment) : Bytes :=
  padded 4 moment.year ++ ascii "-" ++ padded 2 moment.month ++ ascii "-" ++ padded 2 moment.day

def timeText (moment : Moment) : Bytes :=
  padded 2 moment.hour ++ ascii ":" ++ padded 2 moment.minute ++ ascii ":" ++ padded 2 moment.second

/-- `datePart` for a time in UTC. -/
def datePart (moment : Moment) (part : Bytes) : Bytes :=
  let part := toLower part
  if part = ascii "year" then padded 4 moment.year
  else if part = ascii "month" then padded 2 moment.month
  else if part = ascii "day" then padded 2 moment.day
  else if part = ascii "date" then dateText moment
  else if part = ascii "julian" then decimalInt (julian moment)
  else if part = ascii "hour" then padded 2 moment.hour
  else if part = ascii "minute" then padded 2 moment.minute
  else if part = ascii "second" then padded 2 moment.second
  else if part = ascii "time" then timeText moment
  else if part = ascii "iso8601" then dateText moment ++ ascii "T" ++ timeText moment ++ ascii "Z"
  else if part = ascii "std11" then
    (weekdayNames[moment.weekday]?).getD [] ++ ascii ", " ++ padded 2 moment.day ++ ascii " " ++
      (monthNames[moment.month - 1]?).getD [] ++ ascii " " ++ padded 4 moment.year ++ ascii " " ++
      timeText moment ++ ascii " +0000"
  else if part = ascii "zone" then ascii "+0000"
  else if part = ascii "weekday" then decimal moment.weekday
  else []

end Herold.Sieve

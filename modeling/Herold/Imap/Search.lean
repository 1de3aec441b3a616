import Herold.Imap.NumSet
import Herold.Store.Mailbox

/-!
# SEARCH

`SearchCriteria` is the record of the bundled library: one field for each kind of
key, with zero or an empty list where no key of the kind was given. `evalSearch`
tests a message against it, and `handleSEARCH` runs over the session's list, after
it has asked the full-text index for candidates. A time is the number of seconds
since the first of January of the year one; zero is Go's zero time.
-/

namespace Herold.Imap

open Herold.Go Herold.Store

structure Envelope where
  subject : Bytes := []
  fromText : Bytes := []
  toText : Bytes := []
  ccText : Bytes := []
  bccText : Bytes := []
  replyTo : Bytes := []
  messageID : Bytes := []
  inReplyTo : Bytes := []
  date : Int := 0
  deriving DecidableEq

structure SearchMessage where
  id : MessageID
  uid : Nat
  flags : MessageFlags := 0
  keywords : List Bytes := []
  internalDate : Int := 0
  size : Nat := 0
  modSeq : Nat := 0
  envelope : Envelope := {}
  deriving DecidableEq

/-- The fields of `SearchCriteria` apart from `Not` and `Or`. -/
structure SearchFields where
  seqNum : List NumSet := []
  uid : List NumSet := []
  since : Int := 0
  before : Int := 0
  sentSince : Int := 0
  sentBefore : Int := 0
  header : List (Bytes × Bytes) := []
  body : List Bytes := []
  text : List Bytes := []
  flag : List Bytes := []
  notFlag : List Bytes := []
  larger : Int := 0
  smaller : Int := 0
  modSeq : Option Nat := none
  deriving DecidableEq

inductive SearchCriteria where
  | mk (own : SearchFields) (not : List SearchCriteria) (or : List (SearchCriteria × SearchCriteria))

namespace SearchCriteria

def own : SearchCriteria → SearchFields
  | mk own _ _ => own

def not : SearchCriteria → List SearchCriteria
  | mk _ not _ => not

def or : SearchCriteria → List (SearchCriteria × SearchCriteria)
  | mk _ _ or => or

end SearchCriteria

def intersectSince (left right : Int) : Int :=
  if left = 0 then right else if right = 0 then left else if right < left then left else right

def intersectBefore (left right : Int) : Int :=
  if left = 0 then right else if right = 0 then left else if left < right then left else right

/-- `And` on the fields. `ModSeq` is not mentioned there. -/
def SearchFields.and (criteria other : SearchFields) : SearchFields where
  seqNum := criteria.seqNum ++ other.seqNum
  uid := criteria.uid ++ other.uid
  since := intersectSince criteria.since other.since
  before := intersectBefore criteria.before other.before
  sentSince := intersectSince criteria.sentSince other.sentSince
  sentBefore := intersectBefore criteria.sentBefore other.sentBefore
  header := criteria.header ++ other.header
  body := criteria.body ++ other.body
  text := criteria.text ++ other.text
  flag := criteria.flag ++ other.flag
  notFlag := criteria.notFlag ++ other.notFlag
  larger := if criteria.larger = 0 ∨ criteria.larger < other.larger then other.larger
    else criteria.larger
  smaller :=
    if criteria.smaller = 0 ∨ other.smaller < criteria.smaller then other.smaller else criteria.smaller
  modSeq := criteria.modSeq

def SearchCriteria.and (criteria other : SearchCriteria) : SearchCriteria :=
  .mk (criteria.own.and other.own) (criteria.not ++ other.not) (criteria.or ++ other.or)

/-- `Range.Less`: the range ends before the number. -/
def NumRange.less (range : NumRange) (number : Nat) : Bool :=
  (range.stop < number || number = 0) && range.stop ≠ 0

/-- `Range.Contains`; an end of zero is the library's `*`. -/
def NumRange.contains (range : NumRange) (number : Nat) : Bool :=
  if number = 0 then range.stop = 0
  else range.start ≠ 0 && range.start ≤ number && (number ≤ range.stop || range.stop = 0)

/-- The binary search of `Set.search` between two indices, as long as they differ. -/
def searchBetween (set : NumSet) (number : Nat) : Nat → Nat → Nat → Nat
  | 0, low, _ => low
  | fuel + 1, low, high =>
    if low < high then
      let middle := (low + high) / 2
      if ((set[middle]?).map fun range => range.less number).getD false then
        searchBetween set number fuel (middle + 1) high
      else searchBetween set number fuel low middle
    else low

/-- `Set.Contains`. -/
def setContains (set : NumSet) (number : Nat) : Bool :=
  match set[searchBetween set number set.length 0 (set.length - 1)]? with
  | some range => !range.less number && range.contains number && number ≠ 0
  | none => false

def hasFlag (message : SearchMessage) (flag : Bytes) : Bool :=
  if flag = ascii "\\Seen" then message.flags &&& MessageFlags.seen ≠ 0
  else if flag = ascii "\\Answered" then message.flags &&& MessageFlags.answered ≠ 0
  else if flag = ascii "\\Flagged" then message.flags &&& MessageFlags.flagged ≠ 0
  else if flag = ascii "\\Deleted" then message.flags &&& MessageFlags.deleted ≠ 0
  else if flag = ascii "\\Draft" then message.flags &&& MessageFlags.draft ≠ 0
  else message.keywords.any fun keyword => toLower keyword = toLower flag

def envelopeField (envelope : Envelope) (key : Bytes) : Bytes :=
  let key := toLower key
  if key = ascii "subject" then envelope.subject
  else if key = ascii "from" then envelope.fromText
  else if key = ascii "to" then envelope.toText
  else if key = ascii "cc" then envelope.ccText
  else if key = ascii "bcc" then envelope.bccText
  else if key = ascii "reply-to" then envelope.replyTo
  else if key = ascii "message-id" then envelope.messageID
  else if key = ascii "in-reply-to" then envelope.inReplyTo
  else []

/-- `strings.Contains` on the lower-cased texts. -/
def containsLower (text needle : Bytes) : Bool := (cutFirst (toLower needle) (toLower text)).isSome

def searchSubstring (message : SearchMessage) (needle : Bytes) : Bool :=
  containsLower message.envelope.subject needle || containsLower message.envelope.fromText needle ||
    containsLower message.envelope.toText needle

inductive TextKey where
  | header (key value : Bytes)
  | body (value : Bytes)
  | text (value : Bytes)
  deriving DecidableEq

/-- How `evalSearch` itself decides a text key. -/
def heldInMemory (message : SearchMessage) : TextKey → Bool
  | .header key value =>
    let found := envelopeField message.envelope key
    if value = [] then found ≠ [] else containsLower found value
  | .body value | .text value => searchSubstring message value

def SearchFields.textKeys (fields : SearchFields) : List TextKey :=
  fields.header.map (fun pair => .header pair.1 pair.2) ++ fields.body.map .body ++
    fields.text.map .text

/-- The part of `evalSearch` before `Not` and `Or`, with the answers to text keys
given. -/
def SearchFields.holds (held : SearchMessage → TextKey → Bool) (fields : SearchFields)
    (message : SearchMessage) (seq : Nat) : Bool :=
  (fields.seqNum.isEmpty || fields.seqNum.any fun set => setContains set seq) &&
  (fields.uid.isEmpty || fields.uid.any fun set => setContains set message.uid) &&
  !(fields.since ≠ 0 && message.internalDate < fields.since) &&
  !(fields.before ≠ 0 && !(message.internalDate < fields.before)) &&
  !(fields.sentSince ≠ 0 && message.envelope.date < fields.sentSince) &&
  !(fields.sentBefore ≠ 0 && !(message.envelope.date < fields.sentBefore)) &&
  fields.flag.all (hasFlag message) &&
  fields.notFlag.all (fun flag => !hasFlag message flag) &&
  !(0 < fields.larger && (message.size : Int) ≤ fields.larger) &&
  !(0 < fields.smaller && fields.smaller ≤ (message.size : Int)) &&
  fields.modSeq.all (fun number => number ≤ message.modSeq) &&
  fields.textKeys.all (held message)

mutual

/-- `evalSearch` with the answers to text keys given. -/
def evalBy (held : SearchMessage → TextKey → Bool) (message : SearchMessage) (seq : Nat) :
    SearchCriteria → Bool
  | .mk own not or => own.holds held message seq && noneHolds held message seq not &&
      eachHolds held message seq or

def noneHolds (held : SearchMessage → TextKey → Bool) (message : SearchMessage) (seq : Nat) :
    List SearchCriteria → Bool
  | [] => true
  | criteria :: others => !evalBy held message seq criteria && noneHolds held message seq others

def eachHolds (held : SearchMessage → TextKey → Bool) (message : SearchMessage) (seq : Nat) :
    List (SearchCriteria × SearchCriteria) → Bool
  | [] => true
  | (left, right) :: others =>
    (evalBy held message seq left || evalBy held message seq right) &&
      eachHolds held message seq others

end

def evalSearch (criteria : SearchCriteria) (message : SearchMessage) (seq : Nat) : Bool :=
  evalBy heldInMemory message seq criteria

/-- The fields of `store.Query` a term stands in. -/
inductive QueryField where
  | body
  | subject
  | fromField
  | toField
  deriving DecidableEq

abbrev Term := QueryField × Bytes

def isTextHeader (key : Bytes) : Bool :=
  let key := toLower key
  key = ascii "subject" || key = ascii "from" || key = ascii "to" || key = ascii "cc" ||
    key = ascii "bcc"

/-- The term `collectText` adds for a key, if any. -/
def TextKey.term : TextKey → Option Term
  | .body value | .text value => some (.body, value)
  | .header key value =>
    let key := toLower key
    if key = ascii "subject" then some (.subject, value)
    else if key = ascii "from" then some (.fromField, value)
    else if key = ascii "to" ∨ key = ascii "cc" ∨ key = ascii "bcc" then some (.toField, value)
    else none

def SearchFields.hasText (fields : SearchFields) : Bool :=
  !fields.body.isEmpty || !fields.text.isEmpty || fields.header.any fun pair => isTextHeader pair.1

mutual

def hasTextPredicate : SearchCriteria → Bool
  | .mk own not or => own.hasText || anyHasText not || anyPairHasText or

def anyHasText : List SearchCriteria → Bool
  | [] => false
  | criteria :: others => hasTextPredicate criteria || anyHasText others

def anyPairHasText : List (SearchCriteria × SearchCriteria) → Bool
  | [] => false
  | (left, right) :: others => hasTextPredicate left || hasTextPredicate right || anyPairHasText others

end

mutual

/-- The terms `collectText` gathers, from every branch. -/
def collectText : SearchCriteria → List Term
  | .mk own not or => own.textKeys.filterMap TextKey.term ++ collectAll not ++ collectPairs or

def collectAll : List SearchCriteria → List Term
  | [] => []
  | criteria :: others => collectText criteria ++ collectAll others

def collectPairs : List (SearchCriteria × SearchCriteria) → List Term
  | [] => []
  | (left, right) :: others => collectText left ++ collectText right ++ collectPairs others

end

abbrev Index := Term → MessageID → Bool

/-- `FTS().Query`: the messages of the mailbox that satisfy every term, unless it
fails. -/
def query (index : Index) (fails : Bool) (mailbox : List SearchMessage) (terms : List Term) :
    Option (List MessageID) :=
  if fails then none
  else some ((mailbox.filter fun message => terms.all fun term => index term message.id).map (·.id))

/-- The messages the loop looks at: all of them, or the hits if there are any. -/
def candidates (index : Index) (fails : Bool) (mailbox : List SearchMessage)
    (criteria : SearchCriteria) : Option (List MessageID) :=
  if hasTextPredicate criteria then
    match query index fails mailbox (collectText criteria) with
    | some (hit :: hits) => some (hit :: hits)
    | _ => none
  else none

def handleSEARCH (index : Index) (fails : Bool) (mailbox : List SearchMessage)
    (criteria : SearchCriteria) : List Nat :=
  let hits := candidates index fails mailbox criteria
  ((mailbox.zipIdx 1).filter fun (message, seq) =>
    hits.all (fun hits => hits.contains message.id) && evalSearch criteria message seq).map Prod.snd

end Herold.Imap

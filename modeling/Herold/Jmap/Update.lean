import Mathlib.Data.List.Dedup
import Herold.Go.Decimal
import Herold.Store.Footprint

/-!
# Email/set update

An update takes a patch object and works through its groups of keys one after the
other: the body, the mailboxes, the reactions, then the reminder and the keywords.
Each group is checked and carried out before the next is looked at, and every store
call is a transaction of its own, so an update that is refused leaves what the
groups before have done.

Building the new body from the patch and reading a date are parameters. The JMAP
state counters and the mail that tells other servers of a reaction are left out.
-/

namespace Herold.Jmap

open Herold.Go Herold.Store

inductive Json where
  | null
  | bool (value : Bool)
  | string (text : Bytes)
  | object (fields : List (Bytes × Json))
  | other

abbrev Patch := List (Bytes × Json)

structure ACLRow where
  mailboxID : MailboxID
  principalID : Option PrincipalID
  rights : ACLRights
  deriving DecidableEq

structure Reaction where
  messageID : MessageID
  emoji : Bytes
  principalID : PrincipalID
  deriving DecidableEq

structure Account where
  tables : Tables
  acl : List ACLRow := []
  reactions : List Reaction := []
  inboxes : List MailboxID := []

inductive SetErrorType where
  | notFound
  | forbidden
  | invalidProperties
  | overQuota
  deriving DecidableEq

structure SetError where
  type : SetErrorType
  properties : List Bytes := []
  description : Option String := none
  deriving DecidableEq

def SetError.invalid (property : String) (description : Option String) : SetError :=
  { type := .invalidProperties, properties := [ascii property], description }

inductive Outcome where
  | updated
  | refused (error : SetError)
  | failed
  deriving DecidableEq

structure Run where
  outcome : Outcome
  account : Account

namespace Run

def andThen (run : Run) (next : Account → Run) : Run :=
  match run.outcome with
  | .updated => next run.account
  | _ => run

/-- A transaction whose missing row is reported as `notFound`. -/
def attempt (account : Account) : Except MailError Tables → Run
  | .ok tables => ⟨.updated, { account with tables }⟩
  | .error .notFound => ⟨.refused { type := .notFound }, account⟩
  | .error _ => ⟨.failed, account⟩

end Run

inductive Assembly where
  | refused (error : SetError)
  | failed
  | built (blob : BlobName) (size : Nat)

/-- What an update takes from outside: how a body is built, how a date is read, the
clock, and the order in which a set of mailboxes is read through. -/
structure Surroundings where
  assemble : MessageRow → Patch → Assembly
  parseTime : Bytes → Option Micros
  now : Micros
  listing : List MailboxID → List MailboxID
  listed : ∀ ids, (listing ids).Perm ids

def plainSurroundings : Surroundings where
  assemble _ _ := .failed
  parseTime _ := none
  now := 0
  listing ids := ids
  listed _ := List.Perm.refl _

structure Loaded where
  row : MessageRow
  mailboxes : List Membership

def Account.getMessage (account : Account) (id : MessageID) : Option Loaded :=
  (account.tables.message? id).map fun row =>
    ⟨row, (account.tables.rowsOf id).insertionSort fun left right => left.mailboxID ≤ right.mailboxID⟩

namespace Loaded

def mailboxID (loaded : Loaded) : MailboxID := (loaded.mailboxes.head?.map Membership.mailboxID).getD 0

def flags (loaded : Loaded) : MessageFlags := (loaded.mailboxes.head?.map Membership.flags).getD 0

/-- `snoozeHolderMembership`. -/
def snoozeHolder (loaded : Loaded) : Option Membership :=
  loaded.mailboxes.find? fun row => row.snoozedUntil.isSome

/-- With `applySnoozeHolder`. -/
def snoozedUntil (loaded : Loaded) : Option Micros :=
  (loaded.mailboxes.head?.bind Membership.snoozedUntil) <|>
    loaded.snoozeHolder.bind Membership.snoozedUntil

def keywords (loaded : Loaded) : List Bytes :=
  let own := (loaded.mailboxes.head?.map fun row => splitKeywords row.keywordsCSV).getD []
  if (loaded.mailboxes.head?.bind Membership.snoozedUntil).isNone && loaded.snoozeHolder.isSome &&
      !own.contains snoozedKeyword then own ++ [snoozedKeyword]
  else own

def current (loaded : Loaded) : List MailboxID :=
  if loaded.mailboxes.isEmpty then [loaded.mailboxID] else loaded.mailboxes.map Membership.mailboxID

end Loaded

/-- `HasOwnerAccess`: the principal itself, or the parent of a sub-account. -/
def hasOwnerAccess (tables : Tables) (caller owner : PrincipalID) : Bool :=
  caller = owner || (tables.principal? owner).any fun principal => principal.parent = some caller

def ACLRow.concerns (row : ACLRow) (caller : PrincipalID) (mailbox : MailboxID) : Bool :=
  row.mailboxID = mailbox && (row.principalID.isNone || row.principalID = some caller)

def Account.aclRightsForCaller (account : Account) (caller : PrincipalID) (box : Mailbox) : ACLRights :=
  if hasOwnerAccess account.tables caller box.principalID then ACLRights.all
  else (account.acl.filter fun row => row.concerns caller box.id).foldl
    (fun rights row => rights ||| row.rights) 0

def Account.sees (account : Account) (caller : PrincipalID) (row : Membership) : Bool :=
  match account.tables.mailbox? row.mailboxID with
  | none => false
  | some box =>
    hasOwnerAccess account.tables caller box.principalID ||
      account.acl.any fun row =>
        row.concerns caller box.id && decide (row.rights &&& ACLRights.lookup ≠ 0)

/-- `loadMessageForPrincipal`. -/
def Account.loadMessage (account : Account) (caller : PrincipalID) (id : MessageID) : Option Loaded :=
  (account.getMessage id).filter fun loaded => loaded.mailboxes.any (account.sees caller)

def mutateMask : ACLRights :=
  ACLRights.write ||| ACLRights.seen ||| ACLRights.deleteMessage ||| ACLRights.expunge |||
    ACLRights.insert

def Account.mutationRefused (account : Account) (caller owner : PrincipalID) (loaded : Loaded) :
    Option SetError :=
  if caller = owner then none
  else
    match account.tables.mailbox? loaded.mailboxID with
    | none => some { type := .notFound }
    | some box =>
      if account.aclRightsForCaller caller box &&& mutateMask = 0 then
        some { type := .forbidden,
               description := some "caller lacks write rights on the message's mailbox" }
      else none

/-- `json.Unmarshal` into a bool, which a null leaves false. -/
def Json.toBool : Json → Option Bool
  | .null => some false
  | .bool value => some value
  | _ => none

/-- `json.Unmarshal` into a map of bools. -/
def Json.toBools : Json → Option (List (Bytes × Bool))
  | .null => some []
  | .object fields => fields.mapM fun field => field.2.toBool.map fun value => (field.1, value)
  | _ => none

/-- `strconv.ParseUint` for 64 bits. -/
def parseUint64 (text : Bytes) : Option Nat :=
  if text = [] ∨ ¬text.all isDigit then none
  else if decimalValue text < 18446744073709551616 then some (decimalValue text)
  else none

def mailboxIDFromJMAP (text : Bytes) : Option MailboxID := (parseUint64 text).filter (· ≠ 0)

/-- `parseUintPrincipalID`, which wraps around. -/
def parseUintPrincipalID (text : Bytes) : Option PrincipalID :=
  if text = [] ∨ ¬text.all isDigit then none
  else some (decimalValue text % 18446744073709551616) |>.filter (· ≠ 0)

def Patch.under (patch : Patch) (start : Bytes) : List (Bytes × Json) :=
  (patch.filter fun entry => hasPrefix entry.1 start).map fun entry =>
    (trimPrefix entry.1 start, entry.2)

def bodyRebuildKeys : List Bytes :=
  ["bodyValues", "textBody", "htmlBody", "bodyStructure", "subject", "from", "to", "cc",
    "bcc", "replyTo",
    "inReplyTo", "references", "messageId", "sentAt"].map ascii

def needsBodyRebuild (patch : Patch) : Bool := bodyRebuildKeys.any fun key => (patch.lookup key).isSome

section Update

variable (around : Surroundings)

def rebuildEmailBody (account : Account) (row : MessageRow) (patch : Patch) : Run :=
  match around.assemble row patch with
  | .refused error => ⟨.refused error, account⟩
  | .failed => ⟨.failed, account⟩
  | .built blob size =>
    match account.tables.replaceMessageBody row.id blob size with
    | .error .quotaExceeded =>
      ⟨.refused { type := .overQuota, description := some "principal is over quota" }, account⟩
    | result => Run.attempt account result

def rebuild (account : Account) (row : MessageRow) (patch : Patch) : Run :=
  if needsBodyRebuild patch then rebuildEmailBody around account row patch else ⟨.updated, account⟩

def replacement (value : Json) : Except SetError (List MailboxID) :=
  match value.toBools with
  | none => .error (.invalid "mailboxIds" none)
  | some fields =>
    match ((fields.filter Prod.snd).map Prod.fst).mapM mailboxIDFromJMAP with
    | none => .error (.invalid "mailboxIds" (some "unparseable mailboxId"))
    | some ids =>
      if ids.isEmpty then
        .error (.invalid "mailboxIds" (some "mailboxIds must contain at least one true entry"))
      else .ok ids.dedup

def incremental : List (Bytes × Json) → List MailboxID → Except SetError (List MailboxID)
  | [], desired => .ok desired
  | (key, value) :: entries, desired =>
    match mailboxIDFromJMAP key with
    | none =>
      .error { type := .invalidProperties, properties := [ascii "mailboxIds/" ++ key]
               description := some "unparseable mailboxId in patch key" }
    | some id =>
      if value.toBool = some true then incremental entries (desired.insert id)
      else incremental entries (desired.filter (· ≠ id))

def desiredMailboxes (loaded : Loaded) (patch : Patch) : Except SetError (List MailboxID) :=
  match patch.lookup (ascii "mailboxIds") with
  | some value => replacement value
  | none =>
    match incremental (patch.under (ascii "mailboxIds/")) loaded.current with
    | .error error => .error error
    | .ok desired =>
      if desired.isEmpty then .error
        (.invalid "mailboxIds" (some "cannot remove all mailbox memberships"))
      else .ok desired

def added (loaded : Loaded) (desired : List MailboxID) : List MailboxID :=
  around.listing (desired.filter fun id => !loaded.current.contains id)

def removed (loaded : Loaded) (desired : List MailboxID) : List MailboxID :=
  around.listing (loaded.current.filter fun id => !desired.contains id)

def targetRefused (account : Account) (caller owner : PrincipalID) (id : MailboxID) : Option SetError :=
  match account.tables.mailbox? id with
  | none => some (.invalid "mailboxIds" (some "target mailbox does not exist"))
  | some box =>
    if box.principalID ≠ owner then
      some { type := .forbidden,
             description := some "target mailbox is not owned by the requested account" }
    else if caller ≠ owner ∧ account.aclRightsForCaller caller box &&& ACLRights.insert = 0 then
      some { type := .forbidden, description := some "caller lacks insert right on target mailbox" }
    else none

def addMemberships (message : MessageID) (flags : MessageFlags) (keywords : List Bytes) :
    List MailboxID → Account → Run
  | [], account => ⟨.updated, account⟩
  | mailbox :: mailboxes, account =>
    match account.tables.addMessageToMailbox message mailbox with
    | .error .conflict => addMemberships message flags keywords mailboxes account
    | .error _ => ⟨.failed, account⟩
    | .ok tables =>
      if flags = 0 ∧ keywords = [] then addMemberships message flags keywords mailboxes
        { account with tables }
      else
        match tables.updateMessageFlags message mailbox flags 0 keywords [] 0 with
        | .error _ => ⟨.failed, { account with tables }⟩
        | .ok seeded => addMemberships message flags keywords mailboxes
          { account with tables := seeded }

def removeMemberships (message : MessageID) : List MailboxID → Account → Run
  | [], account => ⟨.updated, account⟩
  | mailbox :: mailboxes, account =>
    match account.tables.removeMessageFromMailbox message mailbox with
    | .error .notFound => removeMemberships message mailboxes account
    | .error _ => ⟨.failed, account⟩
    | .ok tables => removeMemberships message mailboxes { account with tables }

def sourceMembership (loaded : Loaded) (removes : List MailboxID) : Option Membership :=
  (removes.head?.bind fun id => loaded.mailboxes.find? fun row => row.mailboxID = id) <|>
    loaded.mailboxes.head?

/-- `applyMailboxMemberships`, past its checks. -/
def moveMemberships (account : Account) (loaded : Loaded) (adds removes : List MailboxID) : Run :=
  match adds, removes with
  | [target], [source] => Run.attempt account (account.tables.moveMessage loaded.row.id source target)
  | _, _ =>
    let source := sourceMembership loaded removes
    let flags := (source.map Membership.flags).getD 0
    let keywords := ((source.map fun row => splitKeywords row.keywordsCSV).getD []).filter
      (· ≠ snoozedKeyword)
    (addMemberships loaded.row.id flags keywords adds account).andThen fun account =>
      removeMemberships loaded.row.id removes account

def consolidate (account : Account) (message : MessageID) : Run :=
  match account.tables.consolidateSnooze message with
  | .ok tables => ⟨.updated, { account with tables }⟩
  | .error _ => ⟨.failed, account⟩

def applyMailboxDiff (account : Account) (caller owner : PrincipalID) (loaded : Loaded)
    (desired : List MailboxID) : Run :=
  let adds := added around loaded desired
  match adds.findSome? (targetRefused account caller owner) with
  | some error => ⟨.refused error, account⟩
  | none =>
    (moveMemberships account loaded adds (removed around loaded desired)).andThen fun account =>
      consolidate account loaded.row.id

def refile (account : Account) (caller owner : PrincipalID) (loaded : Loaded) (patch : Patch) : Run :=
  match desiredMailboxes loaded patch with
  | .error error => ⟨.refused error, account⟩
  | .ok desired => applyMailboxDiff around account caller owner loaded desired

/-- One `reactions/<emoji>/<principal>` key: the emoji, and whether it is added. -/
def decodeReaction (caller : PrincipalID) (entry : Bytes × Json) : Except SetError (Bytes × Bool) :=
  let refused (description : String) : Except SetError (Bytes × Bool) :=
    .error { type := .invalidProperties,
             properties := [ascii "reactions/" ++ entry.1], description := some description }
  match cutLastByte 47 entry.1 with
  | none => refused "reactions patch key must be reactions/<emoji>/<principalId>"
  | some (emoji, principal) =>
    if emoji = [] ∨ principal = [] then refused
      "reactions patch key: emoji and principalId must be non-empty"
    else
      match parseUintPrincipalID principal with
      | none => refused "reactions patch key: principalId is not a valid id"
      | some id =>
        if id ≠ caller then
          .error { type := .forbidden
                   description := some "reactions patch: principalId must match the authenticated principal" }
        else .ok (emoji, entry.2.toBool = some true)

def decodeReactionPatches (patch : Patch) (caller : PrincipalID) :
    Except SetError (List (Bytes × Bool)) :=
  (patch.under (ascii "reactions/")).mapM (decodeReaction caller)

/-- `AddEmailReaction` and `RemoveEmailReaction`. -/
def applyReaction (caller : PrincipalID) (message : MessageID) (reactions : List Reaction)
    (change : Bytes × Bool) : List Reaction :=
  let reaction : Reaction := ⟨message, change.1, caller⟩
  if change.2 then (if reactions.contains reaction then reactions else reactions ++ [reaction])
  else reactions.filter (· ≠ reaction)

/-- `applyReactionPatches`, with the entry in the change feed. The additions come
first. -/
def applyReactionPatches (account : Account) (caller : PrincipalID) (loaded : Loaded)
    (changes : List (Bytes × Bool)) : Run :=
  if changes.isEmpty then ⟨.updated, account⟩
  else
    let ordered := changes.filter Prod.snd ++ changes.filter fun change => !change.2
    let reacted : Account :=
      { account with reactions := ordered.foldl (applyReaction caller loaded.row.id) account.reactions }
    match reacted.tables.updateMessageFlags loaded.row.id loaded.mailboxID 0 0 [] [] 0 with
    | .error _ => ⟨.failed, reacted⟩
    | .ok tables => ⟨.updated, { reacted with tables }⟩

def hasNonReactionKeys (patch : Patch) : Bool := patch.any fun entry => !hasPrefix entry.1
    (ascii "reactions/")

inductive SnoozeAction where
  | unchanged
  | set (until_ : Micros) (wake : Option MailboxID)
  | clear
  deriving DecidableEq

def snoozeClockSkewTolerance : Micros := 10000000

/-- `snoozedUntil` by itself. -/
def decodeSnoozedUntil (patch : Patch) : Except SetError SnoozeAction :=
  match patch.lookup (ascii "snoozedUntil") with
  | none => .ok .unchanged
  | some .null => .ok .clear
  | some (.string text) =>
    match around.parseTime text with
    | none => .error (.invalid "snoozedUntil" none)
    | some until_ =>
      if around.now - snoozeClockSkewTolerance < until_ then .ok (.set until_ none)
      else .error (.invalid "snoozedUntil" (some "snoozedUntil must be in the future"))
  | some _ =>
    .error (.invalid "snoozedUntil" (some "snoozedUntil must be a UTC ISO-8601 date string or null"))

def decodeSnoozeIntent (account : Account) (owner : PrincipalID) (patch : Patch) :
    Except SetError SnoozeAction :=
  let refused (description : String) : Except SetError SnoozeAction :=
    .error (.invalid "snoozeWakeMailboxId" (some description))
  match decodeSnoozedUntil around patch with
  | .error error => .error error
  | .ok action =>
    match patch.lookup (ascii "snoozeWakeMailboxId") with
    | none => .ok action
    | some wake =>
      match action, wake with
      | .set until_ _, .null => .ok (.set until_ none)
      | .set until_ _, .string text =>
        match mailboxIDFromJMAP text with
        | none => refused "snoozeWakeMailboxId carries an unparseable id"
        | some id =>
          match account.tables.mailbox? id with
          | none => refused "snoozeWakeMailboxId does not exist"
          | some box =>
            if box.principalID ≠ owner then
              refused "snoozeWakeMailboxId is not owned by the requested account"
            else .ok (.set until_ (some id))
      | .set _ _, _ => refused "snoozeWakeMailboxId must be a mailbox id string or null"
      | _, _ => refused "snoozeWakeMailboxId requires snoozedUntil to be set in the same patch"

structure Marks where
  whole : Option (List Bytes) := none
  /-- The `keywords/<keyword>` keys in lower case. -/
  single : List (Bytes × Bool) := []

/-- One `keywords/<keyword>` key without its start. -/
def decodeMark (entry : Bytes × Json) : Except SetError (Bytes × Bool) :=
  match entry.2.toBool with
  | none => .error { type := .invalidProperties, properties := [ascii "keywords/" ++ entry.1] }
  | some value => .ok (toLower entry.1, value)

/-- The refusals of `decodeUpdate`, none of which depends on the message. -/
def decodeMarks (patch : Patch) : Except SetError Marks :=
  let single := ((patch.under (ascii "keywords/")).filter fun entry => toLower entry.1 ≠ []).mapM
    decodeMark
  match patch.lookup (ascii "keywords") with
  | none => single.map fun single => { single }
  | some value =>
    match value.toBools with
    | none => .error (.invalid "keywords" none)
    | some fields => single.map fun single =>
          { whole := some ((fields.filter Prod.snd).map Prod.fst), single }

def systemFlag (keyword : Bytes) : Option MessageFlags :=
  if keyword = ascii "$seen" then some .seen
  else if keyword = ascii "$answered" then some .answered
  else if keyword = ascii "$flagged" then some .flagged
  else if keyword = ascii "$draft" then some .draft
  else none

structure Delta where
  addFlags : MessageFlags := 0
  clearFlags : MessageFlags := 0
  addKeywords : List Bytes := []
  clearKeywords : List Bytes := []
  deriving DecidableEq

/-- `flagsAndKeywordsFromJMAP` and the difference to the message. -/
def wholeDelta (loaded : Loaded) (wanted : List Bytes) : Delta :=
  let lowered := wanted.map toLower
  let newFlags := (lowered.filterMap systemFlag).foldl (· ||| ·) 0
  let oldFlags := loaded.flags &&& ~~~MessageFlags.recent
  let newSet := (lowered.filter fun keyword => (systemFlag keyword).isNone ∧
    keyword ≠ snoozedKeyword).dedup
  let oldSet := ((loaded.keywords.map toLower).filter (· ≠ snoozedKeyword)).dedup
  { addFlags := newFlags &&& ~~~oldFlags
    clearFlags := oldFlags &&& ~~~newFlags
    addKeywords := newSet.filter fun keyword => !oldSet.contains keyword
    clearKeywords := oldSet.filter fun keyword => !newSet.contains keyword }

def applyPatch (delta : Delta) (change : Bytes × Bool) : Delta :=
  match systemFlag change.1, change.2 with
  | some flag, true => { delta with addFlags := delta.addFlags ||| flag }
  | some flag, false => { delta with clearFlags := delta.clearFlags ||| flag }
  | none, true => { delta with addKeywords := delta.addKeywords ++ [change.1] }
  | none, false => { delta with clearKeywords := delta.clearKeywords ++ [change.1] }

/-- `decodeUpdate`, past its refusals. -/
def Marks.delta (marks : Marks) (loaded : Loaded) : Delta :=
  marks.single.foldl applyPatch ((marks.whole.map (wholeDelta loaded)).getD {})

def bareReminder (marks : Marks) (action : SnoozeAction) : Bool :=
  (marks.single.contains (snoozedKeyword, true)) && !(match action with | .set _ _ => true | _ => false)

/-- `resolveInboxMailbox`. -/
def resolveInbox (account : Account) (owner : PrincipalID) : Option MailboxID :=
  let owned := account.tables.mailboxes.filter fun box => box.principalID = owner
  let lowest (wanted : Mailbox → Bool) := ((owned.filter wanted).map Mailbox.id).min?
  lowest (fun box => account.inboxes.contains box.id) <|>
    lowest fun box => !account.inboxes.contains box.id && equalFold box.name (ascii "INBOX")

/-- `snoozeTargetMembership`. -/
def snoozeTarget (account : Account) (loaded : Loaded) : Option MailboxID :=
  if loaded.mailboxes.isEmpty then some loaded.mailboxID
  else
    (loaded.mailboxes.find? fun row => (account.tables.mailbox? row.mailboxID).any fun box =>
      !box.trash).map
      Membership.mailboxID

/-- `clearSnoozeExcept`; zero keeps none. -/
def clearSnoozeExcept (message : MessageID) (keep : MailboxID) : List Membership → Account → Run
  | [], account => ⟨.updated, account⟩
  | row :: rows, account =>
    if row.snoozedUntil.isNone ∨ row.mailboxID = keep then clearSnoozeExcept message keep rows account
    else
      (Run.attempt account (account.tables.setSnooze message row.mailboxID none none)).andThen
        (clearSnoozeExcept message keep rows)

def remind (account : Account) (owner : PrincipalID) (loaded : Loaded) : SnoozeAction → Run
  | .unchanged => ⟨.updated, account⟩
  | .set until_ wake =>
    match snoozeTarget account loaded with
    | none =>
      ⟨.refused (.invalid "snoozedUntil" (some "a message in Trash cannot be snoozed")), account⟩
    | some target =>
      (Run.attempt account (account.tables.setSnooze loaded.row.id target (some until_)
        (wake <|> resolveInbox account owner))).andThen
          (clearSnoozeExcept loaded.row.id target loaded.mailboxes)
  | .clear =>
    if loaded.snoozeHolder.isSome then clearSnoozeExcept loaded.row.id 0 loaded.mailboxes account
    else Run.attempt account (account.tables.setSnooze loaded.row.id loaded.mailboxID none none)

def resolved (loaded : Loaded) (delta : Delta) (action : SnoozeAction) : SnoozeAction :=
  if action = .unchanged ∧ delta.clearKeywords.contains snoozedKeyword ∧ loaded.snoozedUntil.isSome then .clear
  else action

def flag (account : Account) (loaded : Loaded) (delta : Delta) : Run :=
  let addKeywords := delta.addKeywords.filter (· ≠ snoozedKeyword)
  let clearKeywords := delta.clearKeywords.filter (· ≠ snoozedKeyword)
  if delta.addFlags = 0 ∧ delta.clearFlags = 0 ∧ addKeywords = [] ∧ clearKeywords = [] then ⟨.updated, account⟩
  else
    Run.attempt account (account.tables.updateMessageFlags loaded.row.id loaded.mailboxID delta.addFlags
      delta.clearFlags addKeywords clearKeywords 0)

def mark (account : Account) (owner : PrincipalID) (loaded : Loaded) (patch : Patch) : Run :=
  match decodeSnoozeIntent around account owner patch with
  | .error error => ⟨.refused error, account⟩
  | .ok action =>
    match decodeMarks patch with
    | .error error => ⟨.refused error, account⟩
    | .ok marks =>
      if bareReminder marks action then
        ⟨.refused (.invalid "keywords/$snoozed"
          (some "$snoozed keyword requires a snoozedUntil value; pass both in the same patch")),
            account⟩
      else
        let delta := marks.delta loaded
        (remind account owner loaded (resolved loaded delta action)).andThen fun account =>
          flag account loaded delta

def reactAndMark (account : Account) (caller owner : PrincipalID) (id : MessageID)
    (patch : Patch) : Run :=
  match account.getMessage id with
  | none => ⟨.failed, account⟩
  | some loaded =>
    match decodeReactionPatches patch caller with
    | .error error => ⟨.refused error, account⟩
    | .ok changes =>
      (applyReactionPatches account caller loaded changes).andThen fun account =>
        if !changes.isEmpty && !hasNonReactionKeys patch then ⟨.updated, account⟩
        else mark around account owner loaded patch

/-- `updateEmail`. A patch that is not an object is none. -/
def updateEmail (account : Account) (caller owner : PrincipalID) (id : MessageID)
    (raw : Option Patch) : Run :=
  match account.loadMessage caller id with
  | none => ⟨.refused { type := .notFound }, account⟩
  | some loaded =>
    if loaded.row.principalID ≠ owner then ⟨.refused { type := .notFound }, account⟩
    else
      match account.mutationRefused caller owner loaded with
      | some error => ⟨.refused error, account⟩
      | none =>
        match raw with
        | none => ⟨.refused { type := .invalidProperties }, account⟩
        | some patch =>
          (rebuild around account loaded.row patch).andThen fun account =>
            (refile around account caller owner loaded patch).andThen fun account =>
              reactAndMark around account caller owner id patch

end Update

end Herold.Jmap

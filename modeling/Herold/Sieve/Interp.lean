import Herold.Sieve.Commands

/-!
# The interpreter

Tests and control flow over the action commands. A block walks its commands in
order and remembers whether an `if` chain is open and whether one of its
branches was taken. Blocks, tests and loops nest; the recursion follows the
syntax tree.
-/

namespace Herold.Sieve

open Herold.Go Herold.Mail Herold.Machine Exchange

inductive TestName where
  | always
  | never
  | negation
  | allof
  | anyof
  | existence
  | size
  | header
  | address
  | envelope
  | body
  | hasflag
  | date
  | currentdate
  | string
  | unanswered
  | spamtest
  | duplicate
  | notifyMethod
  | environment
  deriving DecidableEq

def testNames : List (Bytes × TestName) :=
  [ ("true", .always), ("false", .never), ("not", .negation), ("allof", .allof), ("anyof", .anyof),
    ("exists", .existence), ("size", .size), ("header", .header), ("address", .address),
    ("envelope", .envelope), ("body", .body), ("hasflag", .hasflag), ("date", .date),
    ("currentdate", .currentdate), ("string", .string), ("mailboxexists", .unanswered),
    ("mailboxidexists", .unanswered), ("metadata", .unanswered), ("metadataexists", .unanswered),
    ("servermetadata", .unanswered), ("spamtest", .spamtest), ("duplicate", .duplicate),
    ("valid_notify_method", .notifyMethod), ("notify_method_capability", .notifyMethod),
    ("environment", .environment) ].map fun row => (ascii row.1, row.2)

variable (context : Context)

def headersFor (matcher : Matcher) (state : State) : Headers :=
  match matcher.mime, state.currentPart with
  | true, some part => part.headers
  | _, _ => context.message.headers

def allHeadersFor (matcher : Matcher) (state : State) : List Headers :=
  headersFor context matcher state ::
    if matcher.anychild then
      collectAllHeadersOf (state.currentPart.getD context.message.body).children
    else []

def testExists (args : List Argument) (state : State) : Bool :=
  let sources := allHeadersFor context
    { mime := hasTag ":mime" args, anychild := hasTag ":anychild" args } state
  (args.flatMap asStrings).all fun name => sources.any fun headers => headers.get name ≠ []

def testSize (args : List Argument) : Except EvalError Bool :=
  let limit := args.foldl (fun found arg => match arg with
    | .number value => value
    | _ => found) 0
  let mode := args.foldl (fun found arg => match arg with
    | .tag name =>
      if toLower name = ascii ":over" then some true
      else if toLower name = ascii ":under" then some false
      else found
    | _ => found) none
  match mode with
  | some true => .ok (limit < context.message.size)
  | some false => .ok (context.message.size < limit)
  | none => .error (.missingArgument (ascii "size"))

def anyKey (matcher : Matcher) (expand : Bytes → Bytes) (keys : List Bytes) (value : Bytes) :
    Except EvalError Bool :=
  anyOf (keys.map fun key => compare context.library matcher value (expand key))

def anyValue (matcher : Matcher) (expand : Bytes → Bytes) (values keys : List Bytes) :
    Except EvalError Bool :=
  anyOf (values.map (anyKey context matcher expand keys))

/-- `countMatch`: compare the number of values, or each value, by the relation. -/
def countMatch (matcher : Matcher) (expand : Bytes → Bytes) (values keys : List Bytes) :
    Except EvalError Bool := do
  let op ← relationOp matcher.relation
  let compared := if hasPrefix matcher.relation (ascii ":count") then [decimal values.length]
    else values
  anyOf (compared.map fun value => anyOf (keys.map fun key => compareRelational value op (expand key)))

def compareValues (matcher : Matcher) (expand : Bytes → Bytes) (values keys : List Bytes) :
    Except EvalError Bool :=
  if matcher.relation ≠ [] then countMatch matcher expand values keys
  else anyValue context matcher expand values keys

/-- The matcher with the first two of its arguments, which a test must have. -/
def matcherPair (name : String) (args : List Argument) :
    Except EvalError (Matcher × Argument × Argument) :=
  match parseMatcher args with
  | (matcher, first :: second :: _) => .ok (matcher, first, second)
  | _ => .error (.missingArgument (ascii name))

def headerValues (sources : List Headers) (names : List Bytes) : List Bytes :=
  sources.flatMap fun headers => names.flatMap headers.getAll

def testHeader (args : List Argument) (state : State) : Except EvalError Bool := do
  let (matcher, names, keys) ← matcherPair "header" args
  let values := headerValues (allHeadersFor context matcher state) (asStrings names)
  -- a relation sees the values as they are; the other matches trim them first
  if matcher.relation ≠ [] then
    countMatch matcher (expandVars context state) values (asStrings keys)
  else anyValue context matcher (expandVars context state) (values.map trimSpace) (asStrings keys)

def testAddress (args : List Argument) (state : State) : Except EvalError Bool := do
  let (matcher, names, keys) ← matcherPair "address" args
  let values := (headerValues (allHeadersFor context matcher state) (asStrings names)).flatMap
    fun value => extractAddressParts context.library value matcher.addressPart
  compareValues context matcher (expandVars context state) values (asStrings keys)

def envelopeAddress (name : Bytes) : Option Bytes :=
  if toLower name = ascii "from" then some context.env.sender
  else if toLower name = ascii "to" then some context.env.recipient
  else if toLower name = ascii "orig_to" then some context.env.originalRecipient
  else none

def requireFor (name extension : String) : Except EvalError Unit :=
  if required context extension then .ok () else .error (.requires (ascii name) (ascii extension))

def testEnvelope (args : List Argument) (state : State) : Except EvalError Bool := do
  requireFor context "envelope" "envelope"
  let (matcher, names, keys) ← matcherPair "envelope" args
  let values := ((asStrings names).filterMap (envelopeAddress context)).flatMap
    fun value => extractAddressParts context.library value matcher.addressPart
  compareValues context matcher (expandVars context state) values (asStrings keys)

def testBody (args : List Argument) (state : State) : Except EvalError Bool := do
  requireFor context "body" "body"
  match parseMatcher args with
  | (matcher, keys :: _) =>
    anyKey context matcher (expandVars context state) (asStrings keys)
      (collectBody context.message.body matcher.bodyType matcher.contentTypes)
  | _ => .error (.missingArgument (ascii "body"))

def testHasFlag (args : List Argument) (state : State) : Bool :=
  required context "imap4flags" && (args.flatMap asStrings).any fun flag => state.flags.contains flag

def testCurrentDate (args : List Argument) (state : State) : Except EvalError Bool := do
  requireFor context "date" "date"
  let (matcher, part, keys) ← matcherPair "currentdate" args
  anyKey context matcher (expandVars context state) (asStrings keys)
    (datePart context.env.now (asString part))

def testDate (args : List Argument) (state : State) : Except EvalError Bool := do
  requireFor context "date" "date"
  match parseMatcher args with
  | (matcher, header :: part :: keys :: _) =>
    match context.library.parseDate (context.message.headers.get (asString header)) with
    | none => .ok false
    | some moment =>
      anyKey context matcher (expandVars context state) (asStrings keys)
        (datePart moment (asString part))
  | _ => .error (.missingArgument (ascii "date"))

def testString (args : List Argument) (state : State) : Except EvalError Bool := do
  requireFor context "string" "variables"
  let (matcher, sources, keys) ← matcherPair "string" args
  anyValue context matcher (expandVars context state)
    ((asStrings sources).map (expandVars context state)) (asStrings keys)

def testSpam (args : List Argument) (state : State) : Except EvalError Bool :=
  if !required context "spamtest" && !required context "spamtestplus" then
    .error (.requires (ascii "spamtest") (ascii "spamtest"))
  else
    match parseMatcher args with
    | (matcher, keys :: _) =>
      let relation := if matcher.relation = [] then ascii ":value eq" else matcher.relation
      anyOf ((asStrings keys).map fun key => do
        let op ← relationOp relation
        compareRelational (decimal context.env.spamLevel) op (expandVars context state key))
    | _ => .error (.missingArgument (ascii "spamtest"))

structure DuplicateArgs where
  handle : Bytes := []
  header : Bytes := []
  uniqueId : Bytes := []
  seconds : Nat := 7 * 86400

def duplicateStep (found : DuplicateArgs) (arg : Argument) (next : Option Argument) :
    DuplicateArgs × Bool :=
  match arg, next with
  | .tag name, some (.string text) =>
    if toLower name = ascii ":handle" then ({ found with handle := text }, true)
    else if toLower name = ascii ":header" then ({ found with header := text }, true)
    else if toLower name = ascii ":uniqueid" then ({ found with uniqueId := text }, true)
    else (found, false)
  | .tag name, some (.number value) =>
    if toLower name = ascii ":seconds" then ({ found with seconds := value }, true)
    else (found, false)
  | _, _ => (found, false)

def duplicateValue (found : DuplicateArgs) : Bytes :=
  let value :=
    if found.uniqueId = [] ∧ found.header ≠ [] then context.message.headers.get found.header
    else found.uniqueId
  if value = [] then context.message.messageId else value

def testDuplicate (args : List Argument) : Eval Bool := do
  requireExtension context "duplicate" "duplicate"
  match context.env.duplicate with
  | none => stop .noDuplicateStore
  | some store => do
      let found := scanArguments duplicateStep false {} args
      let value := duplicateValue context found
      let state ← get
      modify fun state =>
        { state with marked := state.marked ++ [(found.handle, value, found.seconds)] }
      match store.seenAndMark state.marked found.handle value found.seconds with
      | none => stop .duplicateStore
      | some seen => pure seen

def testNotifyMethod (args : List Argument) : Bool := (args.flatMap asStrings).all isMailto

def leafTest (test : TestName) (name : Bytes) (args : List Argument) : Eval Bool := do
  let state ← get
  match test with
  | .existence => pure (testExists context args state)
  | .size => liftExcept (testSize context args)
  | .header => liftExcept (testHeader context args state)
  | .address => liftExcept (testAddress context args state)
  | .envelope => liftExcept (testEnvelope context args state)
  | .body => liftExcept (testBody context args state)
  | .hasflag => pure (testHasFlag context args state)
  | .date => liftExcept (testDate context args state)
  | .currentdate => liftExcept (testCurrentDate context args state)
  | .string => liftExcept (testString context args state)
  | .unanswered => pure false
  | .spamtest => liftExcept (testSpam context args state)
  | .duplicate => testDuplicate context args
  | .notifyMethod => pure (testNotifyMethod args)
  | .environment => pure false
  | _ => stop (.notImplemented name)

mutual

def evalTest : Test → Eval Bool
  | ⟨name, args, children⟩ => do
      tick context
      match testNames.lookup name with
      | some .always => pure true
      | some .never => pure false
      | some .negation => evalNot children
      | some .allof => evalAll children
      | some .anyof => evalAny children
      | some test => leafTest context test name args
      | none => stop (.notImplemented name)

def evalNot : List Test → Eval Bool
  | test :: rest => do
      if rest.isEmpty then
        let holds ← evalTest test
        pure !holds
      else stop .notTakesOneTest
  | [] => stop .notTakesOneTest

def evalAll : List Test → Eval Bool
  | [] => pure true
  | test :: tests => do
      let holds ← evalTest test
      if holds then evalAll tests else pure false

def evalAny : List Test → Eval Bool
  | [] => pure false
  | test :: tests => do
      let holds ← evalTest test
      if holds then pure true else evalAny tests

end

inductive CommandName where
  | ifBranch
  | elsifBranch
  | elseBranch
  | foreverypart
  | require
  | stop
  | keep
  | discard
  | fileinto
  | redirect
  | reject
  | vacation
  | flag (change : FlagChange)
  | set
  | includeScript
  | returnScript
  | addheader
  | deleteheader
  | notify
  | breakLoop
  | extracttext
  | replace
  | enclose
  deriving DecidableEq

def commandNames : List (Bytes × CommandName) :=
  [ ("if", .ifBranch), ("elsif", .elsifBranch), ("else", .elseBranch),
    ("foreverypart", .foreverypart), ("require", .require), ("stop", .stop), ("keep", .keep),
    ("discard", .discard), ("fileinto", .fileinto), ("redirect", .redirect), ("reject", .reject),
    ("ereject", .reject), ("vacation", .vacation), ("setflag", .flag .set), ("addflag", .flag .add),
    ("removeflag", .flag .remove), ("set", .set), ("include", .includeScript),
      ("return", .returnScript),
    ("addheader", .addheader), ("deleteheader", .deleteheader), ("notify", .notify),
    ("break", .breakLoop), ("extracttext", .extracttext), ("replace", .replace),
    ("enclose", .enclose) ].map fun row => (ascii row.1, row.2)

def stopScript : Eval Unit :=
  modify fun state => { state with outcome := { state.outcome with stop := true } }

def runSimple (command : CommandName) (name : Bytes) (args : List Argument) : Eval Unit :=
  match command with
  | .require => pure ()
  | .stop => stopScript
  | .keep => appendAction context .keep
  | .discard => discard context
  | .fileinto => fileInto context args
  | .redirect => redirect context args
  | .reject => reject context args
  | .vacation => vacation context args
  | .flag change => flagCmd context change args
  | .set => setVar context args
  | .includeScript => pure ()
  | .returnScript => stopScript
  | .addheader => addHeader context args
  | .deleteheader => deleteHeader context args
  | .notify => notify context args
  | .breakLoop => runBreak args
  | .extracttext => extractText context args
  | .replace => replace context args
  | .enclose => enclose context args
  | _ => stop (.notImplemented name)

/-- Whether an `if` chain is open in the block, and whether its last condition
held. -/
structure Chain where
  inChain : Bool := false
  lastIfTaken : Bool := false
  deriving DecidableEq

/-- Evaluate the condition of a branch and run the block when it holds. -/
def ifCommand (test : Option Test) (body : Eval Unit) : Eval Bool :=
  match test with
  | none => stop .ifWithoutTest
  | some test => do
      let holds ← evalTest context test
      if holds then do
        body
        pure true
      else pure false

mutual

def runCommand : Chain → Command → Eval Chain
  | chain, ⟨name, args, test, block⟩ =>
    match commandNames.lookup name with
    | some .ifBranch => do
        let taken ← ifCommand context test (runBlock {} block)
        pure ⟨true, taken⟩
    | some .elsifBranch =>
      if !chain.inChain then stop .elsifWithoutIf
      else if chain.lastIfTaken then pure chain
      else do
        let taken ← ifCommand context test (runBlock {} block)
        pure ⟨true, taken⟩
    | some .elseBranch =>
      if !chain.inChain then stop .elseWithoutIf
      else do
        let _ ← (if chain.lastIfTaken then pure () else runBlock {} block)
        pure { chain with inChain := false }
    | some .foreverypart => do
        runForeveryPart context args (runBlock {} block)
        pure { chain with inChain := false }
    | some command => do
        runSimple context command name args
        pure { chain with inChain := false }
    | none => stop (.notImplemented name)

def runBlock : Chain → List Command → Eval Unit
  | _, [] => pure ()
  | chain, command :: commands => do
      tick context
      let state ← get
      if state.brokenAny then pure ()
      else do
        let chain ← runCommand chain command
        let state ← get
        if state.outcome.stop then pure () else runBlock chain commands

end

def zeroLimits : SandboxLimits := ⟨0, 0, 0, 0, 0, 0, 0⟩

/-- The context of an evaluation; limits that are all zero stand for the default. -/
def evaluationContext (library : Library) (env : Environment) (message : Message)
    (requires : List Bytes) : Context :=
  { library, message, requires
    env := if env.limits = zeroLimits then { env with limits := defaultSandboxLimits } else env }

/-- `Evaluate`: the outcome, and the error that ended the script early. -/
def evaluate (library : Library) (env : Environment) (message : Message) (script : Script) :
    Outcome × Except EvalError Unit :=
  let ran := runBlock (evaluationContext library env message script.requires) {} script.commands {}
  (ran.1.outcome, ran.2)

end Herold.Sieve

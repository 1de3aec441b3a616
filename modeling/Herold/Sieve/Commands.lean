import Herold.Machine.Exchange
import Herold.Sieve.Match

/-!
# The state of an evaluation and the action commands

A script is evaluated against a message and leaves an outcome: the actions it
decided on, whether the implicit keep still stands and whether it executed
`stop`. The sandbox counts steps, redirects, notifications, actions and variable
bytes, and ends a script that exceeds a limit.

The spam score is a float in the source. The environment holds the two things
that are read from it: the level `spamtest` compares and the text of
`${spam.confidence}`. Log lines and the cancellation of the context are left out.
-/

namespace Herold.Sieve

open Herold.Go Herold.Mail Herold.Machine

inductive FlagChange where
  | set
  | add
  | remove
  deriving DecidableEq

inductive Action where
  | keep
  | discard
  | fileInto (mailbox mailboxId : Bytes) (copy : Bool) (flag : Bytes)
  | redirect (address : Bytes) (copy : Bool)
  | reject (reason : Bytes)
  | vacation (reason subject sender handle : Bytes) (days : Nat) (addresses : List Bytes)
  | flag (change : FlagChange) (name : Bytes)
  | notify (address reason sender : Bytes)
  | addHeader (name value : Bytes)
  | deleteHeader (name : Bytes)
  | replace (body subject sender : Bytes) (path : List Nat)
  | enclose (body subject : Bytes) (headers : List Bytes)
  deriving DecidableEq

namespace Action

def sparesKeep : Action → Bool
  | keep => false
  | discard => false
  | fileInto _ _ copy _ => copy
  | redirect _ copy => copy
  | reject _ => false
  | _ => true

end Action

structure Outcome where
  actions : List Action := []
  implicitKeep : Bool := true
  stop : Bool := false
  deriving DecidableEq

inductive Counter where
  | instructions
  | redirects
  | notifies
  | actions
  deriving DecidableEq

structure SandboxLimits where
  maxInstructions : Nat
  maxVariables : Nat
  maxVariableBytes : Nat
  maxTotalVariableBytes : Nat
  maxRedirects : Nat
  maxNotifies : Nat
  maxOutcomeActions : Nat
  deriving DecidableEq

def defaultSandboxLimits : SandboxLimits where
  maxInstructions := 100000
  maxVariables := 256
  maxVariableBytes := 4096
  maxTotalVariableBytes := 64 * 1024
  maxRedirects := 5
  maxNotifies := 2
  maxOutcomeActions := 64

def SandboxLimits.of (limits : SandboxLimits) : Counter → Nat
  | .instructions => limits.maxInstructions
  | .redirects => limits.maxRedirects
  | .notifies => limits.maxNotifies
  | .actions => limits.maxOutcomeActions

def Counter.exhausted : Counter → EvalError
  | .instructions => .instructionBudget
  | .redirects => .redirectBudget
  | .notifies => .notifyBudget
  | .actions => .outcomeActions

structure Sandbox where
  instructions : Nat := 0
  redirects : Nat := 0
  notifies : Nat := 0
  actions : Nat := 0
  totalBytes : Int := 0
  deriving DecidableEq

namespace Sandbox

def count (sandbox : Sandbox) : Counter → Nat
  | .instructions => sandbox.instructions
  | .redirects => sandbox.redirects
  | .notifies => sandbox.notifies
  | .actions => sandbox.actions

def charged (sandbox : Sandbox) : Counter → Sandbox
  | .instructions => { sandbox with instructions := sandbox.instructions + 1 }
  | .redirects => { sandbox with redirects := sandbox.redirects + 1 }
  | .notifies => { sandbox with notifies := sandbox.notifies + 1 }
  | .actions => { sandbox with actions := sandbox.actions + 1 }

end Sandbox

/-- The seam to the replies sent so far; `none` is an error of the store. What
this run has recorded itself is passed along. -/
structure VacationStore where
  shouldSend : (recorded : List (Bytes × Bytes)) → (handle sender : Bytes) → (days : Nat) → Option Bool
  record : (recorded : List (Bytes × Bytes)) → (handle sender : Bytes) → Option Unit

/-- The seam to the values seen so far, with what this run has marked itself. -/
structure DuplicateStore where
  seenAndMark : (marked : List (Bytes × Bytes × Nat)) → (handle value : Bytes) → (seconds : Nat) →
    Option Bool

structure Environment where
  recipient : Bytes := []
  originalRecipient : Bytes := []
  sender : Bytes := []
  spamLevel : Nat := 0
  spamConfidence : Bytes := []
  spamVerdict : Bytes := []
  spamReason : Bytes := []
  vacation : Option VacationStore := none
  duplicate : Option DuplicateStore := none
  limits : SandboxLimits := defaultSandboxLimits
  now : Moment

def someEnvironment : Environment where
  now := ⟨2026, 1, 1, 0, 0, 0, 4⟩

def emptyMessage : Message := ⟨⟨[]⟩, [], ⟨[], ⟨[]⟩, .unknown, [], []⟩, 0⟩

structure Context where
  library : Library
  env : Environment
  message : Message
  requires : List Bytes

structure State where
  sandbox : Sandbox := {}
  vars : List (Bytes × Bytes) := []
  flags : List Bytes := []
  currentPart : Option Part := none
  currentPath : List Nat := []
  loopStack : List Bytes := []
  brokenLoopName : Bytes := []
  brokenAny : Bool := false
  recorded : List (Bytes × Bytes) := []
  marked : List (Bytes × Bytes × Nat) := []
  outcome : Outcome := {}

abbrev Eval := Exchange State EvalError

open Exchange

variable (context : Context)

def required (extension : String) : Bool := context.requires.contains (ascii extension)

def requireExtension (name extension : String) : Eval Unit :=
  if required context extension then pure () else stop (.requires (ascii name) (ascii extension))

def charge (counter : Counter) : Eval Unit := fun state =>
  let next := { state with sandbox := state.sandbox.charged counter }
  (next, if context.env.limits.of counter < next.sandbox.count counter then .error counter.exhausted
    else .ok ())

def tick : Eval Unit := charge context .instructions

def liftExcept {Value : Type} (result : Except EvalError Value) : Eval Value :=
  fun state => (state, result)

def lookupVar (state : State) (name : Bytes) : Bytes :=
  match state.vars.lookup name with
  | some value => value
  | none =>
    if toLower name = ascii "spam.verdict" then context.env.spamVerdict
    else if toLower name = ascii "spam.confidence" then context.env.spamConfidence
    else if toLower name = ascii "spam.reason" then context.env.spamReason
    else []

def expandVars (state : State) (text : Bytes) : Bytes :=
  if required context "variables" then expandReferences (lookupVar context state) text else text

def record (action : Action) (state : State) : State :=
  { state with outcome := { state.outcome with
      actions := state.outcome.actions ++ [action]
      implicitKeep := state.outcome.implicitKeep && action.sparesKeep } }

def appendAction (action : Action) : Eval Unit := do
  charge context .actions
  modify (record action)

def appendActions : List Action → Eval Unit
  | [] => pure ()
  | action :: actions => do
      appendAction context action
      appendActions actions

def withNext : List Argument → List (Argument × Option Argument)
  | [] => []
  | arg :: rest => (arg, rest.head?) :: withNext rest

def hasTag (tag : String) (args : List Argument) : Bool :=
  args.any fun arg => match arg with
    | .tag name => toLower name = ascii tag
    | _ => false

def lastString (expand : Bytes → Bytes) (args : List Argument) : Bytes :=
  args.foldl (fun found arg => match arg with
    | .string text => expand text
    | _ => found) []

/-- The last string or first item of a list among the arguments, expanded. -/
def lastText (expand : Bytes → Bytes) (args : List Argument) : Bytes :=
  args.foldl (fun found arg => match arg with
    | .string text => expand text
    | .stringList (item :: _) => expand item
    | _ => found) []

/-- What `read` makes of the argument after the last such tag. -/
def afterTag (tag : String) (read : Argument → Option Bytes) (args : List Argument) : Bytes :=
  (withNext args).foldl (fun found pair => match pair with
    | (.tag name, some next) => if toLower name = ascii tag then (read next).getD found else found
    | _ => found) []

def discard : Eval Unit := do
  modify fun state => { state with outcome := { state.outcome with implicitKeep := false } }
  appendAction context .discard

def fileInto (args : List Argument) : Eval Unit := do
  let state ← get
  let expand := expandVars context state
  let mailbox := lastText expand args
  let mailboxId := afterTag ":mailboxid" (fun arg => match arg with
    | .string text => some (expand text)
    | _ => none) args
  let flag := afterTag ":flags" (fun arg => match arg with
    | .string text => some (expand text)
    | .stringList (item :: _) => some (expand item)
    | _ => none) args
  if mailbox = [] ∧ mailboxId = [] then stop (.missingArgument (ascii "fileinto"))
  else appendAction context (.fileInto mailbox mailboxId (hasTag ":copy" args) flag)

def redirect (args : List Argument) : Eval Unit := do
  charge context .redirects
  let state ← get
  let address := lastString (expandVars context state) args
  if address = [] then stop (.missingArgument (ascii "redirect"))
  else appendAction context (.redirect address (hasTag ":copy" args))

def reject (args : List Argument) : Eval Unit := do
  let state ← get
  appendAction context (.reject (lastString (expandVars context state) args))

structure VacationArgs where
  days : Nat := 7
  seconds : Nat := 0
  subject : Bytes := []
  sender : Bytes := []
  handle : Bytes := []
  addresses : List Bytes := []
  body : Bytes := []

def vacationStep (expand : Bytes → Bytes) (found : VacationArgs) (arg : Argument)
    (next : Option Argument) : VacationArgs × Bool :=
  match arg with
  | .string text => ({ found with body := expand text }, false)
  | .tag name =>
    let tag := toLower name
    match next with
    | some (.number value) =>
      if tag = ascii ":days" then ({ found with days := value }, true)
      else if tag = ascii ":seconds" then ({ found with seconds := value }, true)
      else (found, tag = ascii ":addresses")
    | some (.string text) =>
      if tag = ascii ":subject" then ({ found with subject := expand text }, true)
      else if tag = ascii ":from" then ({ found with sender := expand text }, true)
      else if tag = ascii ":handle" then ({ found with handle := expand text }, true)
      else if tag = ascii ":addresses" then
        ({ found with addresses := found.addresses ++ [expand text] }, true)
      else (found, false)
    | some (.stringList items) =>
      if tag = ascii ":addresses" then
        ({ found with addresses := found.addresses ++ items.map expand }, true)
      else (found, false)
    | some (.tag _) => (found, tag = ascii ":addresses")
    | none => (found, false)
  | _ => (found, false)

def VacationArgs.window (found : VacationArgs) : Nat :=
  if 0 < found.seconds then max (found.seconds / 86400) 1 else found.days

def vacation (args : List Argument) : Eval Unit := do
  match context.env.vacation with
  | none => stop .noVacationStore
  | some store => do
      let state ← get
      let found := scanArguments (vacationStep (expandVars context state)) false {} args
      match store.shouldSend state.recorded found.handle context.env.sender found.window with
      | none => stop .vacationStore
      | some false => pure ()
      | some true =>
        match store.record state.recorded found.handle context.env.sender with
        | none => stop .vacationStore
        | some () => do
            modify fun state =>
              { state with recorded := state.recorded ++ [(found.handle, context.env.sender)] }
            appendAction context (.vacation found.body found.subject found.sender found.handle
              found.window found.addresses)

def flagCmd (change : FlagChange) (args : List Argument) : Eval Unit := do
  let state ← get
  appendActions context ((args.flatMap asStrings).map fun name =>
    .flag change (expandVars context state name))

def applyVarModifier (tag value : Bytes) : Bytes :=
  if tag = ascii ":lower" then toLower value
  else if tag = ascii ":upper" then toUpper value
  else if tag = ascii ":lowerfirst" then toLower (value.take 1) ++ value.drop 1
  else if tag = ascii ":upperfirst" then toUpper (value.take 1) ++ value.drop 1
  else if tag = ascii ":quotewildcard" then
    (runes value).flatMap fun rune =>
      (if rune.1 = 42 ∨ rune.1 = 63 ∨ rune.1 = 92 then [92] else []) ++ encodeRune rune.1
  else if tag = ascii ":length" then decimal value.length
  else value

def checkVarStorage (delta : Nat) : Eval Unit := do
  let state ← get
  if context.env.limits.maxTotalVariableBytes < state.sandbox.totalBytes + delta then
    stop .totalVariableBytes
  else modify fun state =>
    { state with sandbox := { state.sandbox with totalBytes := state.sandbox.totalBytes + delta } }

def assign (name value : Bytes) : List (Bytes × Bytes) → List (Bytes × Bytes)
  | [] => [(name, value)]
  | entry :: vars => if entry.1 = name then (name, value) :: vars else entry :: assign name value vars

/-- Account for the bytes of a value, in place of the ones it replaces. -/
def reserveVariable (name value : Bytes) : Eval Unit := do
  let state ← get
  match state.vars.lookup name with
  | none =>
    if context.env.limits.maxVariables ≤ state.vars.length then stop .variableBudget
    else checkVarStorage context value.length
  | some existing => do
      modify fun state => { state with
        sandbox := { state.sandbox with totalBytes := state.sandbox.totalBytes - existing.length } }
      checkVarStorage context value.length

def storeVariable (name value : Bytes) : Eval Unit := do
  reserveVariable context name value
  modify fun state => { state with vars := assign name value state.vars }

def stringArgs (args : List Argument) : List Bytes :=
  args.filterMap fun arg => match arg with
    | .string text => some text
    | _ => none

def tagArgs (args : List Argument) : List Bytes :=
  args.filterMap fun arg => match arg with
    | .tag name => some (toLower name)
    | _ => none

/-- The value a `set` gives: the last string after the name, less the modifiers. -/
def setValue (expand : Bytes → Bytes) (args : List Argument) : Bytes :=
  match (stringArgs args).drop 1 with
  | [] => []
  | values => expand (values.getLastD [])

def setVar (args : List Argument) : Eval Unit := do
  requireExtension context "set" "variables"
  let state ← get
  let name := (stringArgs args).headD []
  let value := (tagArgs args).foldl (fun value tag => applyVarModifier tag value)
    (setValue (expandVars context state) args)
  if name = [] then stop (.missingArgument (ascii "set"))
  else if context.env.limits.maxVariableBytes < value.length then stop .variableSize
  else storeVariable context name value

def addHeader (args : List Argument) : Eval Unit := do
  requireExtension context "addheader" "editheader"
  let state ← get
  match (stringArgs args).map (expandVars context state) with
  | name :: value :: _ => appendAction context (.addHeader name value)
  | _ => stop (.missingArgument (ascii "addheader"))

def deleteHeader (args : List Argument) : Eval Unit := do
  requireExtension context "deleteheader" "editheader"
  let state ← get
  let name := expandVars context state ((stringArgs args).headD [])
  if name = [] then stop (.missingArgument (ascii "deleteheader"))
  else appendAction context (.deleteHeader name)

structure RewriteArgs where
  subject : Bytes := []
  sender : Bytes := []
  headers : List Bytes := []
  body : Option Bytes := none

def bodyArgument (expand : Bytes → Bytes) (found : RewriteArgs) (text : Bytes) : RewriteArgs :=
  match found.body with
  | some _ => found
  | none => { found with body := some (expand text) }

def replaceStep (expand : Bytes → Bytes) (found : RewriteArgs) (arg : Argument)
    (next : Option Argument) : RewriteArgs × Bool :=
  match arg, next with
  | .string text, _ => (bodyArgument expand found text, false)
  | .tag name, some (.string text) =>
    if toLower name = ascii ":subject" then ({ found with subject := expand text }, true)
    else if toLower name = ascii ":from" then ({ found with sender := expand text }, true)
    else (found, false)
  | _, _ => (found, false)

def replace (args : List Argument) : Eval Unit := do
  requireExtension context "replace" "mime"
  let state ← get
  let found := scanArguments (replaceStep (expandVars context state)) false {} args
  match found.body with
  | none => stop (.missingArgument (ascii "replace"))
  | some body =>
    appendAction context (.replace body found.subject found.sender state.currentPath)

def encloseStep (expand : Bytes → Bytes) (found : RewriteArgs) (arg : Argument)
    (next : Option Argument) : RewriteArgs × Bool :=
  match arg with
  | .string text => (bodyArgument expand found text, false)
  | .tag name =>
    if toLower name = ascii ":subject" then
      match followingString next with
      | some text => ({ found with subject := expand text }, true)
      | none => (found, false)
    else if toLower name = ascii ":headers" then
      match next with
      | some next => ({ found with headers := found.headers ++ (asStrings next).map expand }, true)
      | none => (found, false)
    else (found, false)
  | _ => (found, false)

def enclose (args : List Argument) : Eval Unit := do
  requireExtension context "enclose" "mime"
  let state ← get
  let found := scanArguments (encloseStep (expandVars context state)) false {} args
  match found.body with
  | none => stop (.missingArgument (ascii "enclose"))
  | some body => appendAction context (.enclose body found.subject found.headers)

structure NotifyArgs where
  address : Bytes := []
  reason : Bytes := []
  sender : Bytes := []
  mailto : Bool := true

def isMailto (uri : Bytes) : Bool := hasPrefix (toLower uri) (ascii "mailto:")

def notifyStep (expand : Bytes → Bytes) (found : NotifyArgs) (arg : Argument)
    (next : Option Argument) : NotifyArgs × Bool :=
  match arg with
  | .string text =>
    ({ found with address := expand text, mailto := found.mailto && isMailto (expand text) }, false)
  | .tag name =>
    let tag := toLower name
    if tag = ascii ":message" then
      match followingString next with
      | some text => ({ found with reason := expand text }, true)
      | none => (found, false)
    else if tag = ascii ":from" then
      match followingString next with
      | some text => ({ found with sender := expand text }, true)
      | none => (found, false)
    else (found, tag = ascii ":options" || tag = ascii ":importance" || tag = ascii ":method")
  | _ => (found, false)

def notify (args : List Argument) : Eval Unit := do
  requireExtension context "notify" "enotify"
  charge context .notifies
  let state ← get
  let found := scanArguments (notifyStep (expandVars context state)) false {} args
  if !found.mailto then stop .notMailto
  else if found.address = [] then stop (.missingArgument (ascii "notify"))
  else appendAction context (.notify found.address found.reason found.sender)

def extractStep (found : Nat × Bytes) (arg : Argument) (next : Option Argument) :
    (Nat × Bytes) × Bool :=
  match arg, next with
  | .string text, _ => ((found.1, if found.2 = [] then text else found.2), false)
  | .tag name, some (.number first) =>
    if toLower name = ascii ":first" then ((first, found.2), true) else (found, false)
  | _, _ => (found, false)

def partOrMessageText (state : State) : Bytes :=
  match state.currentPart with
  | some part => part.text
  | none => primaryTextBody context.message

def extractText (args : List Argument) : Eval Unit := do
  requireExtension context "extracttext" "mime"
  let state ← get
  let (first, name) := scanArguments extractStep false (0, []) args
  if name = [] then stop (.missingArgument (ascii "extracttext"))
  else
    let text := partOrMessageText context state
    let text := if 0 < first then text.take first else text
    storeVariable context name (text.take context.env.limits.maxVariableBytes)

def readNameTag (args : List Argument) : Bytes :=
  ((withNext args).findSome? fun pair => match pair with
    | (.tag name, some (.string text)) =>
      if toLower name = ascii ":name" then some text else none
    | _ => none).getD []

def runBreak (args : List Argument) : Eval Unit := do
  let state ← get
  let name := readNameTag args
  if state.loopStack = [] then stop .breakOutsideLoop
  else if name ≠ [] ∧ !state.loopStack.contains name then stop (.breakWithoutLoop name)
  else modify fun state => { state with brokenAny := true, brokenLoopName := name }

/-- Run the body once for each part, unless a `break` or a `stop` ends the loop. -/
def forParts (loopName : Bytes) (body : Eval Unit) : List (Part × List Nat) → Eval Unit
  | [] => pure ()
  | (part, path) :: rest => do
      modify fun state => { state with currentPart := some part, currentPath := path }
      body
      let state ← get
      if state.brokenAny then
        if state.brokenLoopName = [] ∨ state.brokenLoopName = loopName then
          modify fun state => { state with brokenAny := false, brokenLoopName := [] }
        else pure ()
      else if state.outcome.stop then pure ()
      else forParts loopName body rest

/-- The parts a loop visits: all below the current one, or that one alone. -/
def loopParts (state : State) : List (Part × List Nat) :=
  let scope := state.currentPart.getD context.message.body
  match collectDescendantPathParts state.currentPath scope with
  | [] => [(scope, state.currentPath)]
  | walked => walked

def runForeveryPart (args : List Argument) (body : Eval Unit) : Eval Unit := do
  requireExtension context "foreverypart" "foreverypart"
  let before ← get
  let loopName := readNameTag args
  modify fun state => { state with loopStack := state.loopStack ++ [loopName] }
  forParts loopName body (loopParts context before)
  modify fun state => { state with
    loopStack := before.loopStack
    currentPart := before.currentPart
    currentPath := before.currentPath }

end Herold.Sieve

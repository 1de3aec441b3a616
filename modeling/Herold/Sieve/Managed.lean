import Herold.Sieve.Validate
import Mathlib.Data.List.Sort

/-!
# Managed rules and the script compiled from them

A managed rule is a list of conditions and a list of actions that a user edits
in a form. `CompileRules` writes the enabled rules of a user as one Sieve script,
which then runs before the script the user wrote by hand.
-/

namespace Herold.Sieve

open Herold.Go

structure RuleCondition where
  field : Bytes
  op : Bytes
  value : Bytes
  deriving DecidableEq

/-- The parameters of an action by name; a value that is no string is `none`. -/
abbrev Params := List (Bytes × Option Bytes)

structure RuleAction where
  kind : Bytes
  params : Params := []
  deriving DecidableEq

structure ManagedRule where
  id : Int
  name : Bytes := []
  enabled : Bool := true
  sortOrder : Int := 0
  conditions : List RuleCondition := []
  actions : List RuleAction := []
  deriving DecidableEq

inductive RuleError where
  | unknownField (field : Bytes)
  | unknownOp (op : Bytes)
  | deleteWithLabel
  | missingLabel
  | missingForward
  | forwardNewline
  | forwardAt
  | unknownAction (kind : Bytes)
  deriving DecidableEq

inductive CompileError where
  | conditions (rule : Int) (cause : RuleError)
  | actions (rule : Int) (cause : RuleError)
  | parse (cause : ParseError)
  | validation (cause : ValidationError)
  deriving DecidableEq

inductive ConditionField where
  | sender
  | recipient
  | subject
  | hasAttachment
  | threadId
  | senderDomain
  deriving DecidableEq

def conditionFields : List (Bytes × ConditionField) :=
  [ ("from", .sender), ("to", .recipient), ("subject", .subject),
    ("has-attachment", .hasAttachment), ("thread-id", .threadId),
    ("from-domain", .senderDomain) ].map fun row => (ascii row.1, row.2)

inductive ConditionOp where
  | contains
  | equals
  | wildcardMatch
  deriving DecidableEq

def conditionOps : List (Bytes × ConditionOp) :=
  [ ("contains", .contains), ("equals", .equals),
    ("wildcard-match", .wildcardMatch) ].map fun row => (ascii row.1, row.2)

inductive ActionKind where
  | applyLabel
  | skipInbox
  | markRead
  | delete
  | forward
  | neverSpam
  deriving DecidableEq

def actionKinds : List (Bytes × ActionKind) :=
  [ ("apply-label", .applyLabel), ("skip-inbox", .skipInbox), ("mark-read", .markRead),
    ("delete", .delete), ("forward", .forward),
    ("never-spam", .neverSpam) ].map fun row => (ascii row.1, row.2)

def RuleAction.kindOf (action : RuleAction) : Option ActionKind := actionKinds.lookup action.kind

def xHeroldThreadIdHeader : Bytes := ascii "X-Herold-Thread-Id"

/-- One rune inside a literal. Control characters become the replacement rune. -/
def quoteRune (rune : Rune) : Bytes :=
  if rune = 34 then [92, 34]
  else if rune = 92 then [92, 92]
  else if rune < 0x20 ∨ rune = 0x7F then encodeRune 0xFFFD
  else encodeRune rune

def sieveQuote (text : Bytes) : Bytes :=
  34 :: ((runes text).flatMap fun rune => quoteRune rune.1) ++ [34]

/-- `validateConditionField`. -/
def conditionField (field : Bytes) : Except RuleError ConditionField :=
  match conditionFields.lookup field with
  | some known => .ok known
  | none => .error (.unknownField field)

/-- `validateConditionOp`. -/
def conditionOp (op : Bytes) : Except RuleError ConditionOp :=
  match conditionOps.lookup op with
  | some known => .ok known
  | none => .error (.unknownOp op)

def compileMatchOp : ConditionOp → Bytes
  | .equals => ascii ":is"
  | .contains => ascii ":contains"
  | .wildcardMatch => ascii ":matches"

def compileTest (field : ConditionField) (op : ConditionOp) (value : Bytes) : Bytes :=
  match field with
  | .sender =>
    ascii "address " ++ compileMatchOp op ++ ascii " :all \"From\" " ++ sieveQuote value
  | .recipient =>
    ascii "address " ++ compileMatchOp op ++ ascii " :all \"To\" " ++ sieveQuote value
  | .subject => ascii "header " ++ compileMatchOp op ++ ascii " \"Subject\" " ++ sieveQuote value
  | .hasAttachment => ascii "header :contains \"Content-Type\" \"multipart\""
  | .threadId =>
    ascii "header " ++ compileMatchOp op ++ ascii " " ++ sieveQuote xHeroldThreadIdHeader ++
      ascii " " ++ sieveQuote value
  | .senderDomain =>
    ascii "address :matches :domain \"From\" [" ++ sieveQuote value ++ ascii ", " ++
      sieveQuote (ascii "*." ++ value) ++ ascii "]"

def compileSingleCondition (condition : RuleCondition) : Except RuleError Bytes := do
  let field ← conditionField condition.field
  let op ← conditionOp condition.op
  .ok (compileTest field op condition.value)

def compileConditions (conditions : List RuleCondition) : Except RuleError Bytes := do
  match ← conditions.mapM compileSingleCondition with
  | [] => .ok (ascii "true")
  | [test] => .ok test
  | tests => .ok (ascii "allof (" ++ List.intercalate (ascii ",\n        ") tests ++ ascii ")")

def hasKind (kind : ActionKind) (actions : List RuleAction) : Bool :=
  actions.any fun action => action.kindOf = some kind

def hasUnconditionalRoute (actions : List RuleAction) : Bool :=
  hasKind .skipInbox actions || hasKind .delete actions || hasKind .forward actions

def needsGuard (actions : List RuleAction) : Bool :=
  hasKind .neverSpam actions && !hasUnconditionalRoute actions

def neverSpamGuardBlock : Bytes :=
  ascii "  if anyof (string :is \"$\x7bspam.verdict\x7d\" \"spam\",\n" ++
    ascii "             string :is \"$\x7bspam.verdict\x7d\" \"suspect\") \x7b\n" ++
    ascii "    keep;\n" ++ ascii "  \x7d\n"

def validateActions (actions : List RuleAction) : Except RuleError Unit :=
  if hasKind .delete actions && hasKind .applyLabel actions then .error .deleteWithLabel
  else .ok ()

def validateForwardAddress (address : Bytes) : Except RuleError Unit :=
  if containsAny address [13, 10] then .error .forwardNewline
  else if address.count 64 ≠ 1 then .error .forwardAt
  else .ok ()

def actionStringParam (params : Params) (key : String) : Option Bytes :=
  (params.lookup (ascii key)).getD none

def requiredParam (params : Params) (key : String) (failure : RuleError) : Except RuleError Bytes :=
  match actionStringParam params key with
  | none => .error failure
  | some value => if value = [] then .error failure else .ok value

/-- The command of one action, when it has one of its own beside the others of
the rule. -/
def compileSingleAction (action : RuleAction) (hasApplyLabel hasSkipInbox : Bool) :
    Except RuleError (Option Bytes) :=
  match action.kindOf with
  | some .applyLabel => do
      let label ← requiredParam action.params "label" .missingLabel
      if hasSkipInbox then .ok (some (ascii "fileinto " ++ sieveQuote label))
      else .ok (some (ascii "fileinto :copy " ++ sieveQuote label))
  | some .skipInbox =>
    if hasApplyLabel then .ok none
    else .ok (some (ascii "fileinto " ++ sieveQuote (ascii "Archive")))
  | some .markRead => .ok (some (ascii "addflag \"\\\\Seen\""))
  | some .delete => .ok (some (ascii "fileinto " ++ sieveQuote (ascii "Trash")))
  | some .forward => do
      let address ← requiredParam action.params "to" .missingForward
      validateForwardAddress address
      .ok (some (ascii "redirect " ++ sieveQuote address))
  -- the guard of a never-spam action follows the other actions
  | some .neverSpam => .ok none
  | none => .error (.unknownAction action.kind)

def actionLine : Option Bytes → Bytes
  | none => []
  | some command => ascii "  " ++ command ++ ascii ";\n"

def compileActions (actions : List RuleAction) : Except RuleError Bytes := do
  validateActions actions
  let commands ← actions.mapM fun action =>
    compileSingleAction action (hasKind .applyLabel actions) (hasKind .skipInbox actions)
  .ok (commands.flatMap actionLine ++ if needsGuard actions then neverSpamGuardBlock else [])

def actionExtensions (actions : List RuleAction) (action : RuleAction) : List Bytes :=
  match action.kindOf with
  | some .applyLabel =>
    ascii "fileinto" :: if hasKind .skipInbox actions then [] else [ascii "copy"]
  | some .skipInbox => if hasKind .applyLabel actions then [] else [ascii "fileinto"]
  | some .markRead => [ascii "imap4flags"]
  | some .delete => [ascii "fileinto"]
  | some .neverSpam => if hasUnconditionalRoute actions then [] else [ascii "variables"]
  | _ => []

def ruleExtensions (rule : ManagedRule) : List Bytes :=
  rule.actions.flatMap (actionExtensions rule.actions)

/-- Every extension a compiled rule can need, as `sort.Strings` orders them. -/
def managedExtensions : List Bytes := ["copy", "fileinto", "imap4flags", "variables"].map ascii

def requiredExtensions (rules : List ManagedRule) : List Bytes :=
  managedExtensions.filter fun extension => (rules.flatMap ruleExtensions).contains extension

def requireLine (extensions : List Bytes) : Bytes :=
  if extensions = [] then []
  else ascii "require [" ++ List.intercalate (ascii ", ") (extensions.map sieveQuote) ++ ascii "];\n"

def compileRule (rule : ManagedRule) : Except CompileError Bytes := do
  let condition ← (compileConditions rule.conditions).mapError (.conditions rule.id)
  let body ← (compileActions rule.actions).mapError (.actions rule.id)
  .ok (ascii "if " ++ condition ++ ascii " \x7b\n" ++ body ++ ascii "\x7d\n")

def RuleOrder (first second : ManagedRule) : Prop :=
  first.sortOrder < second.sortOrder ∨ first.sortOrder = second.sortOrder ∧ first.id ≤ second.id

instance : DecidableRel RuleOrder := fun first second =>
  inferInstanceAs (Decidable (first.sortOrder < second.sortOrder ∨
    first.sortOrder = second.sortOrder ∧ first.id ≤ second.id))

def enabledRules (rules : List ManagedRule) : List ManagedRule :=
  (rules.insertionSort RuleOrder).filter fun rule => rule.enabled

def rulesScript (rules : List ManagedRule) : Except CompileError Bytes := do
  let texts ← rules.mapM compileRule
  .ok (requireLine (requiredExtensions rules) ++ texts.flatten)

/-- `CompileRules`. The script is parsed and validated before it is returned. -/
def compileRules (rules : List ManagedRule) : Except CompileError Bytes :=
  if enabledRules rules = [] then .ok []
  else do
    let script ← rulesScript (enabledRules rules)
    let parsed ← (parse script).mapError .parse
    (validate parsed).mapError .validation
    .ok script

end Herold.Sieve

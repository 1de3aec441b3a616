import Herold.Sieve.Compiled

/-!
# What a user's strings can do to a compiled script

A tree without the contents of its literals is its shape. The shape of a compiled
script depends on the rules' fields, operators and kinds of action alone, so no
string of a user can add a command, a test or an argument.
-/

namespace Herold.Sieve

open Herold.Go

def Argument.erased : Argument → Argument
  | .tag name => .tag name
  | .string _ => .string []
  | .number value => .number value
  | .stringList items => .stringList (items.map fun _ => [])

mutual

def Test.erased : Test → Test
  | ⟨name, args, children⟩ => ⟨name, args.map Argument.erased, erasedTests children⟩

def erasedTests : List Test → List Test
  | [] => []
  | test :: tests => test.erased :: erasedTests tests

end

mutual

def Command.erased : Command → Command
  | ⟨name, args, test, block⟩ =>
    ⟨name, args.map Argument.erased, test.map Test.erased, erasedCommands block⟩

def erasedCommands : List Command → List Command
  | [] => []
  | command :: commands => command.erased :: erasedCommands commands

end

def Script.erased (script : Script) : Script := ⟨script.requires, erasedCommands script.commands⟩

def ManagedRule.blank (rule : ManagedRule) : ManagedRule :=
  { rule with
    name := []
    conditions := rule.conditions.map fun condition => { condition with value := [] }
    actions := rule.actions.map fun action => { action with params := [] } }

theorem erased_tests_map (tests : List Test) : erasedTests tests = tests.map Test.erased := by
  induction tests with
  | nil => rfl
  | cons test tests ih => rw [erasedTests, ih, List.map_cons]

theorem erased_commands_map (commands : List Command) :
    erasedCommands commands = commands.map Command.erased := by
  induction commands with
  | nil => rfl
  | cons command commands ih => rw [erasedCommands, ih, List.map_cons]

theorem condition_shape (field : ConditionField) (op : ConditionOp) (value : Bytes) :
    (conditionTest field op value).erased = (conditionTest field op []).erased := by
  cases field <;> rfl

theorem conditions_shape (conditions : List RuleCondition) :
    (conditions.filterMap RuleCondition.test?).map Test.erased =
      ((conditions.map fun condition => { condition with value := [] }).filterMap
        RuleCondition.test?).map Test.erased := by
  induction conditions with
  | nil => rfl
  | cons condition conditions ih =>
    rw [List.map_cons, List.filterMap_cons, List.filterMap_cons]
    simp only [RuleCondition.test?]
    cases conditionFields.lookup condition.field with
    | none => exact ih
    | some field =>
      cases conditionOps.lookup condition.op with
      | none => exact ih
      | some op =>
        simp only [Option.bind_eq_bind, Option.bind_some, List.map_cons]
        rw [condition_shape field op condition.value]
        exact congrArg _ ih

theorem conjunction_shape {tests others : List Test}
    (same : tests.map Test.erased = others.map Test.erased) :
    (conjunction tests).erased = (conjunction others).erased := by
  match tests, others, same with
  | [], [], _ => rfl
  | [test], [other], same => exact (List.cons.inj same).1
  | [_], _ :: _ :: _, same => cases (List.cons.inj same).2
  | _ :: _ :: _, [_], same => cases (List.cons.inj same).2
  | first :: second :: tests, third :: fourth :: others, same =>
    simp only [conjunction, Test.erased, erased_tests_map, same]

theorem has_kind_blank (kind : ActionKind) (actions : List RuleAction) :
    hasKind kind (actions.map fun action => { action with params := [] }) = hasKind kind actions := by
  simp only [hasKind, List.any_map]
  rfl

theorem action_shape (actions : List RuleAction) (action : RuleAction) :
    (actionCommand actions action).map Command.erased =
      (actionCommand (actions.map fun action => { action with params := [] })
        { action with params := [] }).map Command.erased := by
  unfold actionCommand
  rw [has_kind_blank, has_kind_blank]
  rw [show ({ action with params := [] } : RuleAction).kindOf = action.kindOf from rfl]
  cases action.kindOf with
  | none => rfl
  | some kind => cases kind <;> first | rfl | (split_ifs <;> rfl)

theorem block_shape (actions : List RuleAction) :
    (ruleBlock actions).map Command.erased =
      (ruleBlock (actions.map fun action => { action with params := [] })).map Command.erased := by
  have guarded : needsGuard (actions.map fun action => { action with params := [] }) =
      needsGuard actions := by
    simp only [needsGuard, hasUnconditionalRoute, has_kind_blank]
  rw [ruleBlock, ruleBlock, guarded, List.map_append, List.map_append]
  congr 1
  rw [List.map_filterMap, List.map_filterMap, List.filterMap_map]
  exact List.filterMap_congr fun action _ => action_shape actions action

theorem rule_shape (rule : ManagedRule) :
    (ruleCommand rule).erased = (ruleCommand rule.blank).erased := by
  have tests := conjunction_shape (conditions_shape rule.conditions)
  simp only [ruleCommand, Command.erased, erased_commands_map, Option.map_some, conditionsTest,
    ManagedRule.blank, tests, block_shape rule.actions]

theorem extensions_blank (rules : List ManagedRule) :
    requiredExtensions (rules.map ManagedRule.blank) = requiredExtensions rules := by
  have rule : ∀ rule : ManagedRule, ruleExtensions rule.blank = ruleExtensions rule := by
    intro rule
    simp only [ruleExtensions, ManagedRule.blank, List.flatMap_map]
    refine List.flatMap_congr fun action _ => ?_
    simp only [actionExtensions, has_kind_blank, hasUnconditionalRoute, RuleAction.kindOf]
    rfl
  have all : (rules.map ManagedRule.blank).flatMap ruleExtensions = rules.flatMap ruleExtensions := by
    rw [List.flatMap_map]
    exact List.flatMap_congr fun rule' _ => rule rule'
  rw [requiredExtensions, requiredExtensions, all]

theorem enabled_rules_blank (rules : List ManagedRule) :
    enabledRules (rules.map ManagedRule.blank) = (enabledRules rules).map ManagedRule.blank := by
  have sorted : (rules.map ManagedRule.blank).insertionSort RuleOrder =
      (rules.insertionSort RuleOrder).map ManagedRule.blank :=
    (List.map_insertionSort RuleOrder RuleOrder ManagedRule.blank rules
      fun _ _ _ _ => Iff.rfl).symm
  rw [enabledRules, enabledRules, sorted, List.filter_map]
  rfl

theorem tree_shape (rules : List ManagedRule) :
    (rulesTree rules).erased = (rulesTree (rules.map ManagedRule.blank)).erased := by
  simp only [rulesTree, Script.erased, enabled_rules_blank, extensions_blank, erased_commands_map,
    List.map_map]
  congr 1
  exact List.map_congr_left fun rule _ => rule_shape rule

instance : Std.Total RuleOrder where
  total first second := by
    simp only [RuleOrder]
    omega

instance : IsTrans ManagedRule RuleOrder where
  trans first second third := by
    simp only [RuleOrder]
    omega

/-- A script `CompileRules` wrote is read as one `if` command for each enabled
rule, in the order of the rules. What the commands, tests and arguments are is
told by the rules without the strings of the user, so rules that differ in such
strings only compile to scripts of one shape. -/
theorem compiled_rules_keep_their_shape (rules : List ManagedRule) (script : Bytes)
    (compiled : compileRules rules = .ok script) :
    ∃ tree, parse script = .ok tree ∧
      (enabledRules rules).Pairwise RuleOrder ∧
      (enabledRules rules).Perm (rules.filter fun rule => rule.enabled) ∧
      tree.commands.map Command.name = (enabledRules rules).map (fun _ => ascii "if") ∧
      tree.requires = requiredExtensions ((enabledRules rules).map ManagedRule.blank) ∧
      tree.commands.map Command.erased =
        (enabledRules rules).map (fun rule => (ruleCommand rule.blank).erased) ∧
      ∀ others otherScript, others.map ManagedRule.blank = rules.map ManagedRule.blank →
        compileRules others = .ok otherScript →
        ∃ otherTree, parse otherScript = .ok otherTree ∧ otherTree.erased = tree.erased := by
  refine ⟨rulesTree rules, (compiled_script_parses compiled).1, ?_, ?_, ?_, ?_, ?_, ?_⟩
  · exact (List.pairwise_insertionSort RuleOrder rules).filter _
  · exact (List.perm_insertionSort RuleOrder rules).filter _
  · rw [rulesTree, List.map_map]
    rfl
  · rw [extensions_blank]
    rfl
  · rw [rulesTree, List.map_map]
    exact List.map_congr_left fun rule _ => rule_shape rule
  · intro others otherScript same alsoCompiled
    refine ⟨rulesTree others, (compiled_script_parses alsoCompiled).1, ?_⟩
    rw [tree_shape others, same, ← tree_shape rules]

def hostileRule : ManagedRule where
  id := 1
  conditions := [⟨ascii "subject", ascii "equals", ascii "\" \x7b discard; # \\"⟩]
  actions := [⟨ascii "apply-label", [(ascii "label", some (ascii "a\"; stop; /*"))]⟩]

theorem hostile_rule_keeps_its_shape :
    ∃ script tree, compileRules [hostileRule] = .ok script ∧ parse script = .ok tree ∧
      tree.commands.map Command.name = [ascii "if"] ∧
      tree.commands.map Command.erased = [(ruleCommand hostileRule.blank).erased] := by
  have compiles : (compileRules [hostileRule]).isOk = true := by decide +kernel
  obtain ⟨script, compiled⟩ : ∃ script, compileRules [hostileRule] = .ok script := by
    cases ran : compileRules [hostileRule] with
    | error failure =>
      rw [ran] at compiles
      cases compiles
    | ok script => exact ⟨script, rfl⟩
  obtain ⟨tree, parsed, _, _, names, _, shapes, _⟩ :=
    compiled_rules_keep_their_shape [hostileRule] script compiled
  exact ⟨script, tree, compiled, parsed, names, shapes⟩

end Herold.Sieve

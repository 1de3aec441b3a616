import Herold.Sieve.Reading

/-!
# The syntax tree of compiled rules

A managed rule compiles to one `if` command: its test is the conjunction of the
conditions, its block holds a command for each action that needs one and the
guard of a never-spam action. Parsing the compiled text gives this tree back,
with each string of the user inside one literal.
-/

namespace Herold.Sieve

open Herold.Go Herold.Machine

def conditionArgs (field : ConditionField) (op : ConditionOp) (value : Bytes) : List Argument :=
  match field with
  | .sender =>
    [.tag (compileMatchOp op), .tag (ascii ":all"), .string (ascii "From"), .string (literal value)]
  | .recipient =>
    [.tag (compileMatchOp op), .tag (ascii ":all"), .string (ascii "To"), .string (literal value)]
  | .subject => [.tag (compileMatchOp op), .string (ascii "Subject"), .string (literal value)]
  | .hasAttachment =>
    [.tag (ascii ":contains"), .string (ascii "Content-Type"), .string (ascii "multipart")]
  | .threadId => [.tag (compileMatchOp op), .string xHeroldThreadIdHeader, .string (literal value)]
  | .senderDomain =>
    [.tag (ascii ":matches"), .tag (ascii ":domain"), .string (ascii "From"),
      .stringList [literal value, literal (ascii "*." ++ value)]]

def conditionTestName : ConditionField → Bytes
  | .sender => ascii "address"
  | .recipient => ascii "address"
  | .subject => ascii "header"
  | .hasAttachment => ascii "header"
  | .threadId => ascii "header"
  | .senderDomain => ascii "address"

def conditionTest (field : ConditionField) (op : ConditionOp) (value : Bytes) : Test :=
  ⟨conditionTestName field, conditionArgs field op value, []⟩

def RuleCondition.test? (condition : RuleCondition) : Option Test := do
  let field ← conditionFields.lookup condition.field
  let op ← conditionOps.lookup condition.op
  some (conditionTest field op condition.value)

def conjunction : List Test → Test
  | [] => ⟨ascii "true", [], []⟩
  | [test] => test
  | tests => ⟨ascii "allof", [], tests⟩

def conditionsTest (conditions : List RuleCondition) : Test :=
  conjunction (conditions.filterMap RuleCondition.test?)

def actionArgs (action : RuleAction) (key : String) : Argument :=
  .string (literal ((actionStringParam action.params key).getD []))

def actionCommand (actions : List RuleAction) (action : RuleAction) : Option Command :=
  match action.kindOf with
  | some .applyLabel =>
    if hasKind .skipInbox actions then some ⟨ascii "fileinto", [actionArgs action "label"], none, []⟩
    else some ⟨ascii "fileinto", [.tag (ascii ":copy"), actionArgs action "label"], none, []⟩
  | some .skipInbox =>
    if hasKind .applyLabel actions then none
    else some ⟨ascii "fileinto", [.string (ascii "Archive")], none, []⟩
  | some .markRead => some ⟨ascii "addflag", [.string (ascii "\\Seen")], none, []⟩
  | some .delete => some ⟨ascii "fileinto", [.string (ascii "Trash")], none, []⟩
  | some .forward => some ⟨ascii "redirect", [actionArgs action "to"], none, []⟩
  | some .neverSpam => none
  | none => none

def verdictTest (verdict : String) : Test :=
  ⟨ascii "string", [.tag (ascii ":is"), .string (ascii "$\x7bspam.verdict\x7d"),
    .string (ascii verdict)], []⟩

def guardCommand : Command :=
  ⟨ascii "if", [], some ⟨ascii "anyof", [], [verdictTest "spam", verdictTest "suspect"]⟩,
    [⟨ascii "keep", [], none, []⟩]⟩

def ruleBlock (actions : List RuleAction) : List Command :=
  actions.filterMap (actionCommand actions) ++ if needsGuard actions then [guardCommand] else []

def ruleCommand (rule : ManagedRule) : Command :=
  ⟨ascii "if", [], some (conditionsTest rule.conditions), ruleBlock rule.actions⟩

def rulesTree (rules : List ManagedRule) : Script :=
  ⟨requiredExtensions (enabledRules rules), (enabledRules rules).map ruleCommand⟩

def conditionItems (field : ConditionField) (op : ConditionOp) (value : Bytes) : List Item :=
  match field with
  | .sender =>
    [.tag ((compileMatchOp op).drop 1), .tag (ascii "all"), .quoted (ascii "From"), .quoted value]
  | .recipient =>
    [.tag ((compileMatchOp op).drop 1), .tag (ascii "all"), .quoted (ascii "To"), .quoted value]
  | .subject => [.tag ((compileMatchOp op).drop 1), .quoted (ascii "Subject"), .quoted value]
  | .hasAttachment =>
    [.tag (ascii "contains"), .quoted (ascii "Content-Type"), .quoted (ascii "multipart")]
  | .threadId =>
    [.tag ((compileMatchOp op).drop 1), .quoted xHeroldThreadIdHeader, .quoted value]
  | .senderDomain =>
    [.tag (ascii "matches"), .tag (ascii "domain"), .quoted (ascii "From"),
      .quotedList [value, ascii "*." ++ value]]

theorem condition_text (field : ConditionField) (op : ConditionOp) (value : Bytes) :
    compileTest field op value = conditionTestName field ++
      itemsText (conditionItems field op value) := by
  obtain ⟨name, named⟩ : ∃ name, compileMatchOp op = 58 :: name := by
    cases op <;> exact ⟨_, rfl⟩
  cases field <;>
    simp only [compileTest, itemsText, conditionItems, conditionTestName, named,
      List.drop_succ_cons, List.drop_zero,
      Item.text, List.flatMap_cons, List.flatMap_nil, List.map_cons, List.map_nil,
        List.intercalate_cons_cons,
      List.intercalate_singleton, List.append_nil, List.append_assoc] <;> rfl

theorem condition_arguments (field : ConditionField) (op : ConditionOp) (value : Bytes) :
    (conditionItems field op value).map Item.argument = conditionArgs field op value := by
  have names : literal (ascii "From") = ascii "From" ∧ literal (ascii "To") = ascii "To" ∧
      literal (ascii "Subject") = ascii "Subject" ∧
        literal (ascii "Content-Type") = ascii "Content-Type" ∧
          literal (ascii "multipart") = ascii "multipart" ∧
            literal xHeroldThreadIdHeader = xHeroldThreadIdHeader := by
    exact ⟨rfl, rfl, rfl, rfl, rfl, rfl⟩
  obtain ⟨sender, recipient, subject, contentType, multipart, thread⟩ := names
  cases field <;> cases op <;>
    simp only [conditionItems, conditionArgs, List.map_cons, List.map_nil, Item.argument, sender,
      recipient, subject, contentType, multipart, thread] <;> rfl

theorem condition_reads (depth : Nat) (field : ConditionField) (op : ConditionOp) (value : Bytes) :
    testHead (compileTest field op value) = true ∧
      ReadsTest depth (compileTest field op value) (conditionTest field op value) := by
  have name : isWord (conditionTestName field) = true ∧
      toLower (conditionTestName field) = conditionTestName field ∧
        specialTests.contains (conditionTestName field) = false ∧
          testHead (conditionTestName field) = true := by
    have address : isWord (ascii "address") = true ∧ toLower (ascii "address") = ascii "address" ∧
        specialTests.contains (ascii "address") = false ∧ testHead (ascii "address") = true := by
      exact ⟨rfl, rfl, rfl, rfl⟩
    have header : isWord (ascii "header") = true ∧ toLower (ascii "header") = ascii "header" ∧
        specialTests.contains (ascii "header") = false ∧ testHead (ascii "header") = true := by
      exact ⟨rfl, rfl, rfl, rfl⟩
    cases field
    all_goals first | exact address | exact header
  have plain : ∀ item ∈ conditionItems field op value, item.isPlain = true := by
    cases field <;> cases op <;> simp [conditionItems, Item.isPlain] <;> decide
  have reads := leaf_test_reads depth (conditionTestName field) (conditionItems field op value) name.1
    (by rw [name.2.1]; exact name.2.2.1) plain
  rw [name.2.1, condition_arguments, ← condition_text] at reads
  refine ⟨?_, reads⟩
  rw [condition_text]
  cases field <;> rfl

theorem conditions_read {conditions : List RuleCondition} {texts : List Bytes}
    (compiled : List.Forall₂ (fun condition text => compileSingleCondition condition = .ok text)
      conditions texts) :
    ∃ tests : List (Bytes × Test), tests.map Prod.fst = texts ∧
      tests.map Prod.snd = conditions.filterMap RuleCondition.test? ∧
        ∀ test ∈ tests, ∀ depth, testHead test.1 = true ∧ ReadsTest depth test.1 test.2 := by
  induction compiled with
  | nil => exact ⟨[], rfl, rfl, by simp⟩
  | @cons condition text conditions texts first _ ih =>
    obtain ⟨tests, written, trees, read⟩ := ih
    obtain ⟨field, knownField, later⟩ := bind_ok first
    obtain ⟨op, knownOp, ended⟩ := bind_ok later
    have fieldRow : conditionFields.lookup condition.field = some field := by
      unfold conditionField at knownField
      split at knownField
      · rename_i known found
        rw [found, ← Except.ok.inj knownField]
      · cases knownField
    have opRow : conditionOps.lookup condition.op = some op := by
      unfold conditionOp at knownOp
      split at knownOp
      · rename_i known found
        rw [found, ← Except.ok.inj knownOp]
      · cases knownOp
    have row : condition.test? = some (conditionTest field op condition.value) := by
      simp [RuleCondition.test?, fieldRow, opRow]
    refine ⟨(text, conditionTest field op condition.value) :: tests, ?_, ?_, ?_⟩
    · rw [List.map_cons, written]
    · rw [List.map_cons, trees, List.filterMap_cons, row]
    · intro test member depth
      rcases List.mem_cons.mp member with rfl | later
      · rw [← Except.ok.inj ended]
        exact condition_reads depth field op condition.value
      · exact read test later depth

theorem compiled_conditions_read {conditions : List RuleCondition} {text : Bytes}
    (compiled : compileConditions conditions = .ok text) :
    testHead text = true ∧ ReadsTest 0 text (conditionsTest conditions) := by
  obtain ⟨texts, mapped, joined⟩ := bind_ok compiled
  obtain ⟨tests, rfl, trees, read⟩ := conditions_read (map_ok mapped)
  rw [conditionsTest, ← trees]
  match tests, joined with
  | [], joined =>
    cases joined
    exact ⟨rfl, true_test_reads 0⟩
  | [test], joined =>
    cases joined
    exact read test (by simp) 0
  | first :: second :: more, joined =>
    cases joined
    exact ⟨rfl, group_test_reads 0 (ascii "allof") (ascii "\n        ") (by decide) (by decide)
      (first :: second :: more) (by decide) fun test member => read test member 1⟩

def WritesCommand (text : Bytes) (command : Command) : Prop :=
  (∀ rest, isIdentStart (peek (runes (text ++ rest))) = true) ∧ ∀ depth, ReadsCommand depth text command

theorem writes_simple (name : Bytes) (items : List Item) (wordly : isWord name = true)
    (plain : ∀ item ∈ items, item.isPlain = true) :
    WritesCommand (name ++ itemsText items ++ [59])
      ⟨toLower name, items.map Item.argument, none, []⟩ := by
  refine ⟨?_, fun depth => simple_command_reads depth name items wordly plain⟩
  intro rest
  rw [List.append_assoc, List.append_assoc]
  exact word_begins_token name wordly _

theorem required_param_ok {params : Params} {key : String} {failure : RuleError} {value : Bytes}
    (given : requiredParam params key failure = .ok value) :
    (actionStringParam params key).getD [] = value := by
  unfold requiredParam at given
  split at given
  · cases given
  · rename_i found present
    split at given
    · cases given
    · rw [present, ← Except.ok.inj given]
      rfl

/-- The text of an action is read as its command; an action without a text has
none. -/
theorem action_reads {actions : List RuleAction} {action : RuleAction} {written : Option Bytes}
    (compiled : compileSingleAction action (hasKind .applyLabel actions) (hasKind .skipInbox actions) =
      .ok written) :
    (written = none ∧ actionCommand actions action = none) ∨
      ∃ text command, written = some text ∧ actionCommand actions action = some command ∧
        WritesCommand (text ++ [59]) command := by
  have fixed : literal (ascii "Archive") = ascii "Archive" ∧ literal (ascii "Trash") = ascii "Trash" ∧
      literal (ascii "\\Seen") = ascii "\\Seen" := ⟨rfl, rfl, rfl⟩
  have fileinto : ∀ mailbox : Bytes, WritesCommand (ascii "fileinto " ++ sieveQuote mailbox ++ [59])
      ⟨ascii "fileinto", [.string (literal mailbox)], none, []⟩ := by
    intro mailbox
    have writes := writes_simple (ascii "fileinto") [.quoted mailbox] (by decide)
      (by simp [Item.isPlain])
    simp only [itemsText, List.flatMap_cons, List.flatMap_nil, List.append_nil, Item.text] at writes
    exact writes
  unfold compileSingleAction at compiled
  unfold actionCommand
  cases kind : action.kindOf with
  | none =>
    rw [kind] at compiled
    cases compiled
  | some known =>
    rw [kind] at compiled
    cases known with
    | applyLabel =>
      obtain ⟨label, given, ended⟩ := bind_ok compiled
      have param := required_param_ok given
      by_cases skip : hasKind .skipInbox actions = true
      · rw [if_pos skip] at ended
        refine Or.inr ⟨_, _, (Except.ok.inj ended).symm, if_pos skip, ?_⟩
        rw [actionArgs, param]
        exact fileinto label
      · rw [if_neg skip] at ended
        refine Or.inr ⟨_, _, (Except.ok.inj ended).symm, if_neg skip, ?_⟩
        have writes := writes_simple (ascii "fileinto") [.tag (ascii "copy"), .quoted label]
          (by decide) (by simp [Item.isPlain]; decide)
        simp only [itemsText, List.flatMap_cons, List.flatMap_nil, List.append_nil,
          Item.text] at writes
        rw [actionArgs, param]
        exact writes
    | skipInbox =>
      by_cases label : hasKind .applyLabel actions = true
      · simp only [if_pos label] at compiled
        exact Or.inl ⟨(Except.ok.inj compiled).symm, if_pos label⟩
      · simp only [if_neg label] at compiled
        refine Or.inr ⟨_, _, (Except.ok.inj compiled).symm, if_neg label, ?_⟩
        have archive := fileinto (ascii "Archive")
        rw [fixed.1] at archive
        exact archive
    | markRead =>
      refine Or.inr ⟨_, _, (Except.ok.inj compiled).symm, rfl, ?_⟩
      have writes := writes_simple (ascii "addflag") [.quoted (ascii "\\Seen")] (by decide)
        (by simp [Item.isPlain])
      simp only [List.map_cons, List.map_nil, Item.argument, fixed.2.2] at writes
      exact writes
    | delete =>
      refine Or.inr ⟨_, _, (Except.ok.inj compiled).symm, rfl, ?_⟩
      have trash := fileinto (ascii "Trash")
      rw [fixed.2.1] at trash
      exact trash
    | forward =>
      obtain ⟨address, given, checked⟩ := bind_ok compiled
      obtain ⟨_, _, ended⟩ := bind_ok checked
      refine Or.inr ⟨_, _, (Except.ok.inj ended).symm, rfl, ?_⟩
      have writes := writes_simple (ascii "redirect") [.quoted address] (by decide)
        (by simp [Item.isPlain])
      simp only [itemsText, List.flatMap_cons, List.flatMap_nil, List.append_nil, Item.text] at writes
      rw [actionArgs, required_param_ok given]
      exact writes
    | neverSpam => exact Or.inl ⟨(Except.ok.inj compiled).symm, rfl⟩

theorem action_lines_read (actions : List RuleAction) (depth : Nat) {some : List RuleAction}
    {written : List (Option Bytes)} {tail : Bytes} {block : List Command}
    (compiled : List.Forall₂ (fun action text => compileSingleAction action
      (hasKind .applyLabel actions) (hasKind .skipInbox actions) = .ok text) some written)
    (later : ReadsBlock depth tail block) :
    ReadsBlock depth (written.flatMap actionLine ++ tail)
      (some.filterMap (actionCommand actions) ++ block) := by
  induction compiled with
  | nil => exact later
  | @cons action line some written first _ ih =>
    rw [List.flatMap_cons, List.filterMap_cons]
    rcases action_reads first with ⟨rfl, absent⟩ | ⟨text, command, rfl, present, starts, reads⟩
    · rw [absent]
      exact ih
    · rw [present]
      have line : actionLine (.some text) ++ written.flatMap actionLine ++ tail =
          ascii "  " ++ ((text ++ [59]) ++ ([10] ++ (written.flatMap actionLine ++ tail))) := by
        simp only [actionLine, List.append_assoc]
        rfl
      rw [line]
      refine blank_block_reads depth (ascii "  ") _ _ (by decide) ?_
      refine block_reads depth (text ++ [59]) _ command _ starts (reads depth) ?_
      exact blank_block_reads depth [10] _ _ rfl ih

theorem verdict_test_reads (depth : Nat) (verdict : String)
    (plain : literal (ascii verdict) = ascii verdict) :
    ReadsTest depth (ascii "string :is \"$\x7bspam.verdict\x7d\" " ++ sieveQuote (ascii verdict))
      (verdictTest verdict) := by
  have reads := leaf_test_reads depth (ascii "string")
    [.tag (ascii "is"), .quoted (ascii "$\x7bspam.verdict\x7d"), .quoted (ascii verdict)] (by decide)
    rfl (by simp [Item.isPlain]; decide)
  have verdictLiteral : literal (ascii "$\x7bspam.verdict\x7d") = ascii "$\x7bspam.verdict\x7d" := rfl
  simp only [itemsText, List.flatMap_cons, List.flatMap_nil, List.append_nil, Item.text, List.map_cons,
    List.map_nil, Item.argument, plain, verdictLiteral] at reads
  exact reads

theorem guard_reads : ReadsBlock 1 neverSpamGuardBlock [guardCommand] := by
  let tests : List (Bytes × Test) :=
    [ (ascii "string :is \"$\x7bspam.verdict\x7d\" " ++ sieveQuote (ascii "spam"), verdictTest "spam"),
      (ascii "string :is \"$\x7bspam.verdict\x7d\" " ++ sieveQuote (ascii "suspect"),
        verdictTest "suspect") ]
  have read : ∀ test ∈ tests, testHead test.1 = true ∧ ReadsTest 2 test.1 test.2 := by
    intro test member
    rcases List.mem_cons.mp member with rfl | member
    · exact ⟨rfl, verdict_test_reads 2 "spam" rfl⟩
    · rw [List.mem_singleton.mp member]
      exact ⟨rfl, verdict_test_reads 2 "suspect" rfl⟩
  have tested := group_test_reads 1 (ascii "anyof") (ascii "\n             ") (by decide)
    (by decide) tests
    (by decide) read
  have keeps : ReadsBlock 2 (ascii "    keep;\n  ") [⟨ascii "keep", [], none, []⟩] := by
    refine blank_block_reads 2 (ascii "    ") (ascii "keep;\n  ") _ (by decide) ?_
    obtain ⟨starts, reads⟩ := writes_simple (ascii "keep") [] (by decide) (by simp)
    refine block_reads 2 (ascii "keep;") (ascii "\n  ") _ [] starts (reads 2) ?_
    exact blank_block_reads 2 (ascii "\n  ") [] [] (by decide) (empty_block_reads 2)
  have guarded := if_command_reads 1 _ _ _ _ (by decide) rfl tested keeps
  refine blank_block_reads 1 (ascii "  ") _ _ (by decide) ?_
  refine block_reads 1 _ (ascii "\n") guardCommand [] ?_ guarded ?_
  · intro rest
    exact word_begins_token (ascii "if") (by decide) _
  · exact blank_block_reads 1 (ascii "\n") [] [] (by decide) (empty_block_reads 1)

theorem compiled_actions_read {actions : List RuleAction} {text : Bytes}
    (compiled : compileActions actions = .ok text) : ReadsBlock 1 text (ruleBlock actions) := by
  obtain ⟨_, _, ran⟩ := bind_ok compiled
  obtain ⟨written, mapped, ended⟩ := bind_ok ran
  rw [← Except.ok.inj ended, ruleBlock]
  refine action_lines_read actions 1 (map_ok mapped) ?_
  split
  · exact guard_reads
  · exact empty_block_reads 1

theorem rule_reads {rule : ManagedRule} {text : Bytes} (compiled : compileRule rule = .ok text)
    {rest : Bytes} {script : Script}
    (later : Settles (fun fuel => scriptFrom fuel (runes rest)) script) :
    Settles (fun fuel => scriptFrom fuel (runes (text ++ rest)))
      { script with commands := ruleCommand rule :: script.commands } := by
  obtain ⟨condition, conditioned, ran⟩ := bind_ok compiled
  obtain ⟨body, acted, ended⟩ := bind_ok ran
  obtain ⟨head, tested⟩ := compiled_conditions_read (map_error_ok conditioned)
  have reads := if_command_reads 0 condition body _ _ (by decide) head tested
    (compiled_actions_read (map_error_ok acted))
  have written : text ++ rest =
      (ascii "if " ++ condition ++ ascii " \x7b\n" ++ body ++ ascii "\x7d") ++ ([10] ++ rest) := by
    rw [← Except.ok.inj ended]
    simp only [List.append_assoc]
    rfl
  rw [written]
  refine script_reads _ _ (ruleCommand rule) script ?_ ?_ reads ?_
  · intro rest
    simp only [List.append_assoc]
    exact word_begins_token (ascii "if") (by decide) _
  · show ascii "if" ≠ ascii "require"
    decide
  · simp only [script_blank _ [10] rest rfl]
    exact later

section

variable {rules : List ManagedRule} {text : Bytes}

theorem rules_read {texts : List Bytes}
    (compiled : List.Forall₂ (fun rule text => compileRule rule = .ok text) rules texts)
    {rest : Bytes} {script : Script}
    (later : Settles (fun fuel => scriptFrom fuel (runes rest)) script) :
    Settles (fun fuel => scriptFrom fuel (runes (texts.flatten ++ rest)))
      { script with commands := rules.map ruleCommand ++ script.commands } := by
  induction compiled with
  | nil => exact later
  | cons first _ ih =>
    rw [List.flatten_cons, List.append_assoc]
    exact rule_reads first ih

theorem extension_literals (rules : List ManagedRule) :
    (requiredExtensions rules).map literal = requiredExtensions rules := by
  have plain : ∀ extension ∈ managedExtensions, literal extension = extension := by decide +kernel
  calc
    (requiredExtensions rules).map literal = (requiredExtensions rules).map id :=
      List.map_congr_left fun extension member => plain extension (List.mem_of_mem_filter member)
    _ = requiredExtensions rules := List.map_id _

theorem require_line_reads (rules : List ManagedRule) {rest : Bytes} {script : Script}
    (later : Settles (fun fuel => scriptFrom fuel (runes rest)) script) :
    Settles (fun fuel => scriptFrom fuel (runes (requireLine (requiredExtensions rules) ++ rest)))
      { script with requires := requiredExtensions rules ++ script.requires } := by
  by_cases none : requiredExtensions rules = []
  · rw [requireLine, none, if_pos rfl]
    exact later
  · have reads := writes_simple (ascii "require") [.quotedList (requiredExtensions rules)] (by decide)
      (by simp [Item.isPlain])
    have written : requireLine (requiredExtensions rules) ++ rest =
        (ascii "require" ++ itemsText [.quotedList (requiredExtensions rules)] ++ [59]) ++
          ([10] ++ rest) := by
      rw [requireLine, if_neg none]
      simp only [itemsText, List.flatMap_cons, List.flatMap_nil, List.append_nil, Item.text,
        List.append_assoc, List.cons_append]
      rfl
    rw [written]
    refine script_requires _ _ _ (requiredExtensions rules) script reads.1 (by rfl) ?_ (reads.2 0) ?_
    · simp only [List.map_cons, List.map_nil, Item.argument, extension_literals]
      rfl
    · simp only [script_blank _ [10] rest rfl]
      exact later

theorem rules_script_reads (compiled : rulesScript rules = .ok text) {rest : Bytes} {script : Script}
    (later : Settles (fun fuel => scriptFrom fuel (runes rest)) script) :
    Settles (fun fuel => scriptFrom fuel (runes (text ++ rest)))
      ⟨requiredExtensions rules ++ script.requires, rules.map ruleCommand ++ script.commands⟩ := by
  obtain ⟨texts, mapped, ended⟩ := bind_ok compiled
  rw [← Except.ok.inj ended, List.append_assoc]
  exact require_line_reads rules (rules_read (map_ok mapped) later)

theorem empty_script_settles : Settles (fun fuel => scriptFrom fuel (runes [])) ⟨[], []⟩ :=
  @parse_settles [] ⟨[], []⟩ (by rfl)

/-- What `CompileRules` wrote, before another script. -/
theorem compiled_script_reads (compiled : compileRules rules = .ok text) {rest : Bytes}
    {script : Script}
    (later : Settles (fun fuel => scriptFrom fuel (runes rest)) script) :
    Settles (fun fuel => scriptFrom fuel (runes (text ++ rest)))
      ⟨(rulesTree rules).requires ++ script.requires,
        (rulesTree rules).commands ++ script.commands⟩ := by
  unfold compileRules at compiled
  split at compiled
  · rename_i none
    rw [← Except.ok.inj compiled, rulesTree, none]
    exact later
  · obtain ⟨found, written, checked⟩ := bind_ok compiled
    obtain ⟨parsed, _, validated⟩ := bind_ok checked
    obtain ⟨_, _, ended⟩ := bind_ok validated
    rw [← Except.ok.inj ended]
    exact rules_script_reads written later

theorem compiled_script_parses (compiled : compileRules rules = .ok text) :
    parse text = .ok (rulesTree rules) ∧ validate (rulesTree rules) = .ok () := by
  have reads := compiled_script_reads compiled empty_script_settles
  rw [List.append_nil, List.append_nil, List.append_nil] at reads
  unfold compileRules at compiled
  split at compiled
  · rename_i none
    rw [← Except.ok.inj compiled, rulesTree, none]
    exact ⟨by rfl, by rfl⟩
  · obtain ⟨found, written, checked⟩ := bind_ok compiled
    obtain ⟨tree, parsed, validated⟩ := bind_ok checked
    obtain ⟨_, valid, ended⟩ := bind_ok validated
    have same : found = text := Except.ok.inj ended
    rw [same] at parsed
    have parses := map_error_ok parsed
    have unique := settles_unique (parse_settles parses) reads
    rw [unique] at parses valid
    exact ⟨parses, map_error_ok valid⟩

end

end Herold.Sieve

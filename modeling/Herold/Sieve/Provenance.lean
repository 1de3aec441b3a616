import Herold.Sieve.Interp

/-!
# Where actions come from

Every action in an outcome was recorded by a command of the script that records
actions of its kind. This holds in the middle of a run and after an error too,
so it is proved as an invariant of the interpreter.
-/

namespace Herold.Sieve

open Herold.Go Herold.Mail Herold.Machine Exchange

set_option linter.unusedSectionVars false

mutual

def Command.within : Command → List Command
  | ⟨name, args, test, block⟩ => ⟨name, args, test, block⟩ :: commandsWithin block

def commandsWithin : List Command → List Command
  | [] => []
  | command :: commands => command.within ++ commandsWithin commands

end

def Action.recordedBy : Action → CommandName
  | .keep => .keep
  | .discard => .discard
  | .fileInto .. => .fileinto
  | .redirect .. => .redirect
  | .reject _ => .reject
  | .vacation .. => .vacation
  | .flag change _ => .flag change
  | .notify .. => .notify
  | .addHeader .. => .addheader
  | .deleteHeader _ => .deleteheader
  | .replace .. => .replace
  | .enclose .. => .enclose

def Command.kind (command : Command) : Option CommandName := commandNames.lookup command.name

def Recorded (kinds : List CommandName) (state : State) : Prop :=
  ∀ action ∈ state.outcome.actions, action.recordedBy ∈ kinds

/-- An invariant of the interpreter that depends on the recorded actions and on the
flags only, and that a recorded action of one of the kinds keeps. -/
structure Bookkeeping (kinds : List CommandName) (invariant : State → Prop) : Prop where
  aside : ∀ state other : State, other.outcome.actions = state.outcome.actions →
    other.flags = state.flags →
    invariant state → invariant other
  records : ∀ (state : State) (action : Action), action.recordedBy ∈ kinds → invariant state →
    invariant (record action state)

theorem recorded_bookkeeping (kinds : List CommandName) : Bookkeeping kinds (Recorded kinds) where
  aside := by
    intro state other same _ holds action member
    rw [same] at member
    exact holds action member
  records := by
    intro state action allowed holds recorded member
    simp only [record, List.mem_append, List.mem_singleton] at member
    rcases member with earlier | rfl
    · exact holds recorded earlier
    · exact allowed

variable (context : Context) {kinds : List CommandName} {invariant : State → Prop}
  (book : Bookkeeping kinds invariant)

include book

theorem charge_keeps_book (counter : Counter) : Keeps invariant (charge context counter) := by
  intro state holds
  unfold charge
  split
  · rename_i ran
    simp only [Prod.mk.injEq] at ran
    rw [← ran.1]
    exact book.aside state _ rfl rfl holds
  · rename_i ran
    simp only [Prod.mk.injEq] at ran
    rw [← ran.1]
    exact book.aside state _ rfl rfl holds

theorem append_action_keeps_book (action : Action) (allowed : action.recordedBy ∈ kinds) :
    Keeps invariant (appendAction context action) := by
  refine keeps_bind (charge_keeps_book context book .actions) fun _ => keeps_modify _ ?_
  intro state holds
  exact book.records state action allowed holds

theorem change_keeps_book (change : State → State)
    (same : ∀ state, (change state).outcome.actions = state.outcome.actions ∧
      (change state).flags = state.flags) :
    Keeps invariant (modify change : Eval Unit) := by
  refine keeps_modify change ?_
  intro state holds
  exact book.aside _ _ (same state).1 (same state).2 holds

omit book in
theorem require_keeps_book (name extension : String) :
    Keeps invariant (requireExtension context name extension) := by
  unfold requireExtension
  split
  · exact keeps_pure ()
  · exact keeps_stop _

omit book in
theorem lift_keeps_book {Value : Type} (result : Except EvalError Value) :
    Keeps invariant (liftExcept result) := by
  cases result with
  | ok value => exact keeps_pure value
  | error failure => exact keeps_stop failure

theorem check_var_storage_keeps_book (delta : Nat) :
    Keeps invariant (checkVarStorage context delta) := by
  refine keeps_bind keeps_get fun state => ?_
  split
  · exact keeps_stop _
  · exact change_keeps_book book _ fun _ => ⟨rfl, rfl⟩

theorem store_variable_keeps_book (name value : Bytes) :
    Keeps invariant (storeVariable context name value) := by
  refine keeps_bind (keeps_bind keeps_get fun state => ?_) fun _ =>
    change_keeps_book book _ fun _ => ⟨rfl, rfl⟩
  split
  · split
    · exact keeps_stop _
    · exact check_var_storage_keeps_book context book _
  · exact keeps_bind (change_keeps_book book _ fun _ => ⟨rfl, rfl⟩) fun _ =>
      check_var_storage_keeps_book context book _

theorem redirect_keeps_book (args : List Argument) (allowed : CommandName.redirect ∈ kinds) :
    Keeps invariant (redirect context args) := by
  refine keeps_bind (charge_keeps_book context book _) fun _ => keeps_bind keeps_get fun state => ?_
  dsimp only
  split
  · exact keeps_stop _
  · exact append_action_keeps_book context book _ allowed

/-- An invariant of the interpreter that holds where it ends or fails in one of the
given ways, once it is known for what counts, records and stores. -/
structure Ledger (context : Context) (kinds : List CommandName) (failures : EvalError → Prop)
    (invariant : State → Prop) : Prop where
  aside : ∀ state other : State, other.outcome.actions = state.outcome.actions →
    other.flags = state.flags →
    other.vars = state.vars → other.sandbox = state.sandbox → invariant state → invariant other
  charges : ∀ counter, Guards failures invariant (charge context counter)
  appends : ∀ action, action.recordedBy ∈ kinds → action.recordedBy ≠ .redirect →
    Guards failures invariant (appendAction context action)
  redirects : .redirect ∈ kinds → ∀ args, Guards failures invariant (redirect context args)
  stores : ∀ name value, value.length ≤ context.env.limits.maxVariableBytes →
    Guards failures invariant (storeVariable context name value)

theorem bookkeeping_ledger (failures : EvalError → Prop) : Ledger context kinds failures invariant where
  aside := fun state other actions flags _ _ => book.aside state other actions flags
  charges := fun counter => keeps_guards (charge_keeps_book context book counter)
  appends := fun action allowed _ => keeps_guards (append_action_keeps_book context book action allowed)
  redirects := fun allowed args => keeps_guards (redirect_keeps_book context book args allowed)
  stores := fun name value _ => keeps_guards (store_variable_keeps_book context book name value)

omit book

variable {failures : EvalError → Prop} (ledger : Ledger context kinds failures invariant)

include ledger

theorem append_actions_keeps_ledger (actions : List Action)
    (allowed : ∀ action ∈ actions, action.recordedBy ∈ kinds ∧ action.recordedBy ≠ .redirect) :
    Guards failures invariant (appendActions context actions) := by
  induction actions with
  | nil => exact guards_pure ()
  | cons action actions ih =>
    have first := allowed action List.mem_cons_self
    refine guards_bind (ledger.appends action first.1 first.2) fun _ => ih ?_
    intro later member
    exact allowed later (List.mem_cons_of_mem _ member)

theorem change_keeps_ledger (change : State → State)
    (same : ∀ state, (change state).outcome.actions = state.outcome.actions ∧
      (change state).flags = state.flags ∧ (change state).vars = state.vars ∧
        (change state).sandbox = state.sandbox) :
    Guards failures invariant (modify change : Eval Unit) := by
  refine guards_modify change ?_
  intro state holds
  obtain ⟨actions, flags, vars, sandbox⟩ := same state
  exact ledger.aside _ _ actions flags vars sandbox holds

section

variable (args : List Argument)

theorem file_into_keeps_ledger (allowed : CommandName.fileinto ∈ kinds) :
    Guards failures invariant (fileInto context args) := by
  refine guards_bind guards_get fun state => ?_
  dsimp only
  split
  · exact guards_stop _
  · exact ledger.appends _ allowed (by simp [Action.recordedBy])

theorem vacation_keeps_ledger (allowed : CommandName.vacation ∈ kinds) :
    Guards failures invariant (vacation context args) := by
  unfold vacation
  split
  · exact guards_stop _
  · refine guards_bind guards_get fun state => ?_
    dsimp only
    split
    · exact guards_stop _
    · exact guards_pure ()
    · split
      · exact guards_stop _
      · exact guards_bind (change_keeps_ledger context ledger _ fun _ => ⟨rfl, rfl, rfl, rfl⟩) fun _ =>
          ledger.appends _ allowed (by simp [Action.recordedBy])

theorem flag_keeps_ledger (change : FlagChange) (args : List Argument)
    (allowed : CommandName.flag change ∈ kinds) :
    Guards failures invariant (flagCmd context change args) := by
  refine guards_bind guards_get fun state => append_actions_keeps_ledger context ledger _ ?_
  intro action member
  obtain ⟨name, _, rfl⟩ := List.mem_map.mp member
  exact ⟨allowed, by simp [Action.recordedBy]⟩

theorem set_keeps_ledger : Guards failures invariant (setVar context args) := by
  refine guards_bind (keeps_guards (require_keeps_book context _ _)) fun _ =>
    guards_bind guards_get fun state => ?_
  dsimp only
  split
  · exact guards_stop _
  · split
    · exact guards_stop _
    · rename_i short
      exact ledger.stores _ _ (Nat.not_lt.mp short)

theorem add_header_keeps_ledger (allowed : CommandName.addheader ∈ kinds) :
    Guards failures invariant (addHeader context args) := by
  refine guards_bind (keeps_guards (require_keeps_book context _ _)) fun _ =>
    guards_bind guards_get fun state => ?_
  split
  · exact ledger.appends _ allowed (by simp [Action.recordedBy])
  · exact guards_stop _

theorem delete_header_keeps_ledger (allowed : CommandName.deleteheader ∈ kinds) :
    Guards failures invariant (deleteHeader context args) := by
  refine guards_bind (keeps_guards (require_keeps_book context _ _)) fun _ =>
    guards_bind guards_get fun state => ?_
  dsimp only
  split
  · exact guards_stop _
  · exact ledger.appends _ allowed (by simp [Action.recordedBy])

theorem replace_keeps_ledger (allowed : CommandName.replace ∈ kinds) :
    Guards failures invariant (replace context args) := by
  refine guards_bind (keeps_guards (require_keeps_book context _ _)) fun _ =>
    guards_bind guards_get fun state => ?_
  dsimp only
  split
  · exact guards_stop _
  · exact ledger.appends _ allowed (by simp [Action.recordedBy])

theorem enclose_keeps_ledger (allowed : CommandName.enclose ∈ kinds) :
    Guards failures invariant (enclose context args) := by
  refine guards_bind (keeps_guards (require_keeps_book context _ _)) fun _ =>
    guards_bind guards_get fun state => ?_
  dsimp only
  split
  · exact guards_stop _
  · exact ledger.appends _ allowed (by simp [Action.recordedBy])

theorem notify_keeps_ledger (allowed : CommandName.notify ∈ kinds) :
    Guards failures invariant (notify context args) := by
  refine guards_bind (keeps_guards (require_keeps_book context _ _)) fun _ =>
    guards_bind (ledger.charges _) fun _ => guards_bind guards_get fun state => ?_
  dsimp only
  split
  · exact guards_stop _
  · split
    · exact guards_stop _
    · exact ledger.appends _ allowed (by simp [Action.recordedBy])

theorem break_keeps_ledger : Guards failures invariant (runBreak args) := by
  refine guards_bind guards_get fun state => ?_
  dsimp only
  split
  · exact guards_stop _
  · split
    · exact guards_stop _
    · exact change_keeps_ledger context ledger _ fun _ => ⟨rfl, rfl, rfl, rfl⟩

theorem extract_text_keeps_ledger : Guards failures invariant (extractText context args) := by
  refine guards_bind (keeps_guards (require_keeps_book context _ _)) fun _ =>
    guards_bind guards_get fun state => ?_
  dsimp only
  split
  · exact guards_stop _
  · exact ledger.stores _ _ (List.length_take_le _ _)

theorem run_simple_keeps_ledger (command : CommandName) (name : Bytes) (args : List Argument)
    (allowed : command ∈ kinds) : Guards failures invariant (runSimple context command name args) := by
  cases command with
  | stop => exact change_keeps_ledger context ledger _ fun _ => ⟨rfl, rfl, rfl, rfl⟩
  | returnScript => exact change_keeps_ledger context ledger _ fun _ => ⟨rfl, rfl, rfl, rfl⟩
  | keep => exact ledger.appends _ allowed (by simp [Action.recordedBy])
  | discard =>
    exact guards_bind (change_keeps_ledger context ledger _ fun _ => ⟨rfl, rfl, rfl, rfl⟩) fun _ =>
      ledger.appends _ allowed (by simp [Action.recordedBy])
  | fileinto => exact file_into_keeps_ledger context ledger args allowed
  | redirect => exact ledger.redirects allowed args
  | reject =>
    exact guards_bind guards_get fun _ => ledger.appends _ allowed (by simp [Action.recordedBy])
  | vacation => exact vacation_keeps_ledger context ledger args allowed
  | flag change => exact flag_keeps_ledger context ledger change args allowed
  | set => exact set_keeps_ledger context ledger args
  | addheader => exact add_header_keeps_ledger context ledger args allowed
  | deleteheader => exact delete_header_keeps_ledger context ledger args allowed
  | notify => exact notify_keeps_ledger context ledger args allowed
  | breakLoop => exact break_keeps_ledger context ledger args
  | extracttext => exact extract_text_keeps_ledger context ledger args
  | replace => exact replace_keeps_ledger context ledger args allowed
  | enclose => exact enclose_keeps_ledger context ledger args allowed
  | require => exact guards_pure ()
  | includeScript => exact guards_pure ()
  | ifBranch => exact guards_stop _
  | elsifBranch => exact guards_stop _
  | elseBranch => exact guards_stop _
  | foreverypart => exact guards_stop _

theorem duplicate_keeps_ledger : Guards failures invariant (testDuplicate context args) := by
  refine guards_bind (keeps_guards (require_keeps_book context _ _)) fun _ => ?_
  split
  · exact guards_stop _
  · refine guards_bind guards_get fun state =>
      guards_bind (change_keeps_ledger context ledger _ fun _ => ⟨rfl, rfl, rfl, rfl⟩) fun _ => ?_
    split
    · exact guards_stop _
    · exact guards_pure _

end

theorem leaf_test_keeps_ledger (test : TestName) (name : Bytes) (args : List Argument) :
    Guards failures invariant (leafTest context test name args) := by
  refine guards_bind guards_get fun state => ?_
  cases test with
  | duplicate => exact duplicate_keeps_ledger context ledger args
  | size => exact keeps_guards (lift_keeps_book _)
  | header => exact keeps_guards (lift_keeps_book _)
  | address => exact keeps_guards (lift_keeps_book _)
  | envelope => exact keeps_guards (lift_keeps_book _)
  | body => exact keeps_guards (lift_keeps_book _)
  | date => exact keeps_guards (lift_keeps_book _)
  | currentdate => exact keeps_guards (lift_keeps_book _)
  | string => exact keeps_guards (lift_keeps_book _)
  | spamtest => exact keeps_guards (lift_keeps_book _)
  | existence => exact guards_pure _
  | hasflag => exact guards_pure _
  | unanswered => exact guards_pure _
  | notifyMethod => exact guards_pure _
  | environment => exact guards_pure _
  | always => exact guards_stop _
  | never => exact guards_stop _
  | negation => exact guards_stop _
  | allof => exact guards_stop _
  | anyof => exact guards_stop _

mutual

theorem eval_test_keeps_ledger : ∀ test : Test, Guards failures invariant (evalTest context test)
  | ⟨name, args, children⟩ => by
    rw [evalTest]
    refine guards_bind (ledger.charges _) fun _ => ?_
    split
    · exact guards_pure _
    · exact guards_pure _
    · exact eval_not_keeps_ledger children
    · exact eval_all_keeps_ledger children
    · exact eval_any_keeps_ledger children
    · exact leaf_test_keeps_ledger context ledger _ name args
    · exact guards_stop _

theorem eval_not_keeps_ledger : ∀ tests : List Test, Guards failures invariant (evalNot context tests)
  | [] => guards_stop _
  | test :: rest => by
    rw [evalNot]
    split
    · exact guards_bind (eval_test_keeps_ledger test) fun _ => guards_pure _
    · exact guards_stop _

theorem eval_all_keeps_ledger : ∀ tests : List Test, Guards failures invariant (evalAll context tests)
  | [] => guards_pure _
  | test :: tests => by
    rw [evalAll]
    refine guards_bind (eval_test_keeps_ledger test) fun holds => ?_
    split
    · exact eval_all_keeps_ledger tests
    · exact guards_pure _

theorem eval_any_keeps_ledger : ∀ tests : List Test, Guards failures invariant (evalAny context tests)
  | [] => guards_pure _
  | test :: tests => by
    rw [evalAny]
    refine guards_bind (eval_test_keeps_ledger test) fun holds => ?_
    split
    · exact guards_pure _
    · exact eval_any_keeps_ledger tests

end

theorem if_command_keeps_ledger (test : Option Test) (body : Eval Unit)
    (kept : Guards failures invariant body) :
      Guards failures invariant (ifCommand context test body) := by
  unfold ifCommand
  split
  · exact guards_stop _
  · refine guards_bind (eval_test_keeps_ledger context ledger _) fun holds => ?_
    split
    · exact guards_bind kept fun _ => guards_pure _
    · exact guards_pure _

theorem for_parts_keeps_ledger (loopName : Bytes) (body : Eval Unit)
    (kept : Guards failures invariant body) (parts : List (Part × List Nat)) :
    Guards failures invariant (forParts loopName body parts) := by
  induction parts with
  | nil => exact guards_pure ()
  | cons part parts ih =>
    obtain ⟨part, path⟩ := part
    refine guards_bind (change_keeps_ledger context ledger _ fun _ => ⟨rfl, rfl, rfl, rfl⟩) fun _ =>
      guards_bind kept fun _ => guards_bind guards_get fun state => ?_
    split
    · split
      · exact change_keeps_ledger context ledger _ fun _ => ⟨rfl, rfl, rfl, rfl⟩
      · exact guards_pure ()
    · split
      · exact guards_pure ()
      · exact ih

theorem foreverypart_keeps_ledger (args : List Argument) (body : Eval Unit)
    (kept : Guards failures invariant body) :
    Guards failures invariant (runForeveryPart context args body) := by
  refine guards_bind (keeps_guards (require_keeps_book context _ _)) fun _ =>
    guards_bind guards_get fun before =>
    guards_bind (change_keeps_ledger context ledger _ fun _ => ⟨rfl, rfl, rfl, rfl⟩) fun _ =>
      guards_bind (for_parts_keeps_ledger context ledger _ body kept _) fun _ => ?_
  exact change_keeps_ledger context ledger _ fun _ => ⟨rfl, rfl, rfl, rfl⟩

mutual

theorem run_command_keeps_ledger : ∀ (command : Command) (chain : Chain),
    (∀ inner ∈ command.within, ∀ kind, inner.kind = some kind → kind ∈ kinds) →
    Guards failures invariant (runCommand context chain command)
  | ⟨name, args, test, block⟩, chain, allowed => by
    have inside := run_block_keeps_ledger block {} fun inner member =>
      allowed inner (by simp [Command.within, member])
    have own := allowed ⟨name, args, test, block⟩ (by simp [Command.within])
    rw [runCommand]
    split
    · exact guards_bind (if_command_keeps_ledger context ledger test _ inside) fun _ => guards_pure _
    · split
      · exact guards_stop _
      · split
        · exact guards_pure _
        · exact guards_bind (if_command_keeps_ledger context ledger test _ inside) fun _ =>
            guards_pure _
    · split
      · exact guards_stop _
      · refine guards_bind ?_ fun _ => guards_pure _
        split
        · exact guards_pure ()
        · exact inside
    · exact guards_bind (foreverypart_keeps_ledger context ledger args _ inside) fun _ => guards_pure _
    · rename_i command _ _ _ _ found
      exact guards_bind (run_simple_keeps_ledger context ledger command name args (own command found))
        fun _ => guards_pure _
    · exact guards_stop _

theorem run_block_keeps_ledger : ∀ (commands : List Command) (chain : Chain),
    (∀ inner ∈ commandsWithin commands, ∀ kind, inner.kind = some kind → kind ∈ kinds) →
    Guards failures invariant (runBlock context chain commands)
  | [], _, _ => guards_pure ()
  | command :: commands, chain, allowed => by
    rw [runBlock]
    refine guards_bind (ledger.charges _) fun _ => guards_bind guards_get fun state => ?_
    split
    · exact guards_pure ()
    · refine guards_bind (run_command_keeps_ledger command chain fun inner member =>
        allowed inner (by simp [commandsWithin, member])) fun next =>
          guards_bind guards_get fun state => ?_
      split
      · exact guards_pure ()
      · exact run_block_keeps_ledger commands next fun inner member =>
          allowed inner (by simp [commandsWithin, member])

end

omit ledger in
/-- Every action of an outcome was recorded by a command of the script that
records actions of its kind, however the evaluation ended. -/
theorem actions_come_from_commands (library : Library) (env : Environment) (message : Message)
    (script : Script) (action : Action)
    (member : action ∈ (evaluate library env message script).1.actions) :
    ∃ command ∈ commandsWithin script.commands, command.kind = some action.recordedBy := by
  have kept : Keeps (Recorded ((commandsWithin script.commands).filterMap Command.kind))
      (runBlock (evaluationContext library env message script.requires) {} script.commands) := by
    refine guards_keeps (run_block_keeps_ledger _ (bookkeeping_ledger _ (recorded_bookkeeping _) _)
      script.commands {} ?_)
    intro inner inside kind known
    exact List.mem_filterMap.mpr ⟨inner, inside, known⟩
  have start : Recorded ((commandsWithin script.commands).filterMap Command.kind) {} := by
    intro earlier none
    simp at none
  exact List.mem_filterMap.mp (keeps_ends kept start action member)

end Herold.Sieve

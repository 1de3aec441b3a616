import Mathlib.Data.List.Induction
import Herold.Machine.Watched
import Herold.Sieve.Provenance
import Herold.Store.Mailbox

/-!
# Flags of a message

What the flag commands of a script mean, and what the interpreter and the delivery
make of them. The commands record actions and leave the flags of the evaluation
alone, which `hasflag` asks; the delivery adds up what was ever set or added.

The interpreter is watched for this: a log holds the flag commands executed so far
and every point the run passes.
-/

namespace Herold.Sieve

open Herold.Go Herold.Mail Herold.Machine Exchange Herold.Store

abbrev FlagCommand := FlagChange × List Bytes

/-- The flags after one command: they are replaced, joined or taken away. -/
def FlagChange.apply (change : FlagChange) (names flags : List Bytes) : List Bytes :=
  match change with
  | set => names
  | add => flags ++ names
  | remove => flags.filter fun flag => !names.contains flag

def flagsAfter (executed : List FlagCommand) : List Bytes :=
  executed.foldl (fun flags command => command.1.apply command.2 flags) []

def systemFlag (name : Bytes) : MessageFlags :=
  let name := toLower name
  if name = ascii "\\seen" ∨ name = ascii "seen" then MessageFlags.seen
  else if name = ascii "\\answered" ∨ name = ascii "answered" then MessageFlags.answered
  else if name = ascii "\\flagged" ∨ name = ascii "flagged" then MessageFlags.flagged
  else if name = ascii "\\draft" ∨ name = ascii "draft" then MessageFlags.draft
  else if name = ascii "\\deleted" ∨ name = ascii "deleted" then MessageFlags.deleted
  else 0

def systemFlags (names : List Bytes) : MessageFlags :=
  names.foldl (fun flags name => flags ||| systemFlag name) 0

def raiseFlag (flags : MessageFlags) : Action → MessageFlags
  | .flag .set name => flags ||| systemFlag name
  | .flag .add name => flags ||| systemFlag name
  | _ => flags

def sieveFlagsFromOutcome (outcome : Outcome) : MessageFlags := outcome.actions.foldl raiseFlag 0

structure FlagLog where
  executed : List FlagCommand := []
  /-- Each point of the run: the flag commands executed before it, and the state. -/
  points : List (List FlagCommand × State) := []

abbrev Watching := Exchange (State × FlagLog) EvalError

def passPoint (state : State) (log : FlagLog) : FlagLog :=
  { log with points := log.points ++ [(log.executed, state)] }

variable (context : Context)

def flagNames (args : List Argument) (state : State) : List Bytes :=
  (args.flatMap asStrings).map (expandVars context state)

def watchTick : Watching Unit := unseen (tick context) >>= fun _ => note passPoint

mutual

def watchTest : Test → Watching Bool
  | ⟨name, args, children⟩ => do
      watchTick context
      match testNames.lookup name with
      | some .always => pure true
      | some .never => pure false
      | some .negation => watchNot children
      | some .allof => watchAll children
      | some .anyof => watchAny children
      | some test => unseen (leafTest context test name args)
      | none => stop (.notImplemented name)

def watchNot : List Test → Watching Bool
  | test :: rest => do
      if rest.isEmpty then
        let holds ← watchTest test
        pure !holds
      else stop .notTakesOneTest
  | [] => stop .notTakesOneTest

def watchAll : List Test → Watching Bool
  | [] => pure true
  | test :: tests => do
      let holds ← watchTest test
      if holds then watchAll tests else pure false

def watchAny : List Test → Watching Bool
  | [] => pure false
  | test :: tests => do
      let holds ← watchTest test
      if holds then pure true else watchAny tests

end

/-- A flag command enters the log when it is done, and the run is at a point again. -/
def watchFlag (change : FlagChange) (args : List Argument) (name : Bytes) : Watching Unit := fun both =>
  (unseen (runSimple context (.flag change) name args) >>= fun _ => note fun state log =>
    passPoint state { log with
      executed := log.executed ++ [(change, flagNames context args both.1)] }) both

def watchSimple (command : CommandName) (name : Bytes) (args : List Argument) : Watching Unit :=
  match command with
  | .flag change => watchFlag context change args name
  | _ => unseen (runSimple context command name args)

def watchIf (test : Option Test) (body : Watching Unit) : Watching Bool :=
  match test with
  | none => stop .ifWithoutTest
  | some test => do
      let holds ← watchTest context test
      if holds then do
        body
        pure true
      else pure false

def watchParts (loopName : Bytes) (body : Watching Unit) : List (Part × List Nat) → Watching Unit
  | [] => pure ()
  | (part, path) :: rest => do
      unseen (modify fun state => { state with currentPart := some part, currentPath := path })
      body
      let state ← unseen get
      if state.brokenAny then
        if state.brokenLoopName = [] ∨ state.brokenLoopName = loopName then
          unseen (modify fun state => { state with brokenAny := false, brokenLoopName := [] })
        else pure ()
      else if state.outcome.stop then pure ()
      else watchParts loopName body rest

def watchForeveryPart (args : List Argument) (body : Watching Unit) : Watching Unit := do
  unseen (requireExtension context "foreverypart" "foreverypart")
  let before ← unseen get
  let loopName := readNameTag args
  unseen (modify fun state => { state with loopStack := state.loopStack ++ [loopName] })
  watchParts loopName body (loopParts context before)
  unseen (modify fun state => { state with
    loopStack := before.loopStack
    currentPart := before.currentPart
    currentPath := before.currentPath })

mutual

def watchCommand : Chain → Command → Watching Chain
  | chain, ⟨name, args, test, block⟩ =>
    match commandNames.lookup name with
    | some .ifBranch => do
        let taken ← watchIf context test (watchBlock {} block)
        pure ⟨true, taken⟩
    | some .elsifBranch =>
      if !chain.inChain then stop .elsifWithoutIf
      else if chain.lastIfTaken then pure chain
      else do
        let taken ← watchIf context test (watchBlock {} block)
        pure ⟨true, taken⟩
    | some .elseBranch =>
      if !chain.inChain then stop .elseWithoutIf
      else do
        let _ ← (if chain.lastIfTaken then pure () else watchBlock {} block)
        pure { chain with inChain := false }
    | some .foreverypart => do
        watchForeveryPart context args (watchBlock {} block)
        pure { chain with inChain := false }
    | some command => do
        watchSimple context command name args
        pure { chain with inChain := false }
    | none => stop (.notImplemented name)

def watchBlock : Chain → List Command → Watching Unit
  | _, [] => pure ()
  | chain, command :: commands => do
      watchTick context
      let state ← unseen get
      if state.brokenAny then pure ()
      else do
        let chain ← watchCommand chain command
        let state ← unseen get
        if state.outcome.stop then pure () else watchBlock chain commands

end

def watchScript (library : Library) (env : Environment) (message : Message) (script : Script) :
    (State × FlagLog) × Except EvalError Unit :=
  watchBlock (evaluationContext library env message script.requires) {} script.commands ({}, {})

theorem erases_watch_tick : Erases (watchTick context) (tick context) :=
  erases_noted _ (erases_unseen _)

mutual

theorem erases_test : ∀ test : Test, Erases (watchTest context test) (evalTest context test)
  | ⟨name, args, children⟩ => by
    rw [watchTest, evalTest]
    apply erases_bind (erases_watch_tick context)
    intro _
    cases testNames.lookup name with
    | none => exact erases_stop _
    | some test =>
      cases test with
      | always => exact erases_pure _
      | never => exact erases_pure _
      | negation => exact erases_not children
      | allof => exact erases_all children
      | anyof => exact erases_any children
      | _ => exact erases_unseen _

theorem erases_not : ∀ tests : List Test, Erases (watchNot context tests) (evalNot context tests)
  | [] => erases_stop _
  | test :: rest => by
    rw [watchNot, evalNot]
    split
    · exact erases_bind (erases_test test) fun _ => erases_pure _
    · exact erases_stop _

theorem erases_all : ∀ tests : List Test, Erases (watchAll context tests) (evalAll context tests)
  | [] => erases_pure _
  | test :: tests => by
    rw [watchAll, evalAll]
    apply erases_bind (erases_test test)
    intro holds
    split
    · exact erases_all tests
    · exact erases_pure _

theorem erases_any : ∀ tests : List Test, Erases (watchAny context tests) (evalAny context tests)
  | [] => erases_pure _
  | test :: tests => by
    rw [watchAny, evalAny]
    apply erases_bind (erases_test test)
    intro holds
    split
    · exact erases_pure _
    · exact erases_any tests

end

theorem erases_simple (command : CommandName) (name : Bytes) (args : List Argument) :
    Erases (watchSimple context command name args) (runSimple context command name args) := by
  cases command with
  | flag change =>
    intro both
    exact erases_noted (fun state log => passPoint state
      { log with executed := log.executed ++ [(change, flagNames context args both.1)] })
      (erases_unseen (runSimple context (.flag change) name args)) both
  | _ => exact erases_unseen _

theorem erases_if (test : Option Test) {watched : Watching Unit} {body : Eval Unit}
    (inside : Erases watched body) :
      Erases (watchIf context test watched) (ifCommand context test body) := by
  cases test with
  | none => exact erases_stop _
  | some test =>
    apply erases_bind (erases_test context test)
    intro holds
    split
    · exact erases_bind inside fun _ => erases_pure _
    · exact erases_pure _

theorem erases_parts (loopName : Bytes) {watched : Watching Unit} {body : Eval Unit}
    (inside : Erases watched body) (parts : List (Part × List Nat)) :
    Erases (watchParts loopName watched parts) (forParts loopName body parts) := by
  induction parts with
  | nil => exact erases_pure _
  | cons part parts ih =>
    obtain ⟨part, path⟩ := part
    apply erases_bind (erases_unseen _)
    intro _
    apply erases_bind inside
    intro _
    apply erases_bind (erases_unseen _)
    intro state
    split
    · split
      · exact erases_unseen _
      · exact erases_pure _
    · split
      · exact erases_pure _
      · exact ih

theorem erases_foreverypart (args : List Argument) {watched : Watching Unit} {body : Eval Unit}
    (inside : Erases watched body) :
    Erases (watchForeveryPart context args watched) (runForeveryPart context args body) := by
  apply erases_bind (erases_unseen _)
  intro _
  apply erases_bind (erases_unseen _)
  intro before
  apply erases_bind (erases_unseen _)
  intro _
  apply erases_bind (erases_parts _ inside _)
  intro _
  exact erases_unseen _

mutual

theorem erases_command : ∀ (command : Command) (chain : Chain),
    Erases (watchCommand context chain command) (runCommand context chain command)
  | ⟨name, args, test, block⟩, chain => by
    have inside := erases_block block {}
    rw [watchCommand, runCommand]
    cases commandNames.lookup name with
    | none => exact erases_stop _
    | some command =>
      cases command with
      | ifBranch => exact erases_bind (erases_if context test inside) fun _ => erases_pure _
      | elsifBranch =>
        dsimp only
        split
        · exact erases_stop _
        · split
          · exact erases_pure _
          · exact erases_bind (erases_if context test inside) fun _ => erases_pure _
      | elseBranch =>
        dsimp only
        split
        · exact erases_stop _
        · refine erases_bind ?_ fun _ => erases_pure _
          split
          · exact erases_pure _
          · exact inside
      | foreverypart => exact erases_bind (erases_foreverypart context args inside) fun _ => erases_pure _
      | _ => exact erases_bind (erases_simple context _ name args) fun _ => erases_pure _

theorem erases_block : ∀ (commands : List Command) (chain : Chain),
    Erases (watchBlock context chain commands) (runBlock context chain commands)
  | [], _ => erases_pure _
  | command :: commands, chain => by
    rw [watchBlock, runBlock]
    apply erases_bind (erases_watch_tick context)
    intro _
    apply erases_bind (erases_unseen _)
    intro state
    split
    · exact erases_pure _
    · apply erases_bind (erases_command command chain)
      intro next
      apply erases_bind (erases_unseen _)
      intro state
      split
      · exact erases_pure _
      · exact erases_block commands next

end

theorem watch_script_evaluates (library : Library) (env : Environment) (message : Message)
    (script : Script) :
    evaluate library env message script =
      ((watchScript library env message script).1.1.outcome,
        (watchScript library env message script).2) := by
  have erased := erases_block (evaluationContext library env message script.requires) script.commands {}
    ({}, {})
  unfold evaluate watchScript
  rw [← erased]

def Harmless (command : FlagCommand) : Prop := command.1 = .remove ∨ command.2 = []

/-- What every state of a watched run has in common with its log: the evaluation
holds no flags, no point of the run did, and every flag command was followed by a
point. -/
structure LogSound (both : State × FlagLog) : Prop where
  unflagged : both.1.flags = []
  passed : ∀ point ∈ both.2.points, point.2.flags = [] ∧ point.1 <+: both.2.executed
  noticed : ∀ before command after, both.2.executed = before ++ command :: after →
    ∃ point ∈ both.2.points, point.1 = before ++ [command]

def quietKinds : List CommandName :=
  [.ifBranch, .elsifBranch, .elseBranch, .foreverypart, .require, .stop, .keep, .discard, .fileinto,
    .redirect, .reject, .vacation, .flag .remove, .set, .includeScript, .returnScript, .addheader,
    .deleteheader, .notify, .breakLoop, .extracttext, .replace, .enclose]

/-- While all flag commands were harmless no set or added flag is recorded. -/
def Quiet (both : State × FlagLog) : Prop :=
  (∀ command ∈ both.2.executed, Harmless command) → Recorded quietKinds both.1

/-- The log stays sound, and quiet too unless the computation stops. -/
def Keeping {Value : Type} (watched : Watching Value) : Prop :=
  Triple (fun both => LogSound both ∧ Quiet both) watched (fun _ both => LogSound both ∧ Quiet both)
    fun _ both => LogSound both

theorem keeping_pure {Value : Type} (value : Value) : Keeping
    (pure value) := triple_pure _ _ fun _ met => met

theorem keeping_stop {Value : Type} (failure : EvalError) : Keeping (stop failure : Watching Value) :=
  triple_stop _ _ fun _ met => met.1

theorem keeping_bind {Value Result : Type} {first : Watching Value} {next : Value → Watching Result}
    (begins : Keeping first) (continues : ∀ value, Keeping (next value)) : Keeping (first >>= next) :=
  triple_bind _ begins continues

theorem unflagged_bookkeeping (kinds : List CommandName) :
    Bookkeeping kinds fun state => state.flags = [] where
  aside := by
    intro state other _ same holds
    rw [same, holds]
  records := by
    intro state action _ holds
    exact holds

theorem quiet_bookkeeping (harmless : Prop) :
    Bookkeeping quietKinds fun state => state.flags = [] ∧ (harmless → Recorded quietKinds state) where
  aside := by
    intro state other actions flags holds
    exact ⟨(unflagged_bookkeeping quietKinds).aside state other actions flags holds.1, fun all =>
      (recorded_bookkeeping quietKinds).aside state other actions flags (holds.2 all)⟩
  records := by
    intro state action allowed holds
    exact ⟨holds.1, fun all =>
      (recorded_bookkeeping quietKinds).records state action allowed (holds.2 all)⟩

theorem keeping_unseen {Value : Type} {computation : Eval Value}
    (kept : ∀ invariant, Bookkeeping quietKinds invariant → Keeps invariant computation) :
    Keeping (unseen computation) := by
  apply triple_unseen
  intro log state met
  have ran := kept _ (quiet_bookkeeping (∀ command ∈ log.executed, Harmless command)) state
    ⟨met.1.unflagged, met.2⟩
  rcases result : computation state with ⟨after, failure | value⟩
  · rw [result] at ran
    exact ⟨ran.1, met.1.passed, met.1.noticed⟩
  · rw [result] at ran
    exact ⟨⟨ran.1, met.1.passed, met.1.noticed⟩, ran.2⟩

theorem log_sound_point (state : State) (log : FlagLog) (sound : LogSound (state, log)) :
    LogSound (state, passPoint state log) where
  unflagged := sound.unflagged
  passed := by
    intro point member
    rcases List.mem_append.mp member with earlier | now
    · exact sound.passed point earlier
    · rw [List.mem_singleton.mp now]
      exact ⟨sound.unflagged, List.prefix_refl _⟩
  noticed := by
    intro before command after executed
    obtain ⟨point, member, same⟩ := sound.noticed before command after executed
    exact ⟨point, List.mem_append_left _ member, same⟩

theorem keeping_point : Keeping (note passPoint : Watching Unit) :=
  triple_note _ _ fun state log met => ⟨log_sound_point state log met.1, met.2⟩

theorem keeping_tick : Keeping (watchTick context) :=
  keeping_bind (keeping_unseen fun _ book => charge_keeps_book context book _) fun _ => keeping_point

theorem flag_command_nameless (change : FlagChange) (args : List Argument) (state : State)
    (nameless : flagNames context args state = []) :
      flagCmd context change args state = (state, .ok ()) := by
  have none : (args.flatMap asStrings).map
    (fun name => Action.flag change (expandVars context state name)) =
    [] := by
    have empty : args.flatMap asStrings = [] := List.map_eq_nil_iff.mp nameless
    rw [empty]
    rfl
  show appendActions context ((args.flatMap asStrings).map fun name =>
    Action.flag change (expandVars context state name)) state = (state, .ok ())
  rw [none]
  rfl

theorem log_sound_executed (after : State) (log : FlagLog) (command : FlagCommand)
    (unflagged : after.flags = []) (state : State) (sound : LogSound (state, log)) :
    LogSound (after, passPoint after { log with executed := log.executed ++ [command] }) where
  unflagged := unflagged
  passed := by
    intro point member
    rcases List.mem_append.mp member with earlier | now
    · obtain ⟨flags, before⟩ := sound.passed point earlier
      exact ⟨flags, before.trans (List.prefix_append _ _)⟩
    · rw [List.mem_singleton.mp now]
      exact ⟨unflagged, List.prefix_refl _⟩
  noticed := by
    intro before entry rest executed
    rcases List.eq_nil_or_concat rest with rfl | ⟨more, last, rfl⟩
    · obtain ⟨same, entries⟩ := List.append_inj' executed rfl
      refine ⟨_, List.mem_append_right _ (List.mem_singleton.mpr rfl), ?_⟩
      rw [← same, ← entries]
    · have earlier : log.executed = before ++ entry :: more := by
        have shape : log.executed ++ [command] = before ++ entry :: more.concat last := executed
        have split : log.executed ++ [command] = (before ++ entry :: more) ++ [last] := by
          rw [shape, List.concat_eq_append, List.append_assoc, List.cons_append]
        exact (List.append_inj' split rfl).1
      obtain ⟨point, member, same⟩ := sound.noticed before entry more earlier
      exact ⟨point, List.mem_append_left _ member, same⟩

theorem keeping_flag (change : FlagChange) (args : List Argument) (name : Bytes) :
    Keeping (watchFlag context change args name) := by
  rintro ⟨state, log⟩ ⟨sound, quiet⟩
  have unflagged := guards_keeps (flag_keeps_ledger context
    (bookkeeping_ledger context (unflagged_bookkeeping [.flag change]) _) change args
      List.mem_cons_self) state sound.unflagged
  have quieted (allowed : CommandName.flag change ∈ quietKinds) :=
    guards_keeps (flag_keeps_ledger context
    (bookkeeping_ledger context (recorded_bookkeeping quietKinds) _) change args allowed)
  have ran : watchFlag context change args name (state, log) =
      (unseen (flagCmd context change args) >>= fun _ => note fun state' log =>
        passPoint state' { log with
          executed := log.executed ++ [(change, flagNames context args state)] })
        (state, log) := rfl
  rw [ran]
  rcases result : flagCmd context change args state with ⟨after, failure | value⟩
  · have stopped : (unseen (flagCmd context change args) : Watching Unit) (state, log) =
        ((after, log), .error failure) := by
      unfold unseen
      rw [result]
    rw [bind_stops stopped]
    rw [result] at unflagged
    exact ⟨unflagged, sound.passed, sound.noticed⟩
  · have ended : (unseen (flagCmd context change args) : Watching Unit) (state, log) =
        ((after, log), .ok value) := by
      unfold unseen
      rw [result]
    rw [bind_ends ended]
    rw [result] at unflagged
    refine ⟨log_sound_executed after log _ unflagged state sound, ?_⟩
    intro harmless
    have before := quiet fun command member => harmless command (List.mem_append_left _ member)
    rcases harmless _ (List.mem_append_right _ (List.mem_singleton.mpr rfl)) with removes | nameless
    · have kept := quieted (by
        have is : change = .remove := removes
        rw [is]
        decide) state before
      rw [result] at kept
      exact kept
    · rw [flag_command_nameless context change args state nameless] at result
      cases result
      exact before

theorem keeping_simple (command : CommandName) (name : Bytes) (args : List Argument) :
    Keeping (watchSimple context command name args) := by
  cases command with
  | flag change => exact keeping_flag context change args name
  | _ => exact keeping_unseen fun _ book =>
    guards_keeps (run_simple_keeps_ledger context (bookkeeping_ledger context book _) _ name args
      (by decide))

theorem keeping_get : Keeping (unseen get) := keeping_unseen fun _ _ => keeps_get

theorem keeping_aside (change : State → State)
    (same : ∀ state, (change state).outcome.actions = state.outcome.actions ∧
      (change state).flags = state.flags) : Keeping (unseen (modify change)) :=
  keeping_unseen fun _ book => change_keeps_book book change same

mutual

theorem keeping_test : ∀ test : Test, Keeping (watchTest context test)
  | ⟨name, args, children⟩ => by
    rw [watchTest]
    apply keeping_bind (keeping_tick context)
    intro _
    cases testNames.lookup name with
    | none => exact keeping_stop _
    | some test =>
      cases test with
      | always => exact keeping_pure _
      | never => exact keeping_pure _
      | negation => exact keeping_not children
      | allof => exact keeping_all children
      | anyof => exact keeping_any children
      | _ => exact keeping_unseen fun _ book =>
          guards_keeps (leaf_test_keeps_ledger context (bookkeeping_ledger context book _) _ name args)

theorem keeping_not : ∀ tests : List Test, Keeping (watchNot context tests)
  | [] => keeping_stop _
  | test :: rest => by
    rw [watchNot]
    split
    · exact keeping_bind (keeping_test test) fun _ => keeping_pure _
    · exact keeping_stop _

theorem keeping_all : ∀ tests : List Test, Keeping (watchAll context tests)
  | [] => keeping_pure _
  | test :: tests => by
    rw [watchAll]
    apply keeping_bind (keeping_test test)
    intro holds
    split
    · exact keeping_all tests
    · exact keeping_pure _

theorem keeping_any : ∀ tests : List Test, Keeping (watchAny context tests)
  | [] => keeping_pure _
  | test :: tests => by
    rw [watchAny]
    apply keeping_bind (keeping_test test)
    intro holds
    split
    · exact keeping_pure _
    · exact keeping_any tests

end

theorem keeping_if (test : Option Test) {body : Watching Unit} (inside : Keeping body) :
    Keeping (watchIf context test body) := by
  cases test with
  | none => exact keeping_stop _
  | some test =>
    apply keeping_bind (keeping_test context test)
    intro holds
    split
    · exact keeping_bind inside fun _ => keeping_pure _
    · exact keeping_pure _

theorem keeping_parts (loopName : Bytes) {body : Watching Unit} (inside : Keeping body)
    (parts : List (Part × List Nat)) : Keeping (watchParts loopName body parts) := by
  induction parts with
  | nil => exact keeping_pure _
  | cons part parts ih =>
    obtain ⟨part, path⟩ := part
    refine keeping_bind (keeping_aside _ fun _ => ⟨rfl, rfl⟩) fun _ => ?_
    apply keeping_bind inside
    intro _
    apply keeping_bind keeping_get
    intro state
    split
    · split
      · exact keeping_aside _ fun _ => ⟨rfl, rfl⟩
      · exact keeping_pure _
    · split
      · exact keeping_pure _
      · exact ih

theorem keeping_foreverypart (args : List Argument) {body : Watching Unit} (inside : Keeping body) :
    Keeping (watchForeveryPart context args body) := by
  apply keeping_bind (keeping_unseen fun _ _ => require_keeps_book context _ _)
  intro _
  apply keeping_bind keeping_get
  intro before
  refine keeping_bind (keeping_aside _ fun _ => ⟨rfl, rfl⟩) fun _ => ?_
  apply keeping_bind (keeping_parts _ inside _)
  intro _
  exact keeping_aside _ fun _ => ⟨rfl, rfl⟩

mutual

theorem keeping_command :
    ∀ (command : Command) (chain : Chain), Keeping (watchCommand context chain command)
  | ⟨name, args, test, block⟩, chain => by
    have inside := keeping_block block {}
    rw [watchCommand]
    cases commandNames.lookup name with
    | none => exact keeping_stop _
    | some command =>
      cases command with
      | ifBranch => exact keeping_bind (keeping_if context test inside) fun _ => keeping_pure _
      | elsifBranch =>
        dsimp only
        split
        · exact keeping_stop _
        · split
          · exact keeping_pure _
          · exact keeping_bind (keeping_if context test inside) fun _ => keeping_pure _
      | elseBranch =>
        dsimp only
        split
        · exact keeping_stop _
        · refine keeping_bind ?_ fun _ => keeping_pure _
          split
          · exact keeping_pure _
          · exact inside
      | foreverypart =>
        apply keeping_bind (keeping_foreverypart context args inside)
        intro _
        exact keeping_pure _
      | _ => exact keeping_bind (keeping_simple context _ name args) fun _ => keeping_pure _

theorem keeping_block : ∀ (commands : List Command) (chain : Chain), Keeping
    (watchBlock context chain commands)
  | [], _ => keeping_pure _
  | command :: commands, chain => by
    rw [watchBlock]
    apply keeping_bind (keeping_tick context)
    intro _
    apply keeping_bind keeping_get
    intro state
    split
    · exact keeping_pure _
    · apply keeping_bind (keeping_command command chain)
      intro next
      apply keeping_bind keeping_get
      intro state
      split
      · exact keeping_pure _
      · exact keeping_block commands next

end

/-- A script's flag commands are honoured: at every point of the run `hasflag` tells
what is set by then, and the delivery puts the system flags on the message that are
set in the end. -/
structure FlagsHonoured (library : Library) (env : Environment) (message : Message) (script : Script) :
    Prop where
  asked : ∀ point ∈ (watchScript library env message script).1.2.points, ∀ key,
    testHasFlag (evaluationContext library env message script.requires) [.string key] point.2 = true ↔
      key ∈ flagsAfter point.1
  delivered : (evaluate library env message script).2 = .ok () →
    sieveFlagsFromOutcome (evaluate library env message script).1 =
      systemFlags (flagsAfter (watchScript library env message script).1.2.executed)

theorem has_flag_unflagged (args : List Argument) (state : State) (unflagged : state.flags = []) :
    testHasFlag context args state = false := by
  simp [testHasFlag, unflagged]

theorem flags_after_snoc (executed : List FlagCommand) (command : FlagCommand) :
    flagsAfter (executed ++ [command]) = command.1.apply command.2 (flagsAfter executed) := by
  simp [flagsAfter]

theorem flags_after_harmless (executed : List FlagCommand)
    (harmless : ∀ command ∈ executed, Harmless command) : flagsAfter executed = [] := by
  induction executed using List.reverseRecOn with
  | nil => rfl
  | append_singleton executed command ih =>
    rw [flags_after_snoc, ih fun other member => harmless other (List.mem_append_left _ member)]
    obtain ⟨change, names⟩ := command
    rcases harmless _ (List.mem_append_right _ (List.mem_singleton.mpr rfl)) with removes | nameless
    · have is : change = .remove := removes
      rw [is]
      rfl
    · have none : names = [] := nameless
      rw [none]
      cases change <;> rfl

theorem sieve_flags_quiet (outcome : Outcome)
    (quiet : ∀ action ∈ outcome.actions, action.recordedBy ∈ quietKinds) :
    sieveFlagsFromOutcome outcome = 0 := by
  unfold sieveFlagsFromOutcome
  generalize outcome.actions = actions at quiet
  induction actions with
  | nil => rfl
  | cons action actions ih =>
    have first := quiet action List.mem_cons_self
    rw [List.foldl_cons]
    have same : raiseFlag 0 action = 0 := by
      cases action with
      | flag change name =>
        cases change with
        | set => exact absurd (show CommandName.flag .set ∈ quietKinds from first) (by decide)
        | add => exact absurd (show CommandName.flag .add ∈ quietKinds from first) (by decide)
        | remove => rfl
      | _ => rfl
    rw [same]
    exact ih fun other member => quiet other (List.mem_cons_of_mem _ member)

theorem watch_script_sound (library : Library) (env : Environment) (message : Message)
    (script : Script) :
    LogSound (watchScript library env message script).1 ∧
      ((watchScript library env message script).2 = .ok () →
        Quiet (watchScript library env message script).1) := by
  have kept := keeping_block (evaluationContext library env message script.requires) script.commands {}
  have start : LogSound (({}, {}) : State × FlagLog) ∧ Quiet ({}, {}) := by
    refine ⟨⟨rfl, ?_, ?_⟩, ?_⟩
    · intro point member
      cases member
    · intro before command after executed
      exact absurd executed.symm (by simp)
    · intro _ action member
      cases member
  unfold watchScript
  rcases ran : watchBlock (evaluationContext library env message script.requires)
    {} script.commands ({}, {}) with
    ⟨both, failure | value⟩
  · exact ⟨triple_stops kept start ran, fun ended => by cases ended⟩
  · exact ⟨(triple_ends kept start ran).1, fun _ => (triple_ends kept start ran).2⟩

theorem honoured_harmless (library : Library) (env : Environment) (message : Message) (script : Script)
    (honoured : FlagsHonoured library env message script) :
    ∀ command ∈ (watchScript library env message script).1.2.executed, Harmless command := by
  obtain ⟨sound, -⟩ := watch_script_sound library env message script
  intro command member
  obtain ⟨before, after, executed⟩ := List.append_of_mem member
  obtain ⟨point, passed, history⟩ := sound.noticed before command after executed
  have silent : ∀ key, key ∉ flagsAfter point.1 := by
    intro key set
    have told := (honoured.asked point passed key).mpr set
    rw [has_flag_unflagged _ _ _ (sound.passed point passed).1] at told
    cases told
  rw [history, flags_after_snoc] at silent
  obtain ⟨change, names⟩ := command
  cases change with
  | remove => exact .inl rfl
  | set => exact .inr (List.eq_nil_iff_forall_not_mem.mpr silent)
  | add =>
    refine .inr (List.eq_nil_iff_forall_not_mem.mpr fun key named => silent key ?_)
    exact List.mem_append_right _ named

theorem flags_honoured_iff (library : Library) (env : Environment) (message : Message)
    (script : Script) :
    FlagsHonoured library env message script ↔
      ∀ command ∈ (watchScript library env message script).1.2.executed,
        command.1 = .remove ∨ command.2 = [] := by
  constructor
  · exact honoured_harmless library env message script
  · intro harmless
    obtain ⟨sound, quiet⟩ := watch_script_sound library env message script
    refine ⟨?_, ?_⟩
    · intro point passed key
      obtain ⟨unflagged, before⟩ := sound.passed point passed
      rw [has_flag_unflagged _ _ _ unflagged,
        flags_after_harmless point.1 fun command member => harmless command (before.subset member)]
      simp
    · rw [watch_script_evaluates]
      intro ended
      rw [flags_after_harmless _ harmless]
      exact sieve_flags_quiet _ (quiet ended harmless)

def addSeen : Script :=
  ⟨[ascii "imap4flags"], [⟨ascii "addflag", [.string (ascii "\\Seen")], none, []⟩]⟩

/-- The flag that was just added is not there for `hasflag`. -/
theorem added_flag_not_seen : ¬FlagsHonoured emptyLibrary someEnvironment emptyMessage addSeen := by
  intro honoured
  have executed : (watchScript emptyLibrary someEnvironment emptyMessage addSeen).1.2.executed =
      [(.add, [ascii "\\Seen"])] := by decide
  have harmless := honoured_harmless _ _ _ _ honoured (.add, [ascii "\\Seen"]) (by
    rw [executed]
    exact List.mem_singleton.mpr rfl)
  rcases harmless with removes | nameless
  · cases removes
  · cases nameless

end Herold.Sieve

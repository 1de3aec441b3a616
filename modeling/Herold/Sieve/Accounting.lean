import Herold.Sieve.Provenance

/-!
# The accounts of the sandbox

The bytes of the variables are counted where they are stored, actions and redirects
where they are recorded. What was counted covers what is there, wherever an
evaluation has got to without an error.
-/

namespace Herold.Sieve

open Herold.Go Herold.Mail Herold.Machine Exchange

def storedBytes (vars : List (Bytes × Bytes)) : Nat := (vars.map fun entry => entry.2.length).sum

def isRedirect (action : Action) : Bool := action.recordedBy = .redirect

/-- What the sandbox promises of a state. -/
structure Accounted (limits : SandboxLimits) (state : State) : Prop where
  total : state.sandbox.totalBytes = storedBytes state.vars
  bytes : storedBytes state.vars ≤ limits.maxTotalVariableBytes
  each : ∀ entry ∈ state.vars, entry.2.length ≤ limits.maxVariableBytes
  count : state.vars.length ≤ limits.maxVariables
  actions : state.outcome.actions.length ≤ limits.maxOutcomeActions
  redirects : (state.outcome.actions.filter isRedirect).length ≤ limits.maxRedirects

/-- The same with what was counted, which may be ahead of what is recorded. -/
structure Counted (limits : SandboxLimits) (actions redirects : Nat) (state : State) : Prop where
  total : state.sandbox.totalBytes = storedBytes state.vars
  bytes : storedBytes state.vars ≤ limits.maxTotalVariableBytes
  each : ∀ entry ∈ state.vars, entry.2.length ≤ limits.maxVariableBytes
  count : state.vars.length ≤ limits.maxVariables
  recorded : state.outcome.actions.length + actions ≤ state.sandbox.actions
  capped : state.sandbox.actions ≤ limits.maxOutcomeActions
  redirected : (state.outcome.actions.filter isRedirect).length + redirects ≤ state.sandbox.redirects
  redirectsCapped : state.sandbox.redirects ≤ limits.maxRedirects

theorem counted_accounted {limits : SandboxLimits} {state : State}
    (counted : Counted limits 0 0 state) :
    Accounted limits state :=
  ⟨counted.total, counted.bytes, counted.each, counted.count,
    Nat.le_trans counted.recorded counted.capped,
      Nat.le_trans counted.redirected counted.redirectsCapped⟩

section Assigned

variable (name value : Bytes) (vars : List (Bytes × Bytes))

theorem assign_new (absent : vars.lookup name = none) :
    storedBytes (assign name value vars) = storedBytes vars + value.length ∧
      (assign name value vars).length = vars.length + 1 := by
  induction vars with
  | nil => simp [assign, storedBytes]
  | cons entry vars ih =>
    obtain ⟨key, old⟩ := entry
    rw [List.lookup_cons] at absent
    by_cases same : name = key
    · simp [same] at absent
    · have other : ¬key = name := fun equal => same equal.symm
      have differs : (name == key) = false := by simpa using same
      rw [differs] at absent
      have rest := ih absent
      simp only [assign, other, if_false, storedBytes, List.map_cons, List.sum_cons,
        List.length_cons] at rest ⊢
      omega

theorem assign_known (existing : Bytes) (found : vars.lookup name = some existing) :
    storedBytes (assign name value vars) + existing.length = storedBytes vars + value.length ∧
      (assign name value vars).length = vars.length := by
  induction vars with
  | nil => simp at found
  | cons entry vars ih =>
    obtain ⟨key, old⟩ := entry
    rw [List.lookup_cons] at found
    by_cases same : name = key
    · subst same
      simp only [beq_self_eq_true, Option.some.injEq] at found
      subst found
      simp only [assign, if_true, storedBytes, List.map_cons, List.sum_cons, List.length_cons, and_true]
      omega
    · have other : ¬key = name := fun equal => same equal.symm
      have differs : (name == key) = false := by simpa using same
      rw [differs] at found
      have rest := ih found
      simp only [assign, other, if_false, storedBytes, List.map_cons, List.sum_cons,
        List.length_cons] at rest ⊢
      omega

theorem mem_assign (entry : Bytes × Bytes) (member : entry ∈ assign name value vars) :
    entry = (name, value) ∨ entry ∈ vars := by
  induction vars with
  | nil => exact Or.inl (List.mem_singleton.mp member)
  | cons first vars ih =>
    rw [assign] at member
    split at member
    · rcases List.mem_cons.mp member with here | later
      · exact Or.inl here
      · exact Or.inr (List.mem_cons_of_mem _ later)
    · rcases List.mem_cons.mp member with here | later
      · exact Or.inr (here ▸ List.mem_cons_self)
      · exact (ih later).imp id (List.mem_cons_of_mem _)

end Assigned

variable (context : Context)

/-- A failure that an evaluation meets between two commands or tests. -/
def Paused (failure : EvalError) : Prop := failure = .instructionBudget

section Computations

variable {context} {actions redirects : Nat}

theorem counted_fewer {limits : SandboxLimits} {state : State}
    (counted : Counted limits actions redirects state) :
    Counted limits 0 0 state :=
  { counted with
    recorded := Nat.le_trans (Nat.le_add_right _ _) counted.recorded
    redirected := Nat.le_trans (Nat.le_add_right _ _) counted.redirected }

theorem charge_counted (counter : Counter) :
    Triple (Counted context.env.limits actions redirects) (charge context counter)
      (fun _ => Counted context.env.limits (actions + if counter = .actions then 1 else 0)
        (redirects + if counter = .redirects then 1 else 0))
      (fun failure state => Paused failure → Counted context.env.limits 0 0 state) := by
  intro state counted
  have recorded := counted.recorded
  have redirected := counted.redirected
  by_cases full : context.env.limits.of counter < (state.sandbox.charged counter).count counter
  · have ran : charge context counter state = ({ state with sandbox := state.sandbox.charged counter },
        .error counter.exhausted) := Prod.ext rfl (if_pos full)
    rw [ran]
    intro paused
    cases counter with
    | instructions => exact counted_fewer { counted with }
    | redirects | notifies | actions => cases paused
  · have ran : charge context counter state = ({ state with sandbox := state.sandbox.charged counter },
        .ok ()) := Prod.ext rfl (if_neg full)
    rw [ran]
    cases counter with
    | instructions => exact { counted with }
    | notifies => exact { counted with }
    | redirects =>
      exact { counted with
        redirected := by
          show (state.outcome.actions.filter isRedirect).length + (redirects + 1) ≤
            state.sandbox.redirects + 1
          omega
        redirectsCapped := Nat.not_lt.mp full }
    | actions =>
      exact { counted with
        recorded := by
          show state.outcome.actions.length + (actions + 1) ≤ state.sandbox.actions + 1
          omega
        capped := Nat.not_lt.mp full }

theorem append_counted (action : Action) :
    Triple (Counted context.env.limits 0 (if isRedirect action then 1 else 0))
      (appendAction context action)
      (fun _ => Counted context.env.limits 0 0)
      (fun failure state => Paused failure → Counted context.env.limits 0 0 state) := by
  refine triple_bind _ (charge_counted .actions) fun _ => triple_modify _ _ fun state counted => ?_
  have recorded := counted.recorded
  have redirected := counted.redirected
  refine { counted with recorded := ?_, redirected := ?_ }
  · simp only [record, List.length_append, List.length_singleton]
    simpa using recorded
  · simp only [record, List.filter_append, List.length_append]
    cases redirect : isRedirect action with
    | true => simpa [redirect] using redirected
    | false => simpa [redirect] using redirected

theorem check_storage_counted (delta : Nat) (pre post : State → Prop)
    (holds : ∀ state, pre state →
      state.sandbox.totalBytes + delta ≤ context.env.limits.maxTotalVariableBytes →
      post { state with
        sandbox := { state.sandbox with totalBytes := state.sandbox.totalBytes + delta } }) :
    Triple pre (checkVarStorage context delta) (fun _ => post)
      (fun failure state => Paused failure → Counted context.env.limits 0 0 state) := by
  refine triple_bind (fun current state => current = state ∧ pre state)
    (triple_get _ fun _ met => ⟨rfl, met⟩) fun current => ?_
  split
  case isTrue => exact triple_stop _ _ fun _ _ paused => by cases paused
  case isFalse fits =>
    refine triple_modify _ _ ?_
    rintro state ⟨rfl, met⟩
    exact holds _ met (Int.not_lt.mp fits)

/-- The account is settled before the value is stored. -/
theorem reserve_counted (name value : Bytes)
    (short : value.length ≤ context.env.limits.maxVariableBytes) :
    Triple (Counted context.env.limits 0 0) (reserveVariable context name value)
      (fun _ state => Counted context.env.limits 0 0
        { state with vars := assign name value state.vars })
      (fun failure state => Paused failure → Counted context.env.limits 0 0 state) := by
  have each {vars : List (Bytes × Bytes)}
      (bounded : ∀ entry ∈ vars, entry.2.length ≤ context.env.limits.maxVariableBytes) :
      ∀ entry ∈ assign name value vars, entry.2.length ≤ context.env.limits.maxVariableBytes := by
    intro entry member
    rcases mem_assign name value vars entry member with rfl | old
    · exact short
    · exact bounded entry old
  refine triple_bind (fun current state => current = state ∧ Counted context.env.limits 0 0 state)
    (triple_get _ fun _ met => ⟨rfl, met⟩) fun current => ?_
  split
  · rename_i absent
    split
    · exact triple_stop _ _ fun _ _ paused => by cases paused
    · rename_i room
      refine check_storage_counted _ _ _ ?_
      rintro state ⟨rfl, counted⟩ fits
      obtain ⟨bytes, count⟩ := assign_new name value current.vars absent
      have total := counted.total
      refine { counted with total := ?_, bytes := ?_, each := each counted.each, count := ?_ }
      · dsimp only
        omega
      · dsimp only
        omega
      · dsimp only
        omega
  · rename_i existing found
    refine triple_bind (fun _ state => state = { current with sandbox := { current.sandbox with
        totalBytes := current.sandbox.totalBytes - existing.length } } ∧
          Counted context.env.limits 0 0 current) ?_ fun _ => ?_
    · refine triple_modify _ _ ?_
      rintro state ⟨rfl, counted⟩
      exact ⟨rfl, counted⟩
    · refine check_storage_counted _ _ _ ?_
      rintro state ⟨rfl, counted⟩ fits
      obtain ⟨bytes, count⟩ := assign_known name value current.vars existing found
      have total := counted.total
      have kept := counted.count
      refine { counted with total := ?_, bytes := ?_, each := each counted.each, count := ?_ }
      · dsimp only
        omega
      · dsimp only at fits ⊢
        omega
      · dsimp only
        omega

theorem counted_ledger (kinds : List CommandName) :
    Ledger context kinds Paused (Counted context.env.limits 0 0) where
  aside := by
    intro state other actions _ vars sandbox counted
    obtain ⟨total, bytes, each, count, recorded, capped, redirected, redirectsCapped⟩ := counted
    constructor <;> (try rw [vars]) <;> (try rw [sandbox]) <;> (try rw [actions]) <;> assumption
  charges := fun counter => triple_weaken (charge_counted counter) (fun _ met => met)
    fun _ _ counted => counted_fewer counted
  appends := by
    intro action _ other
    have plain : isRedirect action = false := by simpa [isRedirect] using other
    have appended := @append_counted context action
    rw [plain] at appended
    exact appended
  redirects := by
    intro _ args
    refine triple_bind _ (charge_counted .redirects) fun _ =>
      triple_bind (fun _ => Counted context.env.limits 0 1) (triple_get _ fun _ met => met)
        fun state => ?_
    dsimp only
    split
    · exact triple_stop _ _ fun _ _ paused => by cases paused
    · have appended := @append_counted context (.redirect (lastString (expandVars context state) args)
        (hasTag ":copy" args))
      rw [if_pos (by rfl)] at appended
      exact appended
  stores := by
    intro name value short
    exact triple_bind _ (reserve_counted name value short) fun _ => triple_modify _ _ fun _ met => met

end Computations

/-- A budget of instructions stops an evaluation where it would start its next
command or test. -/
def cutAt (budget : Nat) : Context :=
  { context with env := { context.env with
    limits := { context.env.limits with maxInstructions := budget } } }

/-- The states an evaluation goes through: those in which a smaller budget stops it,
and the one in which it ends. -/
def Passes (commands : List Command) (state : State) : Prop :=
  ∃ budget ≤ context.env.limits.maxInstructions, ∃ result,
    runBlock (cutAt context budget) {} commands {} = (state, result) ∧
      (result = .ok () ∨ result = .error .instructionBudget)

/-- For every script and message, wherever the evaluation has got to without an
error, the accounts of the sandbox are right and within the limits. -/
theorem sandbox_accounted (library : Library) (env : Environment) (message : Message) (script : Script)
    (state : State)
    (passed : Passes (evaluationContext library env message script.requires) script.commands state) :
    Accounted (evaluationContext library env message script.requires).env.limits state := by
  obtain ⟨budget, _, result, ran, goes⟩ := passed
  have kept := run_block_keeps_ledger
    (cutAt (evaluationContext library env message script.requires) budget)
    (counted_ledger ((commandsWithin script.commands).filterMap Command.kind)) script.commands {}
      fun inner inside kind known => List.mem_filterMap.mpr ⟨inner, inside, known⟩
  have start : Counted (cutAt (evaluationContext library env message script.requires) budget).env.limits
      0 0 {} :=
    ⟨rfl, Nat.zero_le _, by simp, Nat.zero_le _, Nat.le_refl _, Nat.zero_le _, Nat.le_refl _, Nat.zero_le _⟩
  have counted : Counted (cutAt (evaluationContext library env message script.requires)
    budget).env.limits
      0 0 state := by
    have held := kept {} start
    rw [ran] at held
    rcases goes with rfl | rfl
    · exact held
    · exact held rfl
  obtain ⟨total, bytes, each, count, actions, redirects⟩ := counted_accounted counted
  exact ⟨total, bytes, each, count, actions, redirects⟩

def setTwoBytes : Script :=
  ⟨[ascii "variables"], [⟨ascii "set", [.string (ascii "a"), .string (ascii "bc")], none, []⟩]⟩

def setTwoBytesContext : Context :=
  evaluationContext emptyLibrary someEnvironment emptyMessage setTwoBytes.requires

def afterSet : State := (runBlock setTwoBytesContext {} setTwoBytes.commands {}).1

theorem sandbox_accounted_of_set : afterSet.vars = [(ascii "a", ascii "bc")] ∧
    Accounted setTwoBytesContext.env.limits afterSet := by
  refine ⟨by decide, sandbox_accounted emptyLibrary someEnvironment emptyMessage setTwoBytes _ ?_⟩
  refine ⟨100000, by decide, .ok (), Prod.ext rfl ?_, Or.inl rfl⟩
  have finished : (runBlock setTwoBytesContext {} setTwoBytes.commands {}).2 = .ok () := by rfl
  exact finished

end Herold.Sieve

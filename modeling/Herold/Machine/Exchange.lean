import Mathlib.Tactic.TypeStar

/-!
# Computations that may stop early

A conversation changes a state and ends in a value, unless one of its steps
stops it with a result of its own. A triple says what holds of the state in
either case.
-/

namespace Herold.Machine

/-- A computation on a state that ends in a value or stops with a result. -/
def Exchange (State Stop Value : Type) : Type := State → State × Except Stop Value

namespace Exchange

variable {State Stop Value Result : Type}

instance : Monad (Exchange State Stop) where
  pure value := fun state => (state, .ok value)
  bind first next := fun state =>
    match first state with
    | (state, .ok value) => next value state
    | (state, .error result) => (state, .error result)

def stop (result : Stop) : Exchange State Stop Value := fun state => (state, .error result)

def get : Exchange State Stop State := fun state => (state, .ok state)

def modify (change : State → State) : Exchange State Stop Unit := fun state => (change state, .ok ())

/-- From a state that meets the precondition, the computation ends in a value and
a state that meet the postcondition, or stops in a state that meets the other. -/
def Triple (pre : State → Prop) (computation : Exchange State Stop Value)
    (post : Value → State → Prop) (stopped : Stop → State → Prop) : Prop :=
  ∀ state, pre state → match computation state with
    | (after, .ok value) => post value after
    | (after, .error result) => stopped result after

variable {pre : State → Prop} {stopped : Stop → State → Prop}

theorem triple_pure (value : Value) (post : Value → State → Prop)
    (holds : ∀ state, pre state → post value state) :
    Triple pre (pure value : Exchange State Stop Value) post stopped :=
  holds

theorem triple_stop (result : Stop) (post : Value → State → Prop)
    (holds : ∀ state, pre state → stopped result state) :
    Triple pre (stop result : Exchange State Stop Value) post stopped :=
  holds

theorem triple_get (post : State → State → Prop) (holds : ∀ state, pre state → post state state) :
    Triple pre (get : Exchange State Stop State) post stopped :=
  holds

theorem triple_modify (change : State → State) (post : Unit → State → Prop)
    (holds : ∀ state, pre state → post () (change state)) :
    Triple pre (modify change : Exchange State Stop Unit) post stopped :=
  holds

theorem triple_bind {first : Exchange State Stop Value} {next : Value → Exchange State Stop Result}
    (middle : Value → State → Prop) {post : Result → State → Prop}
    (begins : Triple pre first middle stopped)
    (continues : ∀ value, Triple (middle value) (next value) post stopped) :
    Triple pre (first >>= next) post stopped := by
  intro state holds
  have started := begins state holds
  show match (match first state with
    | (state, .ok value) => next value state
    | (state, .error result) => (state, .error result)) with
    | (after, .ok value) => post value after
    | (after, .error result) => stopped result after
  rcases ran : first state with ⟨after, result | value⟩
  · rw [ran] at started
    exact started
  · rw [ran] at started
    exact continues value after started

section

variable {computation : Exchange State Stop Value} {post : Value → State → Prop}

theorem triple_weaken {stronger : State → Prop}
    {post weaker : Value → State → Prop} (holds : Triple pre computation post stopped)
    (before : ∀ state, stronger state → pre state)
    (after : ∀ value state, post value state → weaker value state) :
    Triple stronger computation weaker stopped := by
  intro state met
  have ran := holds state (before state met)
  rcases result : computation state with ⟨next, stops | value⟩
  · rw [result] at ran
    exact ran
  · rw [result] at ran
    exact after value next ran

theorem triple_ends (holds : Triple pre computation post stopped) {before after : State} {value : Value}
    (met : pre before) (ran : computation before = (after, .ok value)) : post value after := by
  have result := holds before met
  rw [ran] at result
  exact result

theorem triple_stops (holds : Triple pre computation post stopped) {before after : State}
    {result : Stop}
    (met : pre before) (ran : computation before = (after, .error result)) :
    stopped result after := by
  have stops := holds before met
  rw [ran] at stops
  exact stops

theorem triple_known {fact : Prop} (holds : fact → Triple pre computation post stopped) :
    Triple (fun state => pre state ∧ fact) computation post stopped := by
  intro state met
  exact holds met.2 state met.1

end

/-- The computation keeps the invariant, whether it ends in a value or stops. -/
def Keeps (invariant : State → Prop) (computation : Exchange State Stop Value) : Prop :=
  Triple invariant computation (fun _ => invariant) (fun _ => invariant)

variable {invariant : State → Prop}

theorem keeps_pure (value : Value) : Keeps invariant (pure value : Exchange State Stop Value) :=
  triple_pure value _ fun _ holds => holds

theorem keeps_stop (result : Stop) : Keeps invariant (stop result : Exchange State Stop Value) :=
  triple_stop result _ fun _ holds => holds

theorem keeps_get : Keeps invariant (get : Exchange State Stop State) :=
  triple_get _ fun _ holds => holds

theorem keeps_modify (change : State → State)
    (kept : ∀ state, invariant state → invariant (change state)) :
    Keeps invariant (modify change : Exchange State Stop Unit) :=
  triple_modify change _ kept

theorem keeps_bind {first : Exchange State Stop Value} {next : Value → Exchange State Stop Result}
    (begins : Keeps invariant first) (continues : ∀ value, Keeps invariant (next value)) :
    Keeps invariant (first >>= next) :=
  triple_bind _ begins continues

/-- The computation keeps the invariant where it ends in a value, or stops with one
of the results. -/
def Guards (results : Stop → Prop) (invariant : State → Prop)
    (computation : Exchange State Stop Value) :
    Prop :=
  Triple invariant computation (fun _ => invariant) fun result state => results result → invariant state

variable {results : Stop → Prop}

theorem guards_pure (value : Value) :
    Guards results invariant (pure value : Exchange State Stop Value) :=
  triple_pure value _ fun _ holds => holds

theorem guards_stop (result : Stop) :
    Guards results invariant (stop result : Exchange State Stop Value) :=
  triple_stop result _ fun _ holds _ => holds

theorem guards_get : Guards results invariant (get : Exchange State Stop State) :=
  triple_get _ fun _ holds => holds

theorem guards_modify (change : State → State)
    (kept : ∀ state, invariant state → invariant (change state)) :
    Guards results invariant (modify change : Exchange State Stop Unit) :=
  triple_modify change _ kept

theorem guards_bind {first : Exchange State Stop Value} {next : Value → Exchange State Stop Result}
    (begins : Guards results invariant first)
    (continues : ∀ value, Guards results invariant (next value)) :
    Guards results invariant (first >>= next) :=
  triple_bind _ begins continues

/-- What is kept whatever happens is kept where it is asked for. -/
theorem keeps_guards {computation : Exchange State Stop Value} (kept : Keeps invariant computation) :
    Guards results invariant computation := by
  intro state holds
  have ran := kept state holds
  rcases result : computation state with ⟨after, stops | value⟩
  · rw [result] at ran
    exact fun _ => ran
  · rw [result] at ran
    exact ran

theorem guards_keeps {computation : Exchange State Stop Value}
    (guarded : Guards (fun _ => True) invariant computation) : Keeps invariant computation := by
  intro state holds
  have ran := guarded state holds
  rcases result : computation state with ⟨after, stops | value⟩
  · rw [result] at ran
    exact ran trivial
  · rw [result] at ran
    exact ran

theorem keeps_ends {computation : Exchange State Stop Value} (kept : Keeps invariant computation)
    {before : State} (holds : invariant before) : invariant (computation before).1 := by
  have ran := kept before holds
  rcases result : computation before with ⟨after, stops | value⟩
  · rw [result] at ran
    exact ran
  · rw [result] at ran
    exact ran

end Exchange

end Herold.Machine

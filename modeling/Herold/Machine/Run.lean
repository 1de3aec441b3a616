import Mathlib.Tactic.TypeStar

/-!
# Runs of a labelled machine

A machine takes one step per label, or refuses it. A guarded machine also
refuses the labels a condition on the state excludes, so that its runs are the
runs of the original machine in which every step meets the condition.
-/

namespace Herold

structure Machine (State Label : Type*) where
  step : State → Label → Option State

namespace Machine

variable {State Label : Type*}

def execute (machine : Machine State Label) : State → List Label → Option State
  | state, [] => some state
  | state, label :: labels =>
    match machine.step state label with
    | some next => execute machine next labels
    | none => none

def guarded (machine : Machine State Label) (Allowed : State → Label → Prop)
    [∀ state label, Decidable (Allowed state label)] : Machine State Label where
  step state label := if Allowed state label then machine.step state label else none

section

variable (machine : Machine State Label) (Allowed : State → Label → Prop)

theorem guarded_step [∀ state label, Decidable (Allowed state label)] (state : State) (label : Label)
    (next : State) :
    (machine.guarded Allowed).step state label = some next ↔
      Allowed state label ∧ machine.step state label = some next := by
  unfold guarded
  by_cases allowed : Allowed state label
  · simp [allowed]
  · simp [allowed]

theorem execute_keeps (Invariant : State → Prop)
    (keeps : ∀ state label next, Invariant state → machine.step state label = some next →
      Invariant next)
    (labels : List Label) (start final : State) (holds : Invariant start)
    (ran : machine.execute start labels = some final) : Invariant final := by
  induction labels generalizing start with
  | nil =>
    simp only [execute, Option.some.injEq] at ran
    exact ran ▸ holds
  | cons label labels ih =>
    cases stepped : machine.step start label with
    | none => simp [execute, stepped] at ran
    | some next =>
      simp only [execute, stepped] at ran
      exact ih next (keeps start label next holds stepped) ran

theorem guarded_keeps [∀ state label, Decidable (Allowed state label)] (Invariant : State → Prop)
    (keeps : ∀ state label next, Invariant state → Allowed state label →
      machine.step state label = some next → Invariant next)
    (labels : List Label) (start final : State) (holds : Invariant start)
    (ran : (machine.guarded Allowed).execute start labels = some final) : Invariant final := by
  refine execute_keeps (machine.guarded Allowed) Invariant ?_ labels start final holds ran
  intro state label next before stepped
  obtain ⟨allowed, unguarded⟩ := (guarded_step machine Allowed state label next).mp stepped
  exact keeps state label next before allowed unguarded

/-- Every step of the run meets the condition, as far as the run goes. -/
def Meets (machine : Machine State Label) (Allowed : State → Label → Prop) : State → List Label → Prop
  | _, [] => True
  | state, label :: labels =>
    Allowed state label ∧
      match machine.step state label with
      | some next => Meets machine Allowed next labels
      | none => True

instance decideMeets (machine : Machine State Label) (Allowed : State → Label → Prop)
    [∀ state label, Decidable (Allowed state label)] :
    ∀ state labels, Decidable (machine.Meets Allowed state labels)
  | _, [] => isTrue trivial
  | state, label :: labels =>
    have : Decidable (match machine.step state label with
        | some next => machine.Meets Allowed next labels
        | none => True) :=
      match machine.step state label with
      | some next => decideMeets machine Allowed next labels
      | none => isTrue trivial
    inferInstanceAs (Decidable (_ ∧ _))

/-- What a step keeps where it meets the condition holds after every run that
meets it throughout. -/
theorem meets_keeps (Invariant : State → Prop)
    (keeps : ∀ state label next, Invariant state → Allowed state label →
      machine.step state label = some next → Invariant next)
    (labels : List Label) (start final : State) (holds : Invariant start)
    (meets : machine.Meets Allowed start labels)
    (ran : machine.execute start labels = some final) : Invariant final := by
  induction labels generalizing start with
  | nil =>
    simp only [execute, Option.some.injEq] at ran
    exact ran ▸ holds
  | cons label labels ih =>
    obtain ⟨allowed, later⟩ := meets
    cases stepped : machine.step start label with
    | none => simp [execute, stepped] at ran
    | some next =>
      simp only [execute, stepped] at ran
      simp only [stepped] at later
      exact ih next (keeps start label next holds allowed stepped) later ran

theorem meets_always (labels : List Label) (start : State)
    (always : ∀ label ∈ labels, ∀ state, Allowed state label) : machine.Meets Allowed start labels := by
  induction labels generalizing start with
  | nil => trivial
  | cons label labels ih =>
    refine ⟨always label List.mem_cons_self start, ?_⟩
    cases machine.step start label with
    | none => trivial
    | some next => exact ih next fun other member => always other (List.mem_cons_of_mem _ member)

theorem meets_labels (Kept : Label → Prop) (labels : List Label) (start : State)
    (meets : machine.Meets Allowed start labels) (kept : ∀ label ∈ labels, Kept label) :
    machine.Meets (fun state label => Kept label ∧ Allowed state label) start labels := by
  induction labels generalizing start with
  | nil => trivial
  | cons label labels ih =>
    obtain ⟨allowed, later⟩ := meets
    refine ⟨⟨kept label List.mem_cons_self, allowed⟩, ?_⟩
    cases stepped : machine.step start label with
    | none => trivial
    | some next =>
      simp only [stepped] at later
      exact ih next later fun other member => kept other (List.mem_cons_of_mem _ member)

end

end Machine

end Herold

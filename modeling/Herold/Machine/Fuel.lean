import Mathlib.Data.List.Forall2

/-!
# Computations with a bound on their calls

A computation that is given more calls may go on where it ran out of them before,
but it does not change a result it already had. So a result it has for every
bound that is large enough is its result for any bound it does not run out of.
-/

namespace Herold.Machine

variable {Failure Value Result : Type} {starved : Failure}

/-- The first computation ran out of calls, or the second has its result. -/
def Refines (starved : Failure) (less more : Except Failure Value) : Prop :=
  less = .error starved ∨ more = less

theorem refines_refl (computation : Except Failure Value) : Refines starved computation computation :=
  Or.inr rfl

theorem refines_starved (more : Except Failure Value) : Refines starved (.error starved) more :=
  Or.inl rfl

theorem refines_trans {less middle more : Except Failure Value} (first : Refines starved less middle)
    (second : Refines starved middle more) : Refines starved less more := by
  rcases first with out | same
  · exact Or.inl out
  · rw [Refines, same] at second
    exact second

theorem refines_bind {less more : Except Failure Value}
    {next later : Value → Except Failure Result} (first : Refines starved less more)
    (continues : ∀ value, Refines starved (next value) (later value)) :
    Refines starved (less >>= next) (more >>= later) := by
  rcases first with out | same
  · rw [out]
    exact Or.inl rfl
  · rw [same]
    cases less with
    | error failure => exact Or.inr rfl
    | ok value => exact continues value

theorem refines_ite {condition : Prop} [Decidable condition]
    {less more less' more' : Except Failure Value} (positive : Refines starved less more)
    (negative : Refines starved less' more') :
    Refines starved (if condition then less else less') (if condition then more else more') := by
  split
  · exact positive
  · exact negative

theorem refines_more {Input : Type*} {computation : Nat → Input → Except Failure Value}
    (step : ∀ fuel input, Refines starved (computation fuel input) (computation (fuel + 1) input))
    {fuel more : Nat} (enough : fuel ≤ more) (input : Input) :
    Refines starved (computation fuel input) (computation more input) := by
  induction enough with
  | refl => exact refines_refl _
  | step _ ih => exact refines_trans ih (step _ input)

theorem bind_ok {computation : Except Failure Value} {next : Value → Except Failure Result}
    {result : Result} (succeeded : computation >>= next = .ok result) :
    ∃ value, computation = .ok value ∧ next value = .ok result := by
  cases ran : computation with
  | error failure =>
    rw [ran] at succeeded
    cases succeeded
  | ok value =>
    rw [ran] at succeeded
    exact ⟨value, rfl, succeeded⟩

theorem map_error_ok {Other : Type} {computation : Except Failure Value} {map : Failure → Other}
    {value : Value} (succeeded : computation.mapError map = .ok value) : computation = .ok value := by
  cases computation with
  | error failure => cases succeeded
  | ok found => exact congrArg Except.ok (Except.ok.inj succeeded)

theorem map_ok {Input : Type} {map : Input → Except Failure Value} {inputs : List Input}
    {values : List Value} (succeeded : inputs.mapM map = .ok values) :
    List.Forall₂ (fun input value => map input = .ok value) inputs values := by
  induction inputs generalizing values with
  | nil =>
    rw [List.mapM_nil] at succeeded
    cases succeeded
    exact List.Forall₂.nil
  | cons input inputs ih =>
    rw [List.mapM_cons] at succeeded
    obtain ⟨value, first, later⟩ := bind_ok succeeded
    obtain ⟨rest, mapped, ended⟩ := bind_ok later
    cases ended
    exact List.Forall₂.cons first (ih mapped)

/-- The computation succeeds with the value whenever its bound is large enough. -/
def Settles (computation : Nat → Except Failure Value) (value : Value) : Prop :=
  ∃ enough, ∀ fuel, enough ≤ fuel → computation fuel = .ok value

theorem settles_const {computation : Except Failure Value} {value : Value}
    (succeeds : computation = .ok value) : Settles (fun _ => computation) value :=
  ⟨0, fun _ _ => succeeds⟩

theorem settles_bind {computation : Nat → Except Failure Value}
    {next : Nat → Value → Except Failure Result} {value : Value} {result : Result}
    (first : Settles computation value) (continues : Settles (fun fuel => next fuel value) result) :
    Settles (fun fuel => computation fuel >>= next fuel) result := by
  obtain ⟨enough, succeeds⟩ := first
  obtain ⟨later, ends⟩ := continues
  refine ⟨max enough later, fun fuel within => ?_⟩
  show computation fuel >>= next fuel = .ok result
  rw [succeeds fuel (Nat.le_trans (Nat.le_max_left _ _) within)]
  exact ends fuel (Nat.le_trans (Nat.le_max_right _ _) within)

theorem settles_succ {computation : Nat → Except Failure Value} {value : Value}
    (succeeds : Settles (fun fuel => computation (fuel + 1)) value) : Settles computation value := by
  obtain ⟨enough, settled⟩ := succeeds
  refine ⟨enough + 1, fun fuel within => ?_⟩
  cases fuel with
  | zero => exact absurd within (Nat.not_succ_le_zero _)
  | succ fuel => exact settled fuel (Nat.le_of_succ_le_succ within)

theorem settles_congr {computation other : Nat → Except Failure Value} {value : Value}
    (succeeds : Settles other value) (same : ∀ fuel, computation fuel = other fuel) :
    Settles computation value := by
  obtain ⟨enough, settled⟩ := succeeds
  exact ⟨enough, fun fuel within => (same fuel).trans (settled fuel within)⟩

theorem settles_unique {computation : Nat → Except Failure Value} {value other : Value}
    (settled : Settles computation value) (again : Settles computation other) : value = other := by
  obtain ⟨enough, succeeds⟩ := settled
  obtain ⟨later, ends⟩ := again
  have same := (succeeds _ (Nat.le_max_left enough later)).symm.trans (ends _ (Nat.le_max_right _ _))
  exact Except.ok.inj same

theorem settles_pos {condition : Prop} [Decidable condition]
    {positive negative : Nat → Except Failure Value} {value : Value} (holds : condition)
    (succeeds : Settles positive value) :
    Settles (fun fuel => if condition then positive fuel else negative fuel) value :=
  settles_congr succeeds fun _ => if_pos holds

theorem settles_neg {condition : Prop} [Decidable condition]
    {positive negative : Nat → Except Failure Value} {value : Value} (fails : ¬condition)
    (succeeds : Settles negative value) :
    Settles (fun fuel => if condition then positive fuel else negative fuel) value :=
  settles_congr succeeds fun _ => if_neg fails

section Monotone

variable {Input : Type*} {computation : Nat → Input → Except Failure Value}
variable (step : ∀ fuel input, Refines starved (computation fuel input) (computation (fuel + 1) input))
include step

theorem settles_of_ok {fuel : Nat} {input : Input} {value : Value}
    (succeeds : computation fuel input = .ok value) :
    Settles (fun fuel => computation fuel input) value := by
  refine ⟨fuel, fun more enough => ?_⟩
  rcases refines_more step enough input with out | same
  · rw [succeeds] at out
    cases out
  · exact same.trans succeeds

end Monotone

end Herold.Machine

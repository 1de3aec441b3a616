import Herold.Machine.Fuel
import Herold.Sieve.Parse

/-!
# The parser's bound on its calls

More calls never change what a parse succeeds with, so what a script is read as
can be said without a number of calls.
-/

namespace Herold.Sieve

open Herold.Go Herold.Machine

section

variable (fuel : Nat) {Value : Type} (text : Text)

theorem string_list_more :
    Refines .outOfFuel (stringListFrom fuel text) (stringListFrom (fuel + 1) text) := by
  induction fuel generalizing text with
  | zero => exact refines_starved _
  | succ fuel ih =>
    rw [stringListFrom, stringListFrom]
    refine refines_bind (refines_refl _) fun text => refines_ite (refines_refl _) ?_
    refine refines_bind (refines_refl _) fun item => refines_bind (refines_refl _) fun rest => ?_
    refine refines_ite ?_ (refines_refl _)
    exact refines_bind (ih _) fun items => refines_refl _

theorem argument_more :
    Refines .outOfFuel (parseArgument fuel text) (parseArgument (fuel + 1) text) := by
  unfold parseArgument
  refine refines_bind (refines_refl _) fun text => refines_ite (refines_refl _) ?_
  refine refines_ite (refines_refl _) (refines_ite (refines_refl _) (refines_ite ?_ (refines_refl _)))
  exact refines_bind (string_list_more fuel _) fun items => refines_refl _

theorem test_arguments_more (name : Bytes) (text : Text) :
    Refines .outOfFuel (testArguments fuel name text) (testArguments (fuel + 1) name text) := by
  induction fuel generalizing text with
  | zero => exact refines_starved _
  | succ fuel ih =>
    rw [testArguments, testArguments]
    refine refines_bind (refines_refl _) fun text => refines_ite (refines_refl _) ?_
    refine refines_ite (refines_refl _) (refines_ite ?_ (refines_refl _))
    exact refines_bind (argument_more fuel text) fun arg =>
      refines_bind (ih arg.2) fun args => refines_refl _

theorem tests_more :
    (∀ depth text, Refines .outOfFuel (parseTest fuel depth text) (parseTest (fuel + 1) depth text)) ∧
      ∀ depth text, Refines .outOfFuel (testListFrom fuel depth text)
        (testListFrom (fuel + 1) depth text) := by
  induction fuel with
  | zero => exact ⟨fun _ _ => refines_starved _, fun _ _ => refines_starved _⟩
  | succ fuel ih =>
    obtain ⟨oneMore, listMore⟩ := ih
    refine ⟨fun depth text => ?_, fun depth text => ?_⟩
    · rw [parseTest, parseTest]
      refine refines_bind (refines_refl _) fun head => ?_
      refine refines_ite ?_ (refines_ite ?_ (refines_ite (refines_refl _) ?_))
      · refine refines_bind (refines_refl _) fun text => refines_ite ?_ (refines_refl _)
        exact refines_bind (refines_refl _) fun depth =>
          refines_bind (listMore depth _) fun children => refines_refl _
      · exact refines_bind (refines_refl _) fun depth =>
          refines_bind (oneMore depth _) fun child => refines_refl _
      · exact refines_bind (test_arguments_more fuel _ _) fun args => refines_refl _
    · rw [testListFrom, testListFrom]
      refine refines_bind (refines_refl _) fun text => refines_ite (refines_refl _) ?_
      refine refines_bind (oneMore depth text) fun test => refines_bind (refines_refl _) fun rest => ?_
      exact refines_ite (refines_bind (listMore depth _) fun tests => refines_refl _) (refines_refl _)

theorem commands_more :
    (∀ depth text, Refines .outOfFuel (parseCommand fuel depth text)
      (parseCommand (fuel + 1) depth text)) ∧
      (∀ depth command text, Refines .outOfFuel (commandFrom fuel depth command text)
        (commandFrom (fuel + 1) depth command text)) ∧
        ∀ depth text, Refines .outOfFuel (blockFrom fuel depth text)
          (blockFrom (fuel + 1) depth text) := by
  induction fuel with
  | zero =>
    exact ⟨fun _ _ => refines_starved _, fun _ _ _ => refines_starved _, fun _ _ => refines_starved _⟩
  | succ fuel ih =>
    obtain ⟨headMore, restMore, blockMore⟩ := ih
    refine ⟨fun depth text => ?_, fun depth command text => ?_, fun depth text => ?_⟩
    · rw [parseCommand, parseCommand]
      exact refines_bind (refines_refl _) fun head => restMore depth _ _
    · rw [commandFrom, commandFrom]
      refine refines_bind (refines_refl _) fun text => refines_ite (refines_refl _) ?_
      refine refines_ite (refines_refl _)
        (refines_ite ?_ (refines_ite ?_ (refines_ite ?_ (refines_refl _))))
      · exact refines_bind (refines_refl _) fun depth =>
          refines_bind (blockMore depth _) fun block => refines_refl _
      · exact refines_bind (argument_more fuel text) fun arg => restMore depth _ _
      · refine refines_ite (refines_refl _) ?_
        exact refines_bind ((tests_more fuel).1 depth text) fun test => restMore depth _ _
    · rw [blockFrom, blockFrom]
      refine refines_bind (refines_refl _) fun text => refines_ite (refines_refl _) ?_
      refine refines_ite (refines_refl _) ?_
      exact refines_bind (headMore depth text) fun command =>
        refines_bind (blockMore depth _) fun commands => refines_refl _

theorem script_more : Refines .outOfFuel (scriptFrom fuel text) (scriptFrom (fuel + 1) text) := by
  induction fuel generalizing text with
  | zero => exact refines_starved _
  | succ fuel ih =>
    rw [scriptFrom, scriptFrom]
    refine refines_bind (refines_refl _) fun text => refines_ite (refines_refl _) ?_
    refine refines_bind ((commands_more fuel).1 0 text) fun command => refines_ite ?_ ?_
    · exact refines_bind (refines_refl _) fun names => refines_bind (ih _) fun script => refines_refl _
    · exact refines_bind (ih _) fun script => refines_refl _

end

theorem parse_settles {source : Bytes} {script : Script} (parsed : parse source = .ok script) :
    Settles (fun fuel => scriptFrom fuel (runes source)) script := by
  unfold parse at parsed
  split at parsed
  · cases parsed
  · exact settles_of_ok script_more parsed

end Herold.Sieve

import Mathlib.Data.List.Induction
import Mathlib.Tactic.TypeStar

/-!
# Properties of a growing history

A safety property of a log says, for every event, what had to hold of the events
before it. Such a property is kept by appending an event exactly when the new
event meets it against the log so far.
-/

namespace Herold.Machine

variable {Event : Type*}

/-- Every event of the log meets the check against what stands before it. -/
def EveryEvent (check : List Event → Event → Prop) (log : List Event) : Prop :=
  ∀ before event after, log = before ++ event :: after → check before event

theorem every_event_nil (check : List Event → Event → Prop) : EveryEvent check [] := by
  intro before event after split
  simp at split

theorem every_event_append (check : List Event → Event → Prop) (log : List Event) (event : Event)
    (holds : EveryEvent check log) (last : check log event) : EveryEvent check (log ++ [event]) := by
  intro before other after split
  cases after using List.reverseRecOn with
  | nil =>
    obtain ⟨rfl, same⟩ := List.append_inj' split rfl
    rw [List.cons.injEq] at same
    rw [← same.1]
    exact last
  | append_singleton after final _ =>
    rw [← List.cons_append, ← List.append_assoc] at split
    obtain ⟨earlier, _⟩ := List.append_inj' split rfl
    exact holds before other after earlier

def Since (opens closes : Event → Prop) (log : List Event) : Prop :=
  ∃ earlier event later, log = earlier ++ event :: later ∧ opens event ∧
    ∀ other ∈ later, ¬closes other

theorem since_opened (opens closes : Event → Prop) (log : List Event) (event : Event)
    (opened : opens event) : Since opens closes (log ++ [event]) :=
  ⟨log, event, [], rfl, opened, by simp⟩

theorem since_append (opens closes : Event → Prop) (log : List Event) (event : Event)
    (holds : Since opens closes log) (stays : ¬closes event) :
    Since opens closes (log ++ [event]) := by
  obtain ⟨earlier, first, later, rfl, opened, quiet⟩ := holds
  refine ⟨earlier, first, later ++ [event], by simp, opened, ?_⟩
  intro other member
  rw [List.mem_append, List.mem_singleton] at member
  rcases member with before | rfl
  · exact quiet other before
  · exact stays

end Herold.Machine

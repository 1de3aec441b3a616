import Mathlib.Data.List.Forall2

/-!
# Two runs of one computation

A computation with a state and failures is run twice, from states that correspond
without being equal. The runs agree when both fail in the same way, or both return
values and states that correspond again. Agreement is kept by sequencing and by
branches on equal conditions, so it needs to be shown for the primitive steps
only. The failures that may occur are a parameter, as is the relation in which the
states are found afterwards.
-/

namespace Herold.Machine

variable {State Failure Value Other Result Final : Type}

/-- What two runs have come to: the same failure, one of those admitted, or values
and states that correspond. -/
inductive Agree (admits : Failure → Prop) (same : State → State → Prop)
    (values : Value → Other → Prop) :
    Except Failure (Value × State) → Except Failure (Other × State) → Prop
  | failed {failure : Failure} (admitted : admits failure) :
      Agree admits same values (.error failure) (.error failure)
  | returned {value : Value} {other : Other} {state twin : State} (corresponds : values value other)
      (still : same state twin) : Agree admits same values (.ok (value, state)) (.ok (other, twin))

variable {admits : Failure → Prop} {same later : State → State → Prop}
  {values : Value → Other → Prop} {results : Result → Final → Prop}

theorem agree_bind {left : StateT State (Except Failure) Value}
    {right : StateT State (Except Failure) Other} {next : Value → StateT State (Except Failure) Result}
    {after : Other → StateT State (Except Failure) Final} {state twin : State}
    (first : Agree admits same values (left state) (right twin))
    (continues : ∀ value other reached reachedTwin, values value other → same reached reachedTwin →
      Agree admits later results (next value reached) (after other reachedTwin)) :
    Agree admits later results ((left >>= next) state) ((right >>= after) twin) := by
  simp only [bind, StateT.bind]
  generalize left state = one at first
  generalize right twin = two at first
  cases first with
  | failed admitted => exact Agree.failed admitted
  | returned corresponds still => exact continues _ _ _ _ corresponds still

theorem agree_weaken {weaker : Value → Other → Prop} {one : Except Failure (Value × State)}
    {two : Except Failure (Other × State)} (strong : Agree admits same values one two)
    (widens : ∀ state twin, same state twin → later state twin)
    (implies : ∀ value other, values value other → weaker value other) :
    Agree admits later weaker one two := by
  cases strong with
  | failed admitted => exact Agree.failed admitted
  | returned corresponds still => exact Agree.returned (implies _ _ corresponds) (widens _ _ still)

end Herold.Machine

import Herold.Machine.Exchange

/-!
# Computations that are watched

A log kept beside the state says what happened on the way. Leaving it out gives the
computation back that was watched.
-/

namespace Herold.Machine.Exchange

variable {State Log Stop Value Result : Type}

def unseen (computation : Exchange State Stop Value) : Exchange (State × Log) Stop Value := fun both =>
  (((computation both.1).1, both.2), (computation both.1).2)

def note (write : State → Log → Log) : Exchange (State × Log) Stop Unit :=
  modify fun both => (both.1, write both.1 both.2)

def Erases (watched : Exchange (State × Log) Stop Value) (plain : Exchange State Stop Value) : Prop :=
  ∀ both, ((watched both).1.1, (watched both).2) = plain both.1

theorem erases_pure (value : Value) :
    Erases (pure value : Exchange (State × Log) Stop Value) (pure value) :=
  fun _ => rfl

theorem erases_stop (result : Stop) :
    Erases (stop result : Exchange (State × Log) Stop Value) (stop result) :=
  fun _ => rfl

theorem erases_unseen (computation : Exchange State Stop Value) :
    Erases (unseen computation : Exchange (State × Log) Stop Value) computation :=
  fun _ => rfl

theorem bind_ends {first : Exchange State Stop Value} {next : Value → Exchange State Stop Result}
    {before after : State} {value : Value} (ran : first before = (after, .ok value)) :
    (first >>= next) before = next value after := by
  simp only [bind, ran]

theorem bind_stops {first : Exchange State Stop Value} {next : Value → Exchange State Stop Result}
    {before after : State} {result : Stop} (ran : first before = (after, .error result)) :
    (first >>= next) before = (after, .error result) := by
  simp only [bind, ran]

theorem erases_bind {first : Exchange (State × Log) Stop Value} {plain : Exchange State Stop Value}
    {next : Value → Exchange (State × Log) Stop Result} {plainNext : Value → Exchange State Stop Result}
    (begins : Erases first plain) (continues : ∀ value, Erases (next value) (plainNext value)) :
    Erases (first >>= next) (plain >>= plainNext) := by
  intro both
  have begun := begins both
  rcases ran : first both with ⟨after, result | value⟩
  · rw [ran] at begun
    rw [bind_stops ran, bind_stops begun.symm]
  · rw [ran] at begun
    rw [bind_ends ran, bind_ends begun.symm]
    exact continues value after

theorem erases_noted {first : Exchange (State × Log) Stop Unit} {plain : Exchange State Stop Unit}
    (write : State → Log → Log) (begins : Erases first plain) :
    Erases (first >>= fun _ => note write) plain := by
  intro both
  have begun := begins both
  rcases ran : first both with ⟨after, result | value⟩
  · rw [ran] at begun
    rw [bind_stops ran]
    exact begun
  · rw [ran] at begun
    rw [bind_ends ran]
    exact begun

variable {pre : State × Log → Prop} {stopped : Stop → State × Log → Prop}

theorem triple_unseen {computation : Exchange State Stop Value} {post : Value → State × Log → Prop}
    (holds : ∀ log, Triple (fun state => pre (state, log)) computation
      (fun value state => post value (state, log))
      fun result state => stopped result (state, log)) :
    Triple pre (unseen computation) post stopped := by
  rintro ⟨state, log⟩ met
  have ran := holds log state met
  unfold unseen
  rcases result : computation state with ⟨after, stops | value⟩
  · rw [result] at ran
    exact ran
  · rw [result] at ran
    exact ran

theorem triple_note (write : State → Log → Log) (post : Unit → State × Log → Prop)
    (holds : ∀ state log, pre (state, log) → post () (state, write state log)) :
    Triple pre (note write : Exchange (State × Log) Stop Unit) post stopped :=
  triple_modify _ _ fun both met => holds both.1 both.2 met

end Herold.Machine.Exchange

import Herold.Go.Unicode
import Herold.Machine.Run
import Mathlib.Logic.Function.Basic

/-!
# Slots of a host

The buckets of `hostSem`, made at the first contact with a host and dropped with
its last slot.
-/

namespace Herold.Queue

open Herold.Go Herold.Machine

/-- The operations of `semaphore.Weighted` that the queue uses. `Release` has no result
where it panics, `TryAcquire` none where it fails and leaves the semaphore unchanged. -/
structure Semaphore (Weighted : Type) where
  newWeighted : Nat → Weighted
  tryAcquire : Weighted → Nat → Option Weighted
  release : Weighted → Nat → Option Weighted

/-- What the package documents, for a semaphore of a size of which a weight is held and
for which nobody waits. -/
structure Semaphore.Documented {Weighted : Type} (sem : Semaphore Weighted)
    (holds : Weighted → Nat → Nat → Prop) : Prop where
  fresh : ∀ size, holds (sem.newWeighted size) size 0
  granted : ∀ {state size held} weight, holds state size held → held + weight ≤ size →
    ∃ next, sem.tryAcquire state weight = some next ∧ holds next size (held + weight)
  refused : ∀ {state size held} weight, holds state size held → size < held + weight →
    sem.tryAcquire state weight = none
  returned : ∀ {state size held} weight, holds state size held → weight ≤ held →
    ∃ next, sem.release state weight = some next ∧ holds next size (held - weight)

structure HostBucket (Weighted : Type) where
  sem : Weighted
  count : Int := 0

abbrev HostMap (Weighted : Type) := Bytes → Option (HostBucket Weighted)

section

variable {Weighted : Type} (sem : Semaphore Weighted)

def tryAcquireHost (perHostMax : Nat) (host : Bytes) (hosts : HostMap Weighted) :
    Bool × HostMap Weighted :=
  let bucket := (hosts host).getD { sem := sem.newWeighted perHostMax }
  let opened := Function.update hosts host (some bucket)
  match sem.tryAcquire bucket.sem 1 with
  | none => (false, if bucket.count = 0 then Function.update opened host none else opened)
  | some taken => (true, Function.update opened host (some ⟨taken, bucket.count + 1⟩))

/-- No result stands for the panic of `Release`. -/
def releaseHost (host : Bytes) (hosts : HostMap Weighted) : Option (HostMap Weighted) :=
  match hosts host with
  | none => some hosts
  | some bucket =>
    (sem.release bucket.sem 1).map fun left =>
      Function.update hosts host (if bucket.count - 1 ≤ 0 then none else some ⟨left, bucket.count - 1⟩)

end

inductive HostCall where
  | tryAcquire (host : Bytes)
  | release (host : Bytes)
  deriving DecidableEq

/-- The buckets, and how many acquires of a host succeeded and were not released. -/
structure HostSlots (Weighted : Type) where
  hosts : HostMap Weighted := fun _ => none
  held : Bytes → Nat := fun _ => 0

namespace HostSlots

variable {Weighted : Type} (sem : Semaphore Weighted) (perHostMax : Nat)

def step (slots : HostSlots Weighted) : HostCall → Option (HostSlots Weighted)
  | .tryAcquire host =>
    let (taken, hosts) := tryAcquireHost sem perHostMax host slots.hosts
    some { hosts, held := Function.update slots.held host (slots.held host + taken.toNat) }
  | .release host =>
    (releaseHost sem host slots.hosts).map fun hosts =>
      { hosts, held := Function.update slots.held host (slots.held host - 1) }

def machine : Machine (HostSlots Weighted) HostCall where
  step := step sem perHostMax

def Paired (slots : HostSlots Weighted) : HostCall → Prop
  | .tryAcquire _ => True
  | .release host => 0 < slots.held host

instance (slots : HostSlots Weighted) : (call : HostCall) → Decidable (Paired slots call)
  | .tryAcquire _ => isTrue trivial
  | .release host => inferInstanceAs (Decidable (0 < slots.held host))

/-- A bucket is there exactly while slots are held, and counts them. -/
def Counts (holds : Weighted → Nat → Nat → Prop) (held : Nat) : Option (HostBucket Weighted) → Prop
  | none => held = 0
  | some bucket => 0 < held ∧ bucket.count = held ∧ holds bucket.sem perHostMax held

structure Counted (holds : Weighted → Nat → Nat → Prop) (slots : HostSlots Weighted) : Prop where
  capped : ∀ host, slots.held host ≤ perHostMax
  counted : ∀ host, Counts perHostMax holds (slots.held host) (slots.hosts host)

variable {sem} {perHostMax} {holds : Weighted → Nat → Nat → Prop} {slots : HostSlots Weighted}
  (documented : sem.Documented holds) (counted : Counted perHostMax holds slots) (host : Bytes)

include counted

/-- What a call leaves behind is counted again when only its own host changes. -/
theorem counted_update (held : Nat) (capped : held ≤ perHostMax) (bucket : Option (HostBucket Weighted))
    (counts : Counts perHostMax holds held bucket) {hosts : HostMap Weighted}
    (updated : hosts = Function.update slots.hosts host bucket) :
    Counted perHostMax holds { hosts, held := Function.update slots.held host held } := by
  subst updated
  constructor
  · intro other
    by_cases same : other = host
    · subst same
      simpa using capped
    · simpa [same] using counted.capped other
  · intro other
    by_cases same : other = host
    · subst same
      simpa using counts
    · simpa [same] using counted.counted other

include documented

theorem acquire_counted : ∃ next, step sem perHostMax slots (.tryAcquire host) = some next ∧
    Counted perHostMax holds next := by
  refine ⟨_, rfl, ?_⟩
  have capped := counted.capped host
  -- a host without a bucket starts from a fresh one
  obtain ⟨state, count, bucket, same, held⟩ : ∃ state count,
      (slots.hosts host).getD { sem := sem.newWeighted perHostMax } = ⟨state, count⟩ ∧
        count = slots.held host ∧ holds state perHostMax (slots.held host) := by
    have counts := counted.counted host
    cases found : slots.hosts host with
    | none =>
      rw [found] at counts
      refine ⟨_, _, rfl, ?_, ?_⟩
      · simp [show slots.held host = 0 from counts]
      · rw [show slots.held host = 0 from counts]
        exact documented.fresh perHostMax
    | some bucket =>
      rw [found] at counts
      exact ⟨_, _, rfl, counts.2⟩
  simp only [bucket]
  by_cases free : slots.held host < perHostMax
  · obtain ⟨next, granted, holdsNext⟩ := documented.granted 1 held free
    simp only [granted, Function.update_idem]
    exact counted_update counted host (slots.held host + 1) free (some ⟨next, count + 1⟩)
      ⟨Nat.succ_pos _, by simp [same], holdsNext⟩ rfl
  · have refused := documented.refused 1 held (by omega)
    simp only [refused, Function.update_idem]
    by_cases empty : slots.held host = 0
    · refine counted_update counted host (slots.held host) capped none empty ?_
      simp [same, empty]
    · refine counted_update counted host (slots.held host) capped (some ⟨state, count⟩)
        ⟨Nat.pos_of_ne_zero empty, same, held⟩ ?_
      simp [same, empty]

theorem release_counted (taken : 0 < slots.held host) :
    ∃ next, step sem perHostMax slots (.release host) = some next ∧ Counted perHostMax holds next := by
  have counts := counted.counted host
  have capped := counted.capped host
  cases found : slots.hosts host with
  | none =>
    rw [found] at counts
    exact absurd counts (Nat.pos_iff_ne_zero.mp taken)
  | some bucket =>
    rw [found] at counts
    obtain ⟨_, same, held⟩ := counts
    obtain ⟨left, released, holdsLeft⟩ := documented.returned 1 held taken
    simp only [step, releaseHost, found, released, Option.map_some]
    refine ⟨_, rfl, counted_update counted host (slots.held host - 1) (by omega) _ ?_ rfl⟩
    by_cases last : slots.held host = 1
    · rw [if_pos (by omega)]
      exact Nat.sub_eq_zero_of_le (Nat.le_of_eq last)
    · rw [if_neg (by omega)]
      exact ⟨by omega, by dsimp only; omega, holdsLeft⟩

theorem paired_runs_counted (calls : List HostCall)
    (paired : (machine sem perHostMax).Meets Paired slots calls) :
    ∃ final, (machine sem perHostMax).execute slots calls = some final ∧
    Counted perHostMax holds final := by
  induction calls generalizing slots with
  | nil => exact ⟨slots, rfl, counted⟩
  | cons call calls ih =>
    obtain ⟨allowed, later⟩ := paired
    have stepped : ∃ next, step sem perHostMax slots call = some next ∧
      Counted perHostMax holds next := by
      cases call with
      | tryAcquire host => exact acquire_counted documented counted host
      | release host => exact release_counted documented counted host allowed
    obtain ⟨next, ran, kept⟩ := stepped
    simp only [machine, ran] at later
    simp only [Machine.execute, machine, ran]
    exact ih kept later

omit counted documented

/-- However the calls for all hosts are interleaved, as long as every release
follows a successful acquire: no release panics, no host holds more slots than the
cap, and a bucket is there exactly while slots are held and counts them. -/
theorem host_slots_counted (sem : Semaphore Weighted) (holds : Weighted → Nat → Nat → Prop)
    (documented : sem.Documented holds) (perHostMax : Nat) (calls : List HostCall)
    (paired : (machine sem perHostMax).Meets Paired {} calls) :
    ∃ final, (machine sem perHostMax).execute {} calls = some final ∧ ∀ host,
      final.held host ≤ perHostMax ∧
      ((final.hosts host).isSome ↔ 0 < final.held host) ∧
      (∀ bucket, final.hosts host = some bucket → bucket.count = final.held host ∧
        holds bucket.sem perHostMax (final.held host)) ∧
      (0 < final.held host → (releaseHost sem host final.hosts).isSome) := by
  have start : Counted perHostMax holds {} := ⟨fun _ => Nat.zero_le _, fun _ => rfl⟩
  obtain ⟨final, ran, counted⟩ := paired_runs_counted documented start calls paired
  refine ⟨final, ran, fun host => ⟨counted.capped host, ?_, ?_, ?_⟩⟩
  · have counts := counted.counted host
    cases found : final.hosts host with
    | none =>
      rw [found] at counts
      simp [show final.held host = 0 from counts]
    | some bucket =>
      rw [found] at counts
      simp [counts.1]
  · intro bucket found
    have counts := counted.counted host
    rw [found] at counts
    exact counts.2
  · intro taken
    obtain ⟨next, released, _⟩ := release_counted documented counted host taken
    simp only [step, Option.map_eq_some_iff] at released
    obtain ⟨hosts, released, _⟩ := released
    rw [released]
    rfl

/-- The size and what is held of it. -/
def countingSemaphore : Semaphore (Nat × Nat) where
  newWeighted size := (size, 0)
  tryAcquire state weight :=
    if state.2 + weight ≤ state.1 then some (state.1, state.2 + weight) else none
  release state weight := if weight ≤ state.2 then some (state.1, state.2 - weight) else none

theorem counting_documented :
    countingSemaphore.Documented fun state size held => state = (size, held) where
  fresh _ := rfl
  granted _ is fits := by
    subst is
    exact ⟨_, if_pos fits, rfl⟩
  refused _ is exceeds := by
    subst is
    exact if_neg (Nat.not_le.mpr exceeds)
  returned _ is fits := by
    subst is
    exact ⟨_, if_pos fits, rfl⟩

/-- Two hosts, the first of them at a cap of one and released once. -/
theorem host_slots_counted_of_two_hosts :
    ∃ final, (machine countingSemaphore 1).execute {}
        [.tryAcquire [97], .tryAcquire [97], .tryAcquire [98], .release [97]] = some final ∧ ∀ host,
      final.held host ≤ 1 ∧
      ((final.hosts host).isSome ↔ 0 < final.held host) ∧
      (∀ bucket, final.hosts host = some bucket → bucket.count = final.held host ∧
        bucket.sem = (1, final.held host)) ∧
      (0 < final.held host → (releaseHost countingSemaphore host final.hosts).isSome) :=
  host_slots_counted countingSemaphore _ counting_documented 1 _ (by decide)

end HostSlots

end Herold.Queue

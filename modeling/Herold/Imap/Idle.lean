import Herold.Machine.Run
import Herold.Imap.Framing
import Herold.Imap.Deadline

/-!
# Lines read during and after IDLE

`handleIDLE` starts a goroutine that reads lines until `DONE` and waits for it, for
the end of its context and for its own timeout. The goroutine and the loop of `run`
share one buffered reader. The machine below interleaves what the client sends, the
goroutines and the session; it keeps who has read which bytes.

A command or a line is read in one step, which does not matter as long as only one
party reads.
-/

namespace Herold.Imap

open Herold.Go Herold.Machine

/-- Who reads from the connection: `readCommand`, or the goroutine of an IDLE. -/
inductive LineReader where
  | command
  | idle (number : Nat)
  deriving DecidableEq

structure Taking where
  reader : LineReader
  during : Option Nat
  bytes : Bytes
  deriving DecidableEq

inductive IdlePhase where
  /-- The loop of `run` is in `readCommand`. -/
  | commands
  /-- `handleIDLE` waits. The context may be done, and the goroutine may have put its
  result on `doneCh`. -/
  | idling (number : Nat) (context : Option ContextError) (report : Option (Option ReadError))
  | ended
  deriving DecidableEq

structure IdleState where
  sent : Bytes := []
  stream : Bytes := []
  hungUp : Bool := false
  taken : List Taking := []
  phase : IdlePhase := .commands
  started : Nat := 0
  /-- The IDLE commands that have returned while their goroutine goes on reading. -/
  strays : List Nat := []
  deriving DecidableEq

inductive IdleLabel where
  | send (bytes : Bytes)
  | hangUp
  /-- `readCommand` returns and the command is dispatched, with a mailbox selected or
  not. The session goes on after it, or in `IDLE` after the continuation request. -/
  | command (writes disk : List Bool) (selected goesOn : Bool)
  | reader
  | stray (number : Nat)
  | deadline
  | cancel
  /-- The branches of the `select`: the goroutine's result (and whether the reply is
  written), the end of the context, and a tick after the longest duration. -/
  | done (written : Bool)
  | contextDone
  | timeout
  deriving DecidableEq

def IdleState.connection (state : IdleState) (writes disk : List Bool) : Connection :=
  { stream := state.stream, writes := writes, disk := disk }

def waits (hungUp : Bool) (failure : ReadError) : Bool :=
  !hungUp && (failure = .eof || failure = .unexpectedEOF)

def IdleState.take (state : IdleState) (reader : LineReader) (during : Option Nat) (rest : Bytes) :
    IdleState :=
  { state with
    stream := rest
    taken := state.taken ++
      [{ reader := reader, during := during
         bytes := state.stream.take (state.stream.length - rest.length) }] }

def IdleState.idle (state : IdleState) : Option Nat :=
  match state.phase with
  | .idling number _ _ => some number
  | _ => none

/-- What a round of the goroutine comes to: another line, the result it leaves, or
nothing yet. -/
inductive ReaderRound where
  | again (rest : Bytes)
  | finished (rest : Bytes) (result : Option ReadError)
  | blocked
  deriving DecidableEq

def isDone (line : Bytes) : Bool := equalFold (trimSpace line) (ascii "DONE")

def readerRound (state : IdleState) : ReaderRound :=
  match readLine (state.connection [] []) with
  | .ok (line, connection) =>
    if isDone line then .finished connection.stream none else .again connection.stream
  | .error failure =>
    if waits state.hungUp failure then .blocked else .finished state.stream (some failure)

/-- `handleIDLE` has returned: `dispatch` drops the error after the deadline, and any
other error ends the session. A goroutine without a result goes on. -/
def leaveIdle (state : IdleState) (number : Nat) (context : Option ContextError)
    (report : Option (Option ReadError)) (failed : Bool) : IdleState :=
  { state with
    phase := if context = some .deadlineExceeded ∨ failed = false then .commands else .ended
    strays := if report = none then state.strays ++ [number] else state.strays }

def commandStep (state : IdleState) (writes disk : List Bool) (selected goesOn : Bool) :
    Option IdleState :=
  match readCommand (state.connection writes disk) with
  | .ok (command, connection) =>
    let read := state.take .command none connection.stream
    if goesOn = false then some { read with phase := .ended }
    else if command.op = ascii "IDLE" ∧ selected then
      some { read with phase := .idling state.started none none, started := state.started + 1 }
    else some { read with phase := .commands }
  | .error failure =>
    if waits state.hungUp failure then none else some { state with phase := .ended }

def strayStep (state : IdleState) (number : Nat) : Option IdleState :=
  if state.strays.contains number ∧ state.phase ≠ .ended then
    match readerRound state with
    | .again rest => some (state.take (.idle number) state.idle rest)
    | .finished rest _ =>
      some { state.take (.idle number) state.idle rest with strays := state.strays.erase number }
    | .blocked => none
  else none

/-- The steps of the goroutine and of `handleIDLE`. -/
def idleStep (state : IdleState) (number : Nat) (context : Option ContextError)
    (report : Option (Option ReadError)) : IdleLabel → Option IdleState
  | .reader =>
    if report = none then
      match readerRound state with
      | .again rest => some (state.take (.idle number) (some number) rest)
      | .finished rest result =>
        some { state.take (.idle number) (some number) rest with
               phase := .idling number context (some result) }
      | .blocked => none
    else none
  | .deadline =>
    some { state with phase := .idling number (some (context.getD .deadlineExceeded)) report }
  | .cancel => some { state with phase := .idling number (some (context.getD .canceled)) report }
  | .done written =>
    match report with
    | some result => some (leaveIdle state number context report (result.isSome || !written))
    | none => none
  | .contextDone =>
    if context.isSome then some (leaveIdle state number context report true) else none
  | .timeout => some (leaveIdle state number context report true)
  | _ => none

def whileIdling (state : IdleState)
    (step : Nat → Option ContextError → Option (Option ReadError) → Option IdleState) :
    Option IdleState :=
  match state.phase with
  | .idling number context report => step number context report
  | _ => none

def idleMachine : Machine IdleState IdleLabel where
  step state label :=
    match label with
    | .send bytes =>
      if state.hungUp then none
      else some { state with sent := state.sent ++ bytes, stream := state.stream ++ bytes }
    | .hangUp => some { state with hungUp := true }
    | .stray number => strayStep state number
    | .command writes disk selected goesOn =>
      match state.phase with
      | .commands => commandStep state writes disk selected goesOn
      | _ => none
    | _ => whileIdling state fun number context report => idleStep state number context report label

def Consumes {Value : Type} (work : Receive Value) : Prop :=
  ∀ connection value after, work connection = .ok (value, after) → after.stream <:+ connection.stream

theorem consumes_pure {Value : Type} (value : Value) : Consumes (pure value) := by
  intro connection _ after returned
  cases returned
  exact List.suffix_refl _

theorem consumes_throw {Value : Type} (failure : ReadError) :
    Consumes (throw failure : Receive Value) := by
  intro connection _ after returned
  cases returned

theorem consumes_bind {Value Result : Type} {work : Receive Value} {next : Value → Receive Result}
    (first : Consumes work) (continues : ∀ value, Consumes (next value)) :
      Consumes (work >>= next) := by
  intro connection result after returned
  simp only [bind, StateT.bind] at returned
  cases ran : work connection with
  | error failure => simp [ran, Except.bind] at returned
  | ok reached =>
    simp only [ran, Except.bind] at returned
    exact (continues _ _ _ _ returned).trans (first connection reached.1 reached.2 ran)

theorem read_line_from_suffix (kept : Nat) (text line rest : Bytes)
    (read : readLineFrom kept text = .ok (line, rest)) : rest <:+ text := by
  cases found : splitLine text with
  | none =>
    obtain ⟨failure, _, failed⟩ := read_line_from_open kept text found
    simp [failed] at read
  | some halves =>
    rw [read_line_from_split kept text halves.1 halves.2 found] at read
    split_ifs at read
    cases read
    exact (split_line_takes text halves.1 halves.2 found).1

theorem read_line_consumes : Consumes readLine := by
  intro connection line after returned
  unfold readLine at returned
  cases read : readLineFrom 0 connection.stream with
  | error failure => simp [read] at returned
  | ok halves =>
    simp only [read] at returned
    cases returned
    exact read_line_from_suffix 0 connection.stream halves.1 halves.2 read

theorem continuation_consumes (nonSync : Bool) : Consumes (continuation nonSync) := by
  intro connection _ after returned
  unfold continuation at returned
  split at returned
  · cases returned
    exact List.suffix_refl _
  · split at returned <;> cases returned
    · exact List.suffix_refl _
    · exact List.suffix_refl _

theorem use_spill_consumes : Consumes useSpill := by
  intro connection _ after returned
  unfold useSpill at returned
  split at returned <;> cases returned
  · exact List.suffix_refl _
  · exact List.suffix_refl _

theorem take_octets_consumes (size : Nat) (short : Bytes → ReadError) :
    Consumes (takeOctets size short) := by
  intro connection _ after returned
  unfold takeOctets at returned
  split at returned <;> cases returned
  exact List.drop_suffix _ _

theorem read_literal_consumes (size : Nat) (nonSync : Bool) : Consumes (readLiteral size nonSync) := by
  apply consumes_bind (continuation_consumes nonSync)
  intro _
  split
  · apply consumes_bind use_spill_consumes
    intro _
    apply consumes_bind (consumes_bind use_spill_consumes fun _ => take_octets_consumes _ _)
    intro _
    exact consumes_pure _
  · apply consumes_bind (take_octets_consumes _ _)
    intro _
    exact consumes_pure _

theorem flatten_consumes (fuel : Nat) (line : Bytes) (lits : List Literal) :
    Consumes (flatten fuel line lits) := by
  induction fuel generalizing line lits with
  | zero => exact consumes_throw _
  | succ fuel ih =>
    unfold flatten
    split
    · apply consumes_bind (read_literal_consumes _ _)
      intro _
      apply consumes_bind read_line_consumes
      intro _
      exact ih _ _
    · exact consumes_pure _

theorem parse_flattened_consumes (line : Bytes) (lits : List Literal) :
    Consumes (parseFlattened line lits) := by
  intro connection command after returned
  unfold parseFlattened at returned
  split at returned <;> cases returned
  exact List.suffix_refl _

theorem read_command_consumes : Consumes readCommand := by
  apply consumes_bind read_line_consumes
  intro first
  split
  · exact consumes_pure _
  · have rounds : Consumes streamRounds := by
      intro connection _ after returned
      cases returned
      exact List.suffix_refl _
    apply consumes_bind rounds
    intro _
    apply consumes_bind (flatten_consumes _ _ _)
    intro _
    exact parse_flattened_consumes _ _

/-- As long as the session goes on no goroutine of an earlier IDLE reads. What was
read during an IDLE was read by its own goroutine, all else by `readCommand`; and
what was read, in order, with what is still unread is what the client sent. -/
structure OrderlyLines (state : IdleState) : Prop where
  alone : state.phase ≠ .ended → state.strays = []
  readers : ∀ taking ∈ state.taken,
    taking.reader = .command ∧ taking.during = none ∨
      ∃ number, taking.reader = .idle number ∧ taking.during = some number
  accounted : state.taken.flatMap Taking.bytes ++ state.stream = state.sent

/-- An IDLE is left after its deadline while its goroutine still reads. -/
def abandons (state : IdleState) (label : IdleLabel) : Bool :=
  match state.phase with
  | .idling _ (some .deadlineExceeded) none => label = .contextDone || label = .timeout
  | _ => false

theorem take_orderly (state : IdleState) (reader : LineReader) (during : Option Nat) (rest : Bytes)
    (orderly : OrderlyLines state) (suffix : rest <:+ state.stream)
    (owner : reader = .command ∧ during = none ∨
      ∃ number, reader = .idle number ∧ during = some number) :
    OrderlyLines (state.take reader during rest) where
  alone := orderly.alone
  readers := by
    intro taking listed
    rcases List.mem_append.mp listed with earlier | here
    · exact orderly.readers taking earlier
    · rw [List.mem_singleton] at here
      subst here
      exact owner
  accounted := by
    obtain ⟨front, whole⟩ := suffix
    have read : state.stream.take (state.stream.length - rest.length) = front := by
      rw [← whole, List.length_append, Nat.add_sub_cancel, List.take_left]
    simp only [IdleState.take, read, List.flatMap_append, List.flatMap_cons, List.flatMap_nil,
      List.append_nil, List.append_assoc, whole]
    exact orderly.accounted

theorem phase_orderly (state : IdleState) (phase : IdlePhase) (strays : List Nat) (started : Nat)
    (orderly : OrderlyLines state) (alone : phase ≠ .ended → strays = []) :
    OrderlyLines { state with phase := phase, strays := strays, started := started } where
  alone := alone
  readers := orderly.readers
  accounted := orderly.accounted

theorem reader_round_suffix (state : IdleState) (rest : Bytes)
    (round : readerRound state = .again rest ∨ ∃ result, readerRound state = .finished rest result) :
    rest <:+ state.stream := by
  unfold readerRound at round
  cases read : readLine (state.connection [] []) with
  | error failure =>
    simp only [read] at round
    split at round
    · simp at round
    · simp only [reduceCtorEq, ReaderRound.finished.injEq, false_or, exists_and_left] at round
      exact round.1 ▸ List.suffix_refl _
  | ok found =>
    have consumed := read_line_consumes _ found.1 found.2 read
    simp only [read] at round
    split at round
    · simp only [reduceCtorEq, ReaderRound.finished.injEq, false_or, exists_and_left] at round
      exact round.1 ▸ consumed
    · simp only [ReaderRound.again.injEq, reduceCtorEq, exists_const, or_false] at round
      exact round ▸ consumed

theorem leave_idle_orderly (state : IdleState) (number : Nat) (context : Option ContextError)
    (report : Option (Option ReadError)) (failed : Bool) (orderly : OrderlyLines state)
    (strays : state.strays = [])
    (kept : report = none → context ≠ some .deadlineExceeded ∧ failed = true) :
    OrderlyLines (leaveIdle state number context report failed) := by
  refine phase_orderly state _ _ state.started orderly ?_
  cases report with
  | some result => simp [strays]
  | none =>
    obtain ⟨inTime, fails⟩ := kept rfl
    simp [inTime, fails]

theorem command_step_orderly (state next : IdleState) (writes disk : List Bool) (selected goesOn : Bool)
    (orderly : OrderlyLines state) (strays : state.strays = [])
    (stepped : commandStep state writes disk selected goesOn = some next) : OrderlyLines next := by
  unfold commandStep at stepped
  cases read : readCommand (state.connection writes disk) with
  | error failure =>
    simp only [read, Option.ite_none_left_eq_some, Option.some.injEq] at stepped
    rw [← stepped.2]
    exact phase_orderly state _ _ _ orderly fun open_ => absurd rfl open_
  | ok found =>
    have suffix := read_command_consumes _ found.1 found.2 read
    have taken := take_orderly state .command none found.2.stream orderly suffix (.inl ⟨rfl, rfl⟩)
    simp only [read] at stepped
    split_ifs at stepped <;> cases stepped
    · exact phase_orderly _ _ _ _ taken fun _ => strays
    · exact phase_orderly _ _ _ _ taken fun _ => strays
    · exact phase_orderly _ _ _ _ taken fun _ => strays

theorem idle_step_orderly (state next : IdleState) (number : Nat) (context : Option ContextError)
    (report : Option (Option ReadError)) (label : IdleLabel)
    (phase : state.phase = .idling number context report) (orderly : OrderlyLines state)
    (kept : abandons state label = false)
    (stepped : idleStep state number context report label = some next) : OrderlyLines next := by
  have strays : state.strays = [] := orderly.alone (by simp [phase])
  cases label with
  | reader =>
    simp only [idleStep] at stepped
    split_ifs at stepped
    cases round : readerRound state with
    | again rest =>
      simp only [round, Option.some.injEq] at stepped
      rw [← stepped]
      exact take_orderly state _ _ rest orderly (reader_round_suffix state rest (.inl round))
        (.inr ⟨number, rfl, rfl⟩)
    | finished rest result =>
      simp only [round, Option.some.injEq] at stepped
      rw [← stepped]
      have taken := take_orderly state (.idle number) (some number) rest orderly
        (reader_round_suffix state rest (.inr ⟨result, round⟩)) (.inr ⟨number, rfl, rfl⟩)
      exact phase_orderly _ _ _ _ taken fun _ => strays
    | blocked => simp [round] at stepped
  | deadline =>
    cases stepped
    exact phase_orderly state _ _ _ orderly fun _ => strays
  | cancel =>
    cases stepped
    exact phase_orderly state _ _ _ orderly fun _ => strays
  | done written =>
    cases report with
    | none => simp [idleStep] at stepped
    | some result =>
      cases stepped
      exact leave_idle_orderly state number context _ _ orderly strays (by simp)
  | contextDone =>
    simp only [idleStep] at stepped
    split_ifs at stepped
    cases stepped
    refine leave_idle_orderly state number context report true orderly strays ?_
    rintro rfl
    refine ⟨?_, rfl⟩
    rintro rfl
    simp [abandons, phase] at kept
  | timeout =>
    cases stepped
    refine leave_idle_orderly state number context report true orderly strays ?_
    rintro rfl
    refine ⟨?_, rfl⟩
    rintro rfl
    simp [abandons, phase] at kept
  | send bytes => simp [idleStep] at stepped
  | hangUp => simp [idleStep] at stepped
  | command writes disk selected goesOn => simp [idleStep] at stepped
  | stray number => simp [idleStep] at stepped

theorem stray_step_none (state : IdleState) (number : Nat) (orderly : OrderlyLines state) :
    strayStep state number = none := by
  unfold strayStep
  split_ifs with reads
  · rw [orderly.alone reads.2] at reads
    simp at reads
  · rfl

theorem while_idling_some (state next : IdleState)
    (step : Nat → Option ContextError → Option (Option ReadError) → Option IdleState)
    (stepped : whileIdling state step = some next) :
    ∃ number context report, state.phase = .idling number context report ∧
      step number context report = some next := by
  unfold whileIdling at stepped
  cases phase : state.phase with
  | commands => simp [phase] at stepped
  | ended => simp [phase] at stepped
  | idling number context report =>
    simp only [phase] at stepped
    exact ⟨number, context, report, rfl, stepped⟩

theorem idle_machine_step_orderly (state next : IdleState) (label : IdleLabel)
    (orderly : OrderlyLines state)
    (kept : abandons state label = false) (stepped : idleMachine.step state label = some next) :
    OrderlyLines next := by
  have during : ∀ other, label = other → (whileIdling state fun number context report =>
      idleStep state number context report other) = some next → OrderlyLines next := by
    rintro _ rfl moved
    obtain ⟨number, context, report, phase, moved⟩ := while_idling_some state next _ moved
    exact idle_step_orderly state next number context report label phase orderly kept moved
  cases label with
  | send bytes =>
    simp only [idleMachine] at stepped
    split_ifs at stepped
    cases stepped
    refine ⟨orderly.alone, orderly.readers, ?_⟩
    simp only [← List.append_assoc, orderly.accounted]
  | hangUp =>
    cases stepped
    exact ⟨orderly.alone, orderly.readers, orderly.accounted⟩
  | stray number =>
    rw [show idleMachine.step state (.stray number) = strayStep state number from rfl,
      stray_step_none state number orderly] at stepped
    simp at stepped
  | command writes disk selected goesOn =>
    cases phase : state.phase with
    | commands =>
      simp only [idleMachine, phase] at stepped
      exact command_step_orderly state next writes disk selected goesOn orderly
        (orderly.alone (by simp [phase])) stepped
    | idling number context report => simp [idleMachine, phase] at stepped
    | ended => simp [idleMachine, phase] at stepped
  | reader => exact during .reader rfl stepped
  | deadline => exact during .deadline rfl stepped
  | cancel => exact during .cancel rfl stepped
  | done written => exact during (.done written) rfl stepped
  | contextDone => exact during .contextDone rfl stepped
  | timeout => exact during .timeout rfl stepped

/-- In every run in which no IDLE is left by its deadline while its goroutine reads,
all that is sent outside of IDLE is read by `readCommand`, in order and once. -/
theorem no_line_lost_around_idle (labels : List IdleLabel) (final : IdleState)
    (kept : idleMachine.Meets (fun state label => abandons state label = false) {} labels)
    (ran : idleMachine.execute {} labels = some final) : OrderlyLines final :=
  idleMachine.meets_keeps (fun state label => abandons state label = false) OrderlyLines
    (fun state label next orderly allowed stepped =>
      idle_machine_step_orderly state next label orderly allowed stepped)
    labels {} final ⟨fun _ => rfl, by simp, rfl⟩ kept ran

def idleThenNoop : List IdleLabel :=
  [.send (ascii "a IDLE\r\n"), .command [] [] true true, .send (ascii "DONE\r\nb NOOP\r\n"), .reader,
    .done true, .command [] [] true true]

theorem idle_then_noop_orderly :
    idleMachine.Meets (fun state label => abandons state label = false) {} idleThenNoop ∧
      ∃ final, idleMachine.execute {} idleThenNoop = some final ∧ OrderlyLines final := by
  have kept : idleMachine.Meets (fun state label => abandons state label = false) {} idleThenNoop := by
    decide +kernel
  refine ⟨kept, ?_⟩
  cases ran : idleMachine.execute {} idleThenNoop with
  | none =>
    exfalso
    revert ran
    decide +kernel
  | some final => exact ⟨final, rfl, no_line_lost_around_idle idleThenNoop final kept ran⟩

def deadlineInIdle : List IdleLabel :=
  [.send (ascii "a IDLE\r\n"), .command [] [] true true, .deadline, .contextDone,
    .send (ascii "b NOOP\r\n"), .stray 0]

theorem deadline_loses_line :
    ¬ ∀ (labels : List IdleLabel) (final : IdleState), idleMachine.execute {} labels = some final →
      OrderlyLines final := by
  intro always
  cases ran : idleMachine.execute {} deadlineInIdle with
  | none =>
    revert ran
    decide +kernel
  | some final =>
    have orderly := always deadlineInIdle final ran
    have goesOn : (idleMachine.execute {} deadlineInIdle).map
        (fun final => (decide (final.phase ≠ .ended), final.strays)) = some (true, [0]) := by
      decide +kernel
    rw [ran, Option.map_some, Option.some.injEq, Prod.mk.injEq, decide_eq_true_eq] at goesOn
    rw [orderly.alone goesOn.1] at goesOn
    simp at goesOn

end Herold.Imap

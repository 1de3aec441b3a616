import Herold.Smtp.Transaction

/-!
# The spill files of a session

The body of a message goes to a spill file that the envelope holds. A command
other than DATA and BDAT leaves the files alone or resets the envelope. Only a
DATA that finds a BDAT's file open lets go of it, and only a chunk size that
overflows the running total gets more than the limit into one.
-/

namespace Herold.Smtp

open Herold.Go Herold.Machine

def ServerOptions.defaults (options : ServerOptions) : ServerOptions :=
  { options with
    maxCommandsPerSession :=
      if options.maxCommandsPerSession = 0 then 1000 else options.maxCommandsPerSession
    maxRecipientsPerMessage :=
      if options.maxRecipientsPerMessage = 0 then 100 else options.maxRecipientsPerMessage
    maxMessageSize :=
      if options.maxMessageSize ≤ 0 then 50 * 1024 * 1024 else options.maxMessageSize }

theorem defaults_positive (options : ServerOptions) : 0 < options.defaults.maxMessageSize := by
  simp only [ServerOptions.defaults]
  split
  · decide
  · omega

def SessionEvent.isSpill : SessionEvent → Bool
  | spillCreated | bodyWritten _ | envelopeReset => true
  | _ => false

structure Untouched (session next : Session) : Prop where
  spill : next.envelope.spill = session.envelope.spill
  size : next.envelope.spillSize = session.envelope.spillSize
  files : next.files = session.files
  number : next.nextFile = session.nextFile
  log : ∃ events, next.log = session.log ++ events ∧ ∀ event ∈ events, event.isSpill = false

/-- What the commands without a body do: nothing to the files, but for resets. -/
inductive Idle : Session → Session → Prop where
  | untouched {session next : Session} (same : Untouched session next) : Idle session next
  | reset (session : Session) : Idle session session.resetEnvelope
  | trans {first second third : Session} (before : Idle first second) (after : Idle second third) :
      Idle first third

section

variable (session : Session)

theorem replies_idle (replies : List Reply) : Idle session { session with replies } :=
  .untouched ⟨rfl, rfl, rfl, rfl, [], by simp, by simp⟩

theorem answer_idle (text : Bytes) : Idle session (session.answer text) := replies_idle session _

theorem replied_idle {next : Session} (before : Idle session next) (text : Bytes) :
    Idle session (next.answer text) := before.trans (answer_idle next text)

theorem greet_idle (name : Bytes) (isEHLO : Bool) : Idle session (session.greet name isEHLO) := by
  apply Idle.trans _ (Idle.reset _)
  exact .untouched ⟨rfl, rfl, rfl, rfl, [.greeted], rfl, by simp [SessionEvent.isSpill]⟩

section

variable (options : ServerOptions) (outside : Outside) (rest : Bytes)

theorem starttls_idle : Idle session (session.cmdSTARTTLS outside rest).1 := by
  unfold Session.cmdSTARTTLS
  split_ifs
  · exact answer_idle session _
  · exact answer_idle session _
  · exact answer_idle session _
  · exact answer_idle session _
  · dsimp only
    split
    · apply Idle.trans _ (Idle.reset _)
      exact .untouched ⟨rfl, rfl, rfl, rfl, [.secured], rfl, by simp [SessionEvent.isSpill]⟩
    · exact answer_idle session _

theorem auth_idle : Idle session (session.cmdAUTH options outside rest).1 := by
  unfold Session.cmdAUTH
  split
  · exact answer_idle session _
  split
  · exact answer_idle session _
  split
  · exact answer_idle session _
  split
  · exact answer_idle session _
  dsimp only
  split
  · exact answer_idle session _
  split
  · exact answer_idle session _
  split
  · exact replies_idle session _
  · exact replies_idle session _
  split
  · exact replies_idle session _
  split
  · exact replies_idle session _
  · exact .untouched ⟨rfl, rfl, rfl, rfl, [.authenticated _], rfl, by simp [SessionEvent.isSpill]⟩

theorem argument_idle (usage : Bytes) (error : ArgumentError) :
    Idle session (session.argumentError usage error) := by
  cases error with
  | syntaxError => exact replies_idle session _
  | path error => exact replies_idle session _
  | parameter error => exact replies_idle session _

theorem mail_idle : Idle session (session.cmdMAIL options rest) := by
  unfold Session.cmdMAIL
  split
  · exact answer_idle session _
  split
  · exact answer_idle session _
  split
  · exact answer_idle session _
  split
  · exact argument_idle session _ _
  split
  · exact answer_idle session _
  · apply Idle.trans (Idle.reset session)
    exact .untouched ⟨rfl, rfl, rfl, rfl, [.mailAccepted _ _], rfl, by simp [SessionEvent.isSpill]⟩

theorem rcpt_idle : Idle session (session.cmdRCPT options outside rest) := by
  unfold Session.cmdRCPT
  split
  · exact answer_idle session _
  split
  · exact answer_idle session _
  split
  · exact argument_idle session _ _
  split
  · exact answer_idle session _
  split
  · exact answer_idle session _
  split
  · exact answer_idle session _
  · exact .untouched ⟨rfl, rfl, rfl, rfl, [.rcptAccepted _], rfl, by simp [SessionEvent.isSpill]⟩

theorem multi_idle (heading : Bytes) (lines : List Bytes) :
    Idle session (session.replyMulti heading lines) := by
  have each (before : List Bytes) (start : Session) :
      Idle start (before.foldl (fun session line => session.answer (ascii "250-" ++ line)) start) := by
    induction before generalizing start with
    | nil => exact replies_idle start start.replies
    | cons line before ih => exact (answer_idle start _).trans (ih _)
  unfold Session.replyMulti
  split
  · exact answer_idle session _
  · exact ((answer_idle session _).trans (each _ _)).trans (answer_idle _ _)

theorem dispatch_idle (verb : Session.Verb)
    (rest : Bytes) (data : verb ≠ .data) (bdat : verb ≠ .bdat) :
    Idle session (session.dispatch options outside verb rest).1 := by
  cases verb with
  | data => exact absurd rfl data
  | bdat => exact absurd rfl bdat
  | helo =>
    simp only [Session.dispatch, Session.cmdHELO]
    split
    · exact answer_idle session _
    · exact replied_idle session (greet_idle session _ _) _
  | ehlo =>
    simp only [Session.dispatch, Session.cmdEHLO]
    split
    · exact answer_idle session _
    · exact (greet_idle session _ _).trans (multi_idle _ _ _)
  | starttls => exact starttls_idle session outside rest
  | auth => exact auth_idle session options outside rest
  | mail => exact mail_idle session options rest
  | rcpt => exact rcpt_idle session options outside rest
  | rset => exact replied_idle session (.reset session) _
  | noop | quit | vrfy | expn | help | unrecognised => exact answer_idle session _

end

end

structure SpillRule (Invariant : Session → Prop) : Prop where
  untouched : ∀ session next, Untouched session next → Invariant session → Invariant next
  reset : ∀ session, Invariant session → Invariant session.resetEnvelope

theorem idle_keeps (Invariant : Session → Prop) (rule : SpillRule Invariant) (session next : Session)
    (idle : Idle session next) (holds : Invariant session) : Invariant next := by
  induction idle with
  | untouched same => exact rule.untouched _ _ same holds
  | reset session => exact rule.reset session holds
  | trans _ _ first second => exact second (first holds)

def Session.Input.command : Session.Input → Option (Session.Verb × Bytes × Outside)
  | .line (byte :: text) outside =>
    some (Session.verbOf (splitVerb (byte :: text)).1, (splitVerb (byte :: text)).2, outside)
  | _ => none

theorem step_keeps (Invariant : Session → Prop) (rule : SpillRule Invariant)
    (options : ServerOptions) (session : Session) (input : Session.Input) (next : Session)
    (data : ∀ counted rest outside, input.command = some (.data, rest, outside) →
      counted.envelope = session.envelope → Invariant counted →
      Invariant (counted.cmdDATA options outside).1)
    (bdat : ∀ counted rest outside, input.command = some (.bdat, rest, outside) →
      counted.envelope = session.envelope → Invariant counted →
      Invariant (counted.cmdBDAT options outside rest).1)
    (holds : Invariant session) (ran : (sessionMachine options).step session input = some next) :
    Invariant next := by
  have ran : session.step options input = some next := ran
  have loops (base : Session) (commandCount : Nat) (closed : Bool) (baseHolds : Invariant base) :
      Invariant { base with commandCount, closed } :=
    rule.untouched base _ ⟨rfl, rfl, rfl, rfl, [], by simp, by simp⟩ baseHolds
  have closes (base : Session) (text : Bytes) (baseHolds : Invariant base) :
      Invariant (base.closeWith text) :=
    loops _ base.commandCount true (idle_keeps Invariant rule _ _ (answer_idle base text) baseHolds)
  have counted := loops session (session.commandCount + 1) session.closed holds
  unfold Session.step at ran
  split at ran
  · cases ran
  split at ran
  · cases ran
    exact closes session _ holds
  dsimp only at ran
  split at ran
  · cases ran
    exact closes _ _ counted
  split at ran
  · cases ran
    exact counted
  · rename_i text outside filled _ _
    cases ran
    apply loops
    cases text with
    | nil => exact absurd rfl filled
    | cons byte text =>
      cases verb : Session.verbOf (splitVerb (byte :: text)).1 with
      | data =>
        exact data _ (splitVerb (byte :: text)).2 outside
          (by simp [Session.Input.command, verb]) rfl counted
      | bdat =>
        exact bdat _ (splitVerb (byte :: text)).2 outside
          (by simp [Session.Input.command, verb]) rfl counted
      | helo | ehlo | starttls | auth | mail | rcpt | rset | noop | quit | vrfy | expn | help
      | unrecognised =>
        exact idle_keeps Invariant rule _ _
          (dispatch_idle _ options outside _ _ (by simp) (by simp)) counted
  · cases ran
    exact closes _ _ counted
  · cases ran
    exact closes _ _ counted
  · cases ran
    exact loops session _ true holds

def spillOpen (events : List SessionEvent) : Bool :=
  events.foldl (fun opened event => match event with
    | .spillCreated => true
    | .envelopeReset => false
    | _ => opened) false

def createdAlone (before : List SessionEvent) (event : SessionEvent) : Prop :=
  event = .spillCreated → spillOpen before = false

/-- The files on disk are the one the envelope holds, and none was ever created
beside another. -/
structure OneSpill (session : Session) : Prop where
  files : session.files = (session.envelope.spill.map Spill.file).toList
  opened : spillOpen session.log = session.envelope.spill.isSome
  alone : EveryEvent createdAlone session.log

theorem every_event_quiet (check : List SessionEvent → SessionEvent → Prop)
    (lenient : ∀ before event, event.isSpill = false → check before event)
    (log events : List SessionEvent) (quiet : ∀ event ∈ events, event.isSpill = false)
    (holds : EveryEvent check log) : EveryEvent check (log ++ events) := by
  induction events generalizing log with
  | nil => simpa using holds
  | cons event events ih =>
    have later := ih (log ++ [event]) (fun other member => quiet other (List.mem_cons_of_mem _ member))
      (every_event_append check log event holds (lenient log event (quiet event List.mem_cons_self)))
    simpa using later

theorem spill_open_quiet (log events : List SessionEvent)
    (quiet : ∀ event ∈ events, event.isSpill = false) : spillOpen (log ++ events) = spillOpen log := by
  unfold spillOpen
  rw [List.foldl_append]
  generalize List.foldl _ false log = opened
  induction events with
  | nil => rfl
  | cons event events ih =>
    have silent := quiet event List.mem_cons_self
    have later := ih fun other member => quiet other (List.mem_cons_of_mem _ member)
    cases event with
    | spillCreated | bodyWritten _ | envelopeReset => cases silent
    | greeted | secured | authenticated _ | mailAccepted _ _ | rcptAccepted _ | finished _ =>
      exact later

theorem spill_open_last (log : List SessionEvent) :
    spillOpen (log ++ [.spillCreated]) = true ∧ spillOpen (log ++ [.envelopeReset]) = false ∧
      ∀ bytes, spillOpen (log ++ [.bodyWritten bytes]) = spillOpen log := by
  simp [spillOpen]

theorem one_spill_rule : SpillRule OneSpill where
  untouched := by
    rintro session next ⟨spill, _, files, _, events, log, quiet⟩ holds
    refine ⟨by rw [files, spill, holds.files], ?_, ?_⟩
    · rw [log, spill_open_quiet _ events quiet, holds.opened, spill]
    · rw [log]
      refine every_event_quiet createdAlone ?_ _ _ quiet holds.alone
      rintro before event silent rfl
      cases silent
  reset := by
    intro session holds
    refine ⟨?_, (spill_open_last session.log).2.1, ?_⟩
    · have files := holds.files
      cases spill : session.envelope.spill with
      | none => simpa [Session.resetEnvelope, Session.record, spill] using files
      | some file => simp [Session.resetEnvelope, Session.record, spill, files]
    · refine every_event_append createdAlone _ _ holds.alone ?_
      intro created
      cases created

theorem open_one_spill (session : Session) (free : session.envelope.spill = none)
    (holds : OneSpill session) : OneSpill session.openSpill where
  files := by simp [Session.openSpill, Session.record, holds.files, free]
  opened := (spill_open_last session.log).1
  alone := by
    apply every_event_append createdAlone _ _ holds.alone
    intro _
    rw [holds.opened, free]
    rfl

theorem write_one_spill (session : Session) (bytes : Bytes) (size : Int) (holds : OneSpill session) :
    OneSpill { session.writeSpill bytes with
      envelope := { (session.writeSpill bytes).envelope with spillSize := size } } where
  files := by simp [Session.writeSpill, Session.record, holds.files, Function.comp_def]
  opened := by
    have kept := (spill_open_last session.log).2.2 bytes
    simp [Session.writeSpill, Session.record, kept, holds.opened]
  alone := by
    refine every_event_append createdAlone _ _ holds.alone ?_
    intro created
    cases created

section

variable {Invariant : Session → Prop} (rule : SpillRule Invariant)

include rule

theorem rejected_keeps (session : Session) (text : Bytes) (holds : Invariant session) :
    Invariant (session.answer text).resetEnvelope :=
  rule.reset _ (idle_keeps Invariant rule _ _ (answer_idle session text) holds)

theorem finished_keeps (outside : Outside) (session : Session) (holds : Invariant session) :
    Invariant (session.finishMessage outside) := by
  apply rejected_keeps rule
  exact rule.untouched session _
    ⟨rfl, rfl, rfl, rfl, [.finished _], rfl, by simp [SessionEvent.isSpill]⟩ holds

end

theorem data_one_spill (options : ServerOptions) (outside : Outside) (session : Session)
    (free : session.envelope.spill = none) (holds : OneSpill session) :
    OneSpill (session.cmdDATA options outside).1 := by
  have answered (text : Bytes) : OneSpill (session.answer text) :=
    idle_keeps OneSpill one_spill_rule _ _ (answer_idle session text) holds
  unfold Session.cmdDATA
  split
  · exact answered _
  dsimp only
  have opened := open_one_spill (session.answer (ascii "354 end data with <CR><LF>.<CR><LF>")) free
    (answered _)
  split
  · exact answered _
  split
  · exact rejected_keeps one_spill_rule _ _ (answered _)
  split
  · exact rejected_keeps one_spill_rule _ _ opened
  · split
    · exact one_spill_rule.reset _ opened
    · exact rejected_keeps one_spill_rule _ _ opened
  · exact rejected_keeps one_spill_rule _ _ opened
  · rename_i content _ _
    have written := write_one_spill _ content content.length opened
    split
    · exact rejected_keeps one_spill_rule _ _ written
    · exact finished_keeps one_spill_rule outside _ written

theorem chunk_one_spill (options : ServerOptions) (outside : Outside) (size : Nat) (last : Bool)
    (session : Session) (holds : OneSpill session) :
    OneSpill (session.receiveChunk options outside size last).1 := by
  unfold Session.receiveChunk
  split
  · exact rejected_keeps one_spill_rule _ _ holds
  dsimp only
  have written := write_one_spill session (outside.incoming.take (min size outside.room))
    (Session.wrap64 (session.envelope.spillSize +
      (outside.incoming.take (min size outside.room)).length)) holds
  split
  · exact one_spill_rule.reset _ written
  split
  · exact idle_keeps OneSpill one_spill_rule _ _ (answer_idle _ _) written
  split
  · exact rejected_keeps one_spill_rule _ _ written
  · exact finished_keeps one_spill_rule outside _ written

theorem bdat_one_spill (options : ServerOptions) (outside : Outside) (rest : Bytes)
    (session : Session) (holds : OneSpill session) :
    OneSpill (session.cmdBDAT options outside rest).1 := by
  have answered (text : Bytes) : OneSpill (session.answer text) :=
    idle_keeps OneSpill one_spill_rule _ _ (answer_idle session text) holds
  unfold Session.cmdBDAT
  split
  · exact answered _
  split
  · exact answered _
  split
  · exact answered _
  split
  · exact answered _
  dsimp only
  split
  · exact one_spill_rule.reset _ (answered _)
  apply chunk_one_spill
  split
  case isTrue free => exact open_one_spill session (Option.isNone_iff_eq_none.mp free) holds
  case isFalse => exact holds

/-- No DATA command while the envelope holds the file of an earlier BDAT. -/
def dataFindsNoSpill (session : Session) (input : Session.Input) : Bool :=
  match input.command with
  | some (.data, _) => session.envelope.spill.isNone
  | _ => true

/-- In every session in which no DATA follows an unfinished BDAT, each spill file
is created where there is no other, and is gone when its envelope is reset. -/
theorem spills_one_at_a_time (options : ServerOptions) (mode : ListenerMode)
    (allowPlainAuth : Bool) (implicit : Option Bytes) (inputs : List Session.Input)
    (final : Session)
    (orderly : (sessionMachine options).Meets
      (fun session input => dataFindsNoSpill session input = true)
      (Session.accept mode allowPlainAuth implicit) inputs)
    (ran : (sessionMachine options).execute (Session.accept mode allowPlainAuth implicit) inputs =
      some final) : OneSpill final := by
  refine Machine.meets_keeps (sessionMachine options) _ OneSpill ?_ inputs _ final ?_ orderly ran
  · intro session input next holds allowed stepped
    refine step_keeps OneSpill one_spill_rule options session input next ?_ ?_ holds stepped
    · intro counted rest outside command same before
      apply data_one_spill options outside counted _ before
      rw [same]
      simpa [dataFindsNoSpill, command] using allowed
    · intro counted rest outside _ _ before
      exact bdat_one_spill options outside rest counted before
  · exact ⟨rfl, rfl, every_event_nil _⟩

def opensEnvelope : List Session.Input :=
  [.line (ascii "EHLO c") {}, .line (ascii "MAIL FROM:<a@x>") {}, .line (ascii "RCPT TO:<b@y>") {}]

def chunksThenData : List Session.Input :=
  opensEnvelope ++
    [.line (ascii "BDAT 1") { incoming := [97] }, .line (ascii "BDAT 1 LAST") { incoming := [98] }] ++
    opensEnvelope.tail ++ [.line (ascii "DATA") { incoming := ascii "." ++ crlf }]

theorem spills_one_at_a_time_in_two_messages :
    ∃ final, (sessionMachine submissionServer).execute (Session.accept .relayIn false none)
        chunksThenData = some final ∧ final.nextFile = 2 ∧ OneSpill final := by
  have ended : ((sessionMachine submissionServer).execute (Session.accept .relayIn false none)
      chunksThenData).any (fun final => final.nextFile = 2) = true := by decide +kernel
  have orderly : (sessionMachine submissionServer).Meets
      (fun session input => dataFindsNoSpill session input = true)
      (Session.accept .relayIn false none) chunksThenData := by decide +kernel
  obtain ⟨final, ran, two⟩ := (Option.any_eq_true _ _).mp ended
  exact ⟨final, ran, of_decide_eq_true two,
    spills_one_at_a_time submissionServer .relayIn false none chunksThenData final orderly ran⟩

def chunkAndData : List Session.Input :=
  opensEnvelope ++ [.line (ascii "BDAT 1") { incoming := [97] },
    .line (ascii "DATA") { incoming := ascii "." ++ crlf }]

/-- The envelope is reset and the file of the chunk is still there. -/
theorem data_leaves_chunk_behind :
    ∃ final, (sessionMachine submissionServer).execute (Session.accept .relayIn false none)
        chunkAndData = some final ∧ final.envelope.spill = none ∧ final.files = [0] ∧
      ¬EveryEvent createdAlone final.log := by
  have ended : ((sessionMachine submissionServer).execute (Session.accept .relayIn false none)
      chunkAndData).any (fun final => final.envelope.spill = none ∧ final.files = [0] ∧
        final.log = final.log.take 7 ++ .spillCreated :: final.log.drop 8 ∧
          spillOpen (final.log.take 7) = true) = true := by
    decide +kernel
  obtain ⟨final, ran, leaked⟩ := (Option.any_eq_true _ _).mp ended
  obtain ⟨free, files, split, opened⟩ := of_decide_eq_true leaked
  refine ⟨final, ran, free, files, ?_⟩
  intro alone
  have quiet := alone (final.log.take 7) .spillCreated (final.log.drop 8) split rfl
  rw [opened] at quiet
  cases quiet

def writesWithin (maxSize : Int) (before : List SessionEvent) (event : SessionEvent) : Prop :=
  ∀ bytes, event = .bodyWritten bytes → ((openBody before ++ bytes).length : Int) ≤ maxSize

/-- The file of the envelope has what was written since it was created. -/
structure WrittenWithin (maxSize : Int) (session : Session) : Prop where
  within : EveryEvent (writesWithin maxSize) session.log
  body : ∀ spill ∈ session.envelope.spill, spill.content = openBody session.log

structure CountedWithin (maxSize : Int) (session : Session) : Prop extends
    WrittenWithin maxSize session where
  counted : session.envelope.spillSize = ((session.envelope.spill.map Spill.content).getD []).length

theorem open_body_quiet (log events : List SessionEvent)
    (quiet : ∀ event ∈ events, event.isSpill = false) : openBody (log ++ events) = openBody log := by
  unfold openBody
  rw [List.foldl_append]
  generalize List.foldl _ [] log = body
  induction events with
  | nil => rfl
  | cons event events ih =>
    have silent := quiet event List.mem_cons_self
    have later := ih fun other member => quiet other (List.mem_cons_of_mem _ member)
    cases event with
    | spillCreated | bodyWritten _ | envelopeReset => cases silent
    | greeted | secured | authenticated _ | mailAccepted _ _ | rcptAccepted _ | finished _ =>
      exact later

section

variable {maxSize : Int}

theorem reset_counted (session : Session) (holds : WrittenWithin maxSize session) :
    CountedWithin maxSize session.resetEnvelope where
  within := every_event_append _ _ _ holds.within nofun
  body := nofun
  counted := rfl

theorem written_rule : SpillRule (WrittenWithin maxSize) where
  untouched := by
    rintro session next ⟨spill, _, _, _, events, log, quiet⟩ holds
    refine ⟨?_, ?_⟩
    · rw [log]
      refine every_event_quiet _ ?_ _ _ quiet holds.within
      rintro before event silent bytes rfl
      cases silent
    · rw [spill, log, open_body_quiet _ events quiet]
      exact holds.body
  reset := fun session holds => (reset_counted session holds).toWrittenWithin

theorem counted_rule : SpillRule (CountedWithin maxSize) where
  untouched := by
    intro session next same holds
    refine ⟨written_rule.untouched session next same holds.toWrittenWithin, ?_⟩
    rw [same.size, same.spill]
    exact holds.counted
  reset := fun session holds => reset_counted session holds.toWrittenWithin

theorem rejected_counted (session : Session) (text : Bytes) (holds : WrittenWithin maxSize session) :
    CountedWithin maxSize (session.answer text).resetEnvelope :=
  reset_counted _ (idle_keeps _ written_rule _ _ (answer_idle session text) holds)

theorem finished_counted (outside : Outside) (session : Session)
    (holds : WrittenWithin maxSize session) :
    CountedWithin maxSize (session.finishMessage outside) := by
  apply rejected_counted
  exact written_rule.untouched session _
    ⟨rfl, rfl, rfl, rfl, [.finished _], rfl, by simp [SessionEvent.isSpill]⟩ holds

theorem open_spill_written (session : Session) (holds : WrittenWithin maxSize session) :
    WrittenWithin maxSize session.openSpill where
  within := every_event_append _ _ _ holds.within nofun
  body := by
    intro spill held
    simp only [Session.openSpill, Session.record, Option.mem_some_iff] at held ⊢
    simp [← held, openBody]

theorem write_spill_written (session : Session) (spill : Spill) (bytes : Bytes) (size : Int)
    (held : session.envelope.spill = some spill)
    (fits : ((spill.content ++ bytes).length : Int) ≤ maxSize)
    (holds : WrittenWithin maxSize session) :
    WrittenWithin maxSize { session.writeSpill bytes with
      envelope := { (session.writeSpill bytes).envelope with spillSize := size } } where
  within := by
    apply every_event_append _ _ _ holds.within
    intro written same
    cases same
    rwa [← holds.body spill held]
  body := by
    intro stored member
    have before := holds.body spill held
    simp only [Session.writeSpill, Session.record, held, Option.map_some,
      Option.mem_some_iff] at member ⊢
    rw [← member, before]
    simp [openBody]

end

theorem read_dot_lines_fits (maxSize : Int) (room : Nat) (tail written content rest : Bytes)
    (lines : List Bytes) (fits : written.length ≤ maxSize)
    (read : readDotLines maxSize room tail written lines = .complete content rest) :
    content.length ≤ maxSize := by
  induction lines generalizing written with
  | nil => cases read
  | cons line lines ih =>
    simp only [readDotLines] at read
    split_ifs at read with ends tooLong full
    · cases read
      exact fits
    · refine ih _ ?_ read
      simp only [List.length_append, crlf, List.length_cons, List.length_nil]
      omega

theorem data_counted (options : ServerOptions) (outside : Outside) (session : Session)
    (positive : 0 < options.maxMessageSize) (holds : CountedWithin options.maxMessageSize session) :
    CountedWithin options.maxMessageSize (session.cmdDATA options outside).1 := by
  have answered (text : Bytes) : CountedWithin options.maxMessageSize (session.answer text) :=
    idle_keeps _ counted_rule _ _ (answer_idle session text) holds
  unfold Session.cmdDATA
  split
  · exact answered _
  dsimp only
  have opened := open_spill_written _
    (answered (ascii "354 end data with <CR><LF>.<CR><LF>")).toWrittenWithin
  split
  · exact answered _
  split
  · exact rejected_counted _ _ (answered _).toWrittenWithin
  split
  · exact rejected_counted _ _ opened
  · split
    · exact reset_counted _ opened
    · exact rejected_counted _ _ opened
  · exact rejected_counted _ _ opened
  · rename_i content _ read
    have fits := read_dot_lines_fits _ _ _ _ _ _ _ (by simpa using Int.le_of_lt positive) read
    have written := write_spill_written _ ⟨session.nextFile, []⟩ content content.length rfl fits opened
    split
    · exact rejected_counted _ _ written
    · exact finished_counted outside _ written

theorem chunk_counted (options : ServerOptions) (outside : Outside) (size : Nat) (last : Bool)
    (session : Session) (spill : Spill) (held : session.envelope.spill = some spill)
    (countable : session.envelope.spillSize + size < 9223372036854775808)
    (holds : CountedWithin options.maxMessageSize session) :
    CountedWithin options.maxMessageSize (session.receiveChunk options outside size last).1 := by
  have total : session.envelope.spillSize = spill.content.length := by
    rw [holds.counted, held]
    rfl
  have wraps (value : Int) (low : 0 ≤ value) (high : value < 9223372036854775808) :
      Session.wrap64 value = value := by
    unfold Session.wrap64
    have same : value % 18446744073709551616 = value := by omega
    rw [same]
    exact if_pos high
  unfold Session.receiveChunk
  split
  · exact rejected_counted _ _ holds.toWrittenWithin
  rename_i under
  dsimp only
  have short : (outside.incoming.take (min size outside.room)).length ≤ size := by
    rw [List.length_take]
    omega
  rw [wraps _ (by omega) countable] at under
  have written := write_spill_written session spill (outside.incoming.take (min size outside.room))
    (Session.wrap64 (session.envelope.spillSize +
      (outside.incoming.take (min size outside.room)).length)) held
    (by rw [List.length_append]; omega) holds.toWrittenWithin
  split
  · exact reset_counted _ written
  split
  · apply idle_keeps _ counted_rule _ _ (answer_idle _ _)
    refine ⟨written, ?_⟩
    show Session.wrap64 (session.envelope.spillSize +
      ((outside.incoming.take (min size outside.room)).length : Int)) = _
    rw [wraps _ (by omega) (by omega), total]
    simp [Session.writeSpill, Session.record, held]
  split
  · exact rejected_counted _ _ written
  · exact finished_counted outside _ written

def chunkSize (input : Session.Input) : Option Int :=
  match input.command with
  | some (.bdat, rest, _) => (fields rest).head?.bind parseInt64
  | _ => none

def chunkCounts (session : Session) (input : Session.Input) : Bool :=
  match chunkSize input with
  | some size => session.envelope.spillSize + size < 9223372036854775808
  | none => true

theorem bdat_counted (options : ServerOptions) (outside : Outside) (rest : Bytes)
    (session : Session)
    (countable : ∀ size, (fields rest).head?.bind parseInt64 = some size →
      session.envelope.spillSize + size < 9223372036854775808)
    (holds : CountedWithin options.maxMessageSize session) :
    CountedWithin options.maxMessageSize (session.cmdBDAT options outside rest).1 := by
  have answered (text : Bytes) : CountedWithin options.maxMessageSize (session.answer text) :=
    idle_keeps _ counted_rule _ _ (answer_idle session text) holds
  unfold Session.cmdBDAT
  split
  · exact answered _
  split
  · exact answered _
  rename_i size more words
  split
  · exact answered _
  rename_i size parsed
  have small := countable size (by rw [words]; exact parsed)
  split
  · exact answered _
  rename_i natural
  dsimp only
  split
  · exact reset_counted _ (answered _).toWrittenWithin
  split
  case isTrue free =>
    have none := Option.isNone_iff_eq_none.mp free
    apply chunk_counted options outside _ _ _ ⟨session.nextFile, []⟩ rfl
    · show session.envelope.spillSize + _ < _
      omega
    · refine ⟨open_spill_written session holds.toWrittenWithin, ?_⟩
      have counted := holds.counted
      rw [none] at counted
      exact counted
  case isFalse taken =>
    obtain ⟨spill, held⟩ := Option.ne_none_iff_exists'.mp fun none =>
      taken (Option.isNone_iff_eq_none.mpr none)
    apply chunk_counted options outside _ _ _ spill held _ holds
    omega

/-- In every session whose chunk sizes do not overflow the running total, no
write leaves more than the limit in a spill file. -/
theorem spill_within_limit (options : ServerOptions) (mode : ListenerMode) (allowPlainAuth : Bool)
    (implicit : Option Bytes) (inputs : List Session.Input) (final : Session)
    (counts : (sessionMachine options.defaults).Meets
      (fun session input => chunkCounts session input = true)
      (Session.accept mode allowPlainAuth implicit) inputs)
    (ran : (sessionMachine options.defaults).execute (Session.accept mode allowPlainAuth implicit)
      inputs = some final) :
    EveryEvent (writesWithin options.defaults.maxMessageSize) final.log := by
  have counted : CountedWithin options.defaults.maxMessageSize final := by
    refine Machine.meets_keeps (sessionMachine options.defaults) _ (CountedWithin _) ?_ inputs _
      final ?_ counts ran
    · intro session input next holds allowed stepped
      refine step_keeps _ counted_rule options.defaults session input next ?_ ?_ holds stepped
      · intro counted rest outside _ _ before
        exact data_counted options.defaults outside counted (defaults_positive options) before
      · intro counted rest outside command same before
        apply bdat_counted options.defaults outside rest counted _ before
        intro size announced
        rw [same]
        simpa [chunkCounts, chunkSize, command, announced] using allowed
    · exact ⟨⟨every_event_nil _, nofun⟩, rfl⟩
  exact counted.within

theorem spill_within_limit_in_two_messages :
    ∃ final, (sessionMachine
          ({ hostname := ascii "mx", maxMessageSize := 3 } : ServerOptions).defaults).execute
        (Session.accept .relayIn false none) chunksThenData = some final ∧
      .bodyWritten [98] ∈ final.log ∧ EveryEvent (writesWithin 3) final.log := by
  have ended : ((sessionMachine
        ({ hostname := ascii "mx", maxMessageSize := 3 } : ServerOptions).defaults).execute
      (Session.accept .relayIn false none) chunksThenData).any (fun final =>
        SessionEvent.bodyWritten [98] ∈ final.log) = true := by decide +kernel
  have counts : (sessionMachine
        ({ hostname := ascii "mx", maxMessageSize := 3 } : ServerOptions).defaults).Meets
      (fun session input => chunkCounts session input = true)
      (Session.accept .relayIn false none) chunksThenData := by decide +kernel
  obtain ⟨final, ran, written⟩ := (Option.any_eq_true _ _).mp ended
  exact ⟨final, ran, of_decide_eq_true written,
    spill_within_limit { hostname := ascii "mx", maxMessageSize := 3 } .relayIn false none
      chunksThenData final counts ran⟩

def overflowingChunk : List Session.Input :=
  opensEnvelope ++ [.line (ascii "BDAT 1") { incoming := [97] },
    .line (ascii "BDAT 9223372036854775807") { incoming := [98, 99, 100] }]

/-- The total wraps around, and the second chunk is written past the limit. -/
theorem overflow_passes_limit :
    ∃ final, (sessionMachine
          ({ hostname := ascii "mx", maxMessageSize := 3 } : ServerOptions).defaults).execute
        (Session.accept .relayIn false none) overflowingChunk = some final ∧
      ¬EveryEvent (writesWithin 3) final.log := by
  have ended : ((sessionMachine
        ({ hostname := ascii "mx", maxMessageSize := 3 } : ServerOptions).defaults).execute
      (Session.accept .relayIn false none) overflowingChunk).any (fun final =>
        final.log = final.log.take 7 ++ .bodyWritten [98, 99, 100] :: final.log.drop 8 ∧
          openBody (final.log.take 7) = [97]) = true := by decide +kernel
  obtain ⟨final, ran, stopped⟩ := (Option.any_eq_true _ _).mp ended
  obtain ⟨split, body⟩ := of_decide_eq_true stopped
  refine ⟨final, ran, ?_⟩
  intro within
  have fits := within _ _ _ split _ rfl
  rw [body] at fits
  exact absurd fits (by decide)

end Herold.Smtp

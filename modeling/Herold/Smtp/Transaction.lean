import Herold.Machine.History
import Herold.Smtp.Session

/-!
# One transaction per message

A message is finished only inside a transaction: after a greeting and a MAIL that
no greeting, STARTTLS, reset, other MAIL or finished message came after. What is
finished is what that transaction accepted, and nothing older.
-/

namespace Herold.Smtp

open Herold.Go Herold.Machine

def SessionEvent.isInside : SessionEvent → Bool
  | rcptAccepted _ | spillCreated | bodyWritten _ => true
  | _ => false

def SessionEvent.isAuthentication : SessionEvent → Prop
  | authenticated _ => True
  | _ => False

def acceptedRcpts (events : List SessionEvent) : List RcptEntry :=
  events.filterMap fun event => match event with
    | .rcptAccepted entry => some entry
    | _ => none

def openBody (events : List SessionEvent) : Bytes :=
  events.foldl (fun body event => match event with
    | .spillCreated => []
    | .bodyWritten bytes => body ++ bytes
    | _ => body) []

def Greeted (log : List SessionEvent) : Prop := Since (· = .greeted) (· = .secured) log

def LoggedIn (log : List SessionEvent) : Prop :=
  Since SessionEvent.isAuthentication (· = .secured) log

/-- The log ends in an open transaction, begun by the given MAIL, that accepted
these recipients and wrote this body. -/
def OpenTransaction (log : List SessionEvent) (mailFrom : Bytes) (params : MailFromParams)
    (rcpts : List RcptEntry) (body : Option Bytes) : Prop :=
  ∃ earlier since, log = earlier ++ .mailAccepted mailFrom params :: since ∧ Greeted earlier ∧
    (∀ event ∈ since, event.isInside = true) ∧ rcpts = acceptedRcpts since ∧
      ∀ bytes ∈ body, bytes = openBody since

def finishCheck (mode : ListenerMode) (before : List SessionEvent) : SessionEvent → Prop
  | .finished message =>
    OpenTransaction before message.mailFrom message.mailFromParams message.rcpts
        (some message.body) ∧
      message.rcpts ≠ [] ∧
      (mode.isSubmission = true → message.authenticated = true ∧ LoggedIn before) ∧
      (mode = .submissionSTARTTLS → message.tlsEstablished = true ∧ .secured ∈ before)
  | _ => True

def FinishesInTransaction (mode : ListenerMode) (log : List SessionEvent) : Prop :=
  EveryEvent (finishCheck mode) log

structure FlagsSafe (mode : ListenerMode) (session : Session) : Prop where
  listener : session.mode = mode
  greeted : session.st ≠ .init → Greeted session.log
  loggedIn : session.authenticated = true → LoggedIn session.log
  secured : mode = .submissionSTARTTLS → session.tlsEstablished = true → .secured ∈ session.log
  sound : FinishesInTransaction mode session.log

def Session.isOpen (session : Session) : Prop :=
  session.st = .envelope ∨ session.st = .recipients

structure SessionSafe (mode : ListenerMode) (session : Session) : Prop extends
    FlagsSafe mode session where
  inTransaction : session.isOpen → OpenTransaction session.log session.envelope.mailFrom
    session.envelope.mailFromParams session.envelope.rcpts
      (session.envelope.spill.map Spill.content)
  admitted : session.isOpen →
    (mode.isSubmission = true → session.authenticated = true) ∧
      (mode = .submissionSTARTTLS → session.tlsEstablished = true)

theorem accept_session_safe (mode : ListenerMode) (allowPlainAuth : Bool)
    (implicit : Option Bytes) : SessionSafe mode (Session.accept mode allowPlainAuth implicit) where
  listener := rfl
  greeted := fun started => absurd rfl started
  loggedIn := nofun
  secured := by
    rintro rfl established
    simp [Session.accept] at established
  sound := every_event_nil _
  inTransaction := by simp [Session.isOpen, Session.accept]
  admitted := by simp [Session.isOpen, Session.accept]

section

variable {mode : ListenerMode}

section

variable (options : ServerOptions) (outside : Outside) (session : Session) (rest : Bytes)

theorem reply_session_safe (replies : List Reply)
    (safe : SessionSafe mode session) : SessionSafe mode { session with replies } where
  listener := safe.listener
  greeted := safe.greeted
  loggedIn := safe.loggedIn
  secured := safe.secured
  sound := safe.sound
  inTransaction := safe.inTransaction
  admitted := safe.admitted

theorem reply_flags_safe (replies : List Reply)
    (safe : FlagsSafe mode session) : FlagsSafe mode { session with replies } where
  listener := safe.listener
  greeted := safe.greeted
  loggedIn := safe.loggedIn
  secured := safe.secured
  sound := safe.sound

theorem record_flags_safe (event : SessionEvent) (safe : FlagsSafe mode session)
    (stays : event ≠ .secured) (passes : finishCheck mode session.log event) :
    FlagsSafe mode (session.record event) where
  listener := safe.listener
  greeted := fun started => since_append _ _ _ _ (safe.greeted started) stays
  loggedIn := fun authenticated => since_append _ _ _ _ (safe.loggedIn authenticated) stays
  secured := by
    intro mode established
    exact List.mem_append_left _ (safe.secured mode established)
  sound := every_event_append _ _ _ safe.sound passes

theorem reset_session_safe (safe : FlagsSafe mode session) :
    SessionSafe mode session.resetEnvelope := by
  have shut : ¬session.resetEnvelope.isOpen := by
    simp only [Session.isOpen, Session.resetEnvelope, Session.record]
    split
    case isTrue => simp
    case isFalse shut => exact shut
  have flags := record_flags_safe session .envelopeReset safe (by simp) trivial
  refine ⟨⟨flags.listener, ?_, flags.loggedIn, flags.secured, flags.sound⟩, fun opened =>
    absurd opened shut,
    fun opened => absurd opened shut⟩
  intro started
  apply flags.greeted
  intro fresh
  have fresh : session.st = .init := fresh
  exact started (by simp [Session.resetEnvelope, Session.record, fresh])

theorem greet_session_safe (name : Bytes) (isEHLO : Bool)
    (safe : SessionSafe mode session) : SessionSafe mode (session.greet name isEHLO) := by
  apply reset_session_safe
  exact
    { listener := safe.listener
      greeted := fun _ => since_opened _ _ _ _ rfl
      loggedIn := fun authenticated =>
        since_append _ _ _ _ (safe.loggedIn authenticated) (by simp)
      secured := fun mode established => List.mem_append_left _ (safe.secured mode established)
      sound := every_event_append _ _ _ safe.sound trivial }

theorem starttls_session_safe (session : Session)
    (safe : SessionSafe mode session) : SessionSafe mode (session.cmdSTARTTLS outside rest).1 := by
  have replied (text : Bytes) : SessionSafe mode (session.answer text) :=
    reply_session_safe session _ safe
  unfold Session.cmdSTARTTLS
  split_ifs
  · exact replied _
  · exact replied _
  · exact replied _
  · exact replied _
  · dsimp only
    split
    · apply reset_session_safe
      exact
        { listener := safe.listener
          greeted := fun started => absurd rfl started
          loggedIn := nofun
          secured := fun _ _ => List.mem_append_right _ (by simp)
          sound := every_event_append _ _ _ safe.sound trivial }
    · exact replied _

theorem login_session_safe (principal : Nat) (name : Bytes)
    (loggedOut : session.authenticated = false) (submits : mode.isSubmission = true)
    (safe : SessionSafe mode session) : SessionSafe mode (session.login principal name) := by
  have shut : ¬session.isOpen := by
    intro opened
    have admitted := (safe.admitted opened).1 submits
    rw [loggedOut] at admitted
    cases admitted
  exact
    { listener := safe.listener
      greeted := fun started => since_append _ _ _ _ (safe.greeted started) (by simp)
      loggedIn := fun _ => since_opened _ _ _ _ trivial
      secured := fun mode established => List.mem_append_left _ (safe.secured mode established)
      sound := every_event_append _ _ _ safe.sound trivial
      inTransaction := fun opened => absurd opened shut
      admitted := fun opened => absurd opened shut }

theorem auth_session_safe (session : Session) (safe : SessionSafe mode session) :
    SessionSafe mode (session.cmdAUTH options outside rest).1 := by
  have replied (replies : List Reply) : SessionSafe mode { session with replies } :=
    reply_session_safe session replies safe
  unfold Session.cmdAUTH
  split
  · exact replied _
  rename_i submits
  split
  · exact replied _
  split
  · exact replied _
  rename_i loggedOut
  split
  · exact replied _
  dsimp only
  split
  · exact replied _
  split
  · exact replied _
  split
  · exact replied _
  · exact replied _
  split
  · exact replied _
  split
  · exact replied _
  have fresh : session.authenticated = false := by simpa using loggedOut
  have submission : mode.isSubmission = true := by
    rw [safe.listener] at submits
    cases mode with
    | relayIn => exact absurd rfl submits
    | submissionSTARTTLS | submissionImplicitTLS => rfl
  apply reply_session_safe
  exact login_session_safe _ _ _ fresh submission (replied _)

theorem argument_session_safe (usage : Bytes) (error : ArgumentError) (session : Session)
    (safe : SessionSafe mode session) : SessionSafe mode (session.argumentError usage error) := by
  cases error with
  | syntaxError => exact reply_session_safe session _ safe
  | path error => exact reply_session_safe session _ safe
  | parameter error => exact reply_session_safe session _ safe

theorem mail_session_safe (session : Session)
    (safe : SessionSafe mode session) : SessionSafe mode (session.cmdMAIL options rest) := by
  have replied (text : Bytes) : SessionSafe mode (session.answer text) :=
    reply_session_safe session _ safe
  unfold Session.cmdMAIL
  split
  · exact replied _
  rename_i started
  split
  · exact replied _
  rename_i secure
  split
  · exact replied _
  rename_i known
  split
  · exact argument_session_safe _ _ session safe
  split
  · exact replied _
  rename_i addr params _ _
  apply reply_session_safe
  have clean := reset_session_safe session safe.toFlagsSafe
  have greeted : Greeted session.resetEnvelope.log :=
    since_append _ _ _ _ (safe.greeted started) (by simp)
  rw [safe.listener] at secure known
  have authenticated (submits : mode.isSubmission = true) : session.authenticated = true := by
    by_contra unknown
    exact known ⟨submits, by simpa using unknown⟩
  have established (upgrades : mode = .submissionSTARTTLS) : session.tlsEstablished = true := by
    by_contra plain
    exact secure ⟨upgrades, by simpa using plain⟩
  exact
    { listener := safe.listener
      greeted := fun _ => since_append _ _ _ _ greeted (by simp)
      loggedIn := fun authenticated =>
        since_append _ _ _ _ (clean.loggedIn authenticated) (by simp)
      secured := fun mode established => List.mem_append_left _ (clean.secured mode established)
      sound := every_event_append _ _ _ clean.sound trivial
      inTransaction := fun _ => ⟨session.resetEnvelope.log, [], rfl, greeted, by simp, rfl, nofun⟩
      admitted := fun _ => ⟨authenticated, established⟩ }

/-- A step inside the transaction: one more event of it, with the envelope to
match. -/
theorem inside_session_safe (event : SessionEvent) (envelope : Envelope)
    (state : SessionState) (files : List Nat) (nextFile : Nat) (opened : session.isOpen)
    (inside : event.isInside = true)
    (sender : envelope.mailFrom = session.envelope.mailFrom)
    (params : envelope.mailFromParams = session.envelope.mailFromParams)
    (rcpts : envelope.rcpts = session.envelope.rcpts ++ acceptedRcpts [event])
    (body : ∀ since, (∀ bytes ∈ session.envelope.spill.map Spill.content, bytes = openBody since) →
      ∀ bytes ∈ envelope.spill.map Spill.content, bytes = openBody (since ++ [event]))
    (safe : SessionSafe mode session) :
    SessionSafe mode (Session.record { session with envelope, st := state, files, nextFile }
      event) := by
  have stays : event ≠ .secured := by
    rintro rfl
    cases inside
  have passes : finishCheck mode session.log event := by
    cases event with
    | finished message => cases inside
    | greeted | secured | authenticated _ | mailAccepted _ _ | rcptAccepted _ | spillCreated
    | bodyWritten _ | envelopeReset => trivial
  have started : session.st ≠ .init := by
    rcases opened with envelope | recipients
    · simp [envelope]
    · simp [recipients]
  have flags := record_flags_safe session event safe.toFlagsSafe stays passes
  refine ⟨⟨flags.listener, fun _ => flags.greeted started, flags.loggedIn, flags.secured,
    flags.sound⟩, ?_,
    fun _ => safe.admitted opened⟩
  intro _
  obtain ⟨earlier, since, log, greeted, within, accepted, written⟩ := safe.inTransaction opened
  refine ⟨earlier, since ++ [event], ?_, greeted, ?_, ?_, body since written⟩
  · show session.log ++ [event] = _
    rw [log]
    show _ = earlier ++ SessionEvent.mailAccepted envelope.mailFrom envelope.mailFromParams :: _
    rw [sender, params]
    simp
  · intro other member
    rw [List.mem_append, List.mem_singleton] at member
    rcases member with before | rfl
    · exact within other before
    · exact inside
  · show envelope.rcpts = _
    rw [rcpts, accepted]
    simp [acceptedRcpts]

theorem rcpt_session_safe (session : Session) (safe : SessionSafe mode session) :
    SessionSafe mode (session.cmdRCPT options outside rest) := by
  have replied (text : Bytes) : SessionSafe mode (session.answer text) :=
    reply_session_safe session _ safe
  unfold Session.cmdRCPT
  split
  · exact replied _
  rename_i refused
  split
  · exact replied _
  split
  · exact argument_session_safe _ _ session safe
  split
  · exact replied _
  split
  · exact replied _
  split
  · exact replied _
  have opened : session.isOpen := by
    unfold Session.isOpen
    by_contra shut
    exact refused (not_or.mp shut)
  apply reply_session_safe
  refine inside_session_safe session _ _ _ session.files session.nextFile opened ?_ ?_ ?_ ?_ ?_ safe
  · rfl
  · rfl
  · rfl
  · rfl
  · intro since written bytes member
    rw [written bytes member]
    simp [openBody]

theorem open_spill_session_safe (opened : session.isOpen)
    (safe : SessionSafe mode session) : SessionSafe mode session.openSpill := by
  refine inside_session_safe session _ _ session.st _ _ opened ?_ ?_ ?_ ?_ ?_ safe
  · rfl
  · rfl
  · rfl
  · simp [acceptedRcpts]
  · intro since _ bytes member
    simp only [Option.map_some, Option.mem_some_iff] at member
    simp [openBody, ← member]

theorem write_spill_session_safe (bytes : Bytes) (opened : session.isOpen)
    (safe : SessionSafe mode session) : SessionSafe mode (session.writeSpill bytes) := by
  refine inside_session_safe session _ _ session.st session.files session.nextFile opened
    ?_ ?_ ?_ ?_ ?_ safe
  · rfl
  · rfl
  · rfl
  · simp [acceptedRcpts]
  · intro since written stored member
    cases spill : session.envelope.spill with
    | none => simp [spill] at member
    | some file =>
      simp only [spill, Option.map_some, Option.mem_some_iff] at member
      have before := written file.content (by simp [spill])
      rw [← member, before]
      simp [openBody]

theorem sized_session_safe (spillSize : Int) (safe : SessionSafe mode session) :
    SessionSafe mode { session with envelope := { session.envelope with spillSize } } where
  listener := safe.listener
  greeted := safe.greeted
  loggedIn := safe.loggedIn
  secured := safe.secured
  sound := safe.sound
  inTransaction := safe.inTransaction
  admitted := safe.admitted

theorem finish_session_safe (opened : session.isOpen)
    (rcpts : session.envelope.rcpts ≠ []) (spilled : session.envelope.spill.isSome = true)
    (safe : SessionSafe mode session) : SessionSafe mode (session.finishMessage outside) := by
  obtain ⟨spill, held⟩ := Option.isSome_iff_exists.mp spilled
  have transaction := safe.inTransaction opened
  obtain ⟨authenticated, established⟩ := safe.admitted opened
  apply reset_session_safe
  apply reply_flags_safe
  apply record_flags_safe session _ safe.toFlagsSafe (by simp)
  refine ⟨?_, rcpts, ?_, ?_⟩
  · simpa [held] using transaction
  · intro submits
    exact ⟨authenticated submits, safe.loggedIn (authenticated submits)⟩
  · intro mode
    exact ⟨established mode, safe.secured mode (established mode)⟩

theorem data_session_safe (safe : SessionSafe mode session) :
    SessionSafe mode (session.cmdDATA options outside).1 := by
  unfold Session.cmdDATA
  split
  · exact reply_session_safe session _ safe
  rename_i ready
  rw [not_or, not_not] at ready
  obtain ⟨state, rcpts⟩ := ready
  dsimp only
  let asked := session.answer (ascii "354 end data with <CR><LF>.<CR><LF>")
  have askedSafe : SessionSafe mode asked := reply_session_safe session _ safe
  have opened : asked.isOpen := Or.inr state
  have spilled := open_spill_session_safe asked opened askedSafe
  -- every failure is a reset, with or without a reply before it
  have rejected (text : Bytes) : SessionSafe mode ((asked.openSpill.answer text).resetEnvelope) :=
    reset_session_safe _ (reply_flags_safe _ _ spilled.toFlagsSafe)
  split
  · exact askedSafe
  split
  · exact reset_session_safe _ (reply_flags_safe _ _ askedSafe.toFlagsSafe)
  split
  · exact rejected _
  · split
    · exact reset_session_safe _ spilled.toFlagsSafe
    · exact rejected _
  · exact rejected _
  · rename_i content _ _
    have written := write_spill_session_safe asked.openSpill content opened spilled
    have sized := sized_session_safe _ content.length written
    split
    · exact reset_session_safe _ (reply_flags_safe _ _ sized.toFlagsSafe)
    · exact finish_session_safe outside _ opened rcpts rfl sized

theorem chunk_session_safe (size : Nat) (last : Bool)
    (session : Session) (opened : session.isOpen) (rcpts : session.envelope.rcpts ≠ [])
    (spilled : session.envelope.spill.isSome = true) (safe : SessionSafe mode session) :
    SessionSafe mode (session.receiveChunk options outside size last).1 := by
  unfold Session.receiveChunk
  split
  · exact reset_session_safe _ (reply_flags_safe _ _ safe.toFlagsSafe)
  dsimp only
  have written := write_spill_session_safe session
    (outside.incoming.take (min size outside.room)) opened safe
  have sized := sized_session_safe _
    (Session.wrap64 (session.envelope.spillSize +
      (outside.incoming.take (min size outside.room)).length)) written
  split
  · exact reset_session_safe _ sized.toFlagsSafe
  split
  · exact reply_session_safe _ _ sized
  split
  · exact reset_session_safe _ (reply_flags_safe _ _ sized.toFlagsSafe)
  · refine finish_session_safe outside _ opened rcpts ?_ sized
    simpa [Session.writeSpill, Session.record] using spilled

theorem bdat_session_safe (session : Session) (safe : SessionSafe mode session) :
    SessionSafe mode (session.cmdBDAT options outside rest).1 := by
  have replied (text : Bytes) : SessionSafe mode (session.answer text) :=
    reply_session_safe session _ safe
  unfold Session.cmdBDAT
  split
  · exact replied _
  rename_i ready
  rw [not_or, not_not] at ready
  obtain ⟨state, rcpts⟩ := ready
  have opened : session.isOpen := Or.inr state
  split
  · exact replied _
  split
  · exact replied _
  split
  · exact replied _
  dsimp only
  split
  · exact reset_session_safe _ (reply_flags_safe _ _ safe.toFlagsSafe)
  split
  case isTrue =>
    exact chunk_session_safe options outside _ _ _ opened rcpts rfl
      (open_spill_session_safe session opened safe)
  case isFalse present =>
    exact chunk_session_safe options outside _ _ _ opened rcpts (Option.isSome_iff_ne_none.mpr
      (by simpa using present)) safe

theorem multi_session_safe (heading : Bytes) (lines : List Bytes) (session : Session)
    (safe : SessionSafe mode session) : SessionSafe mode (session.replyMulti heading lines) := by
  have each (before : List Bytes) (start : Session) (startSafe : SessionSafe mode start) :
      SessionSafe mode (before.foldl (fun session line => session.answer (ascii "250-" ++ line))
        start) := by
    induction before generalizing start with
    | nil => exact startSafe
    | cons line before ih => exact ih _ (reply_session_safe start _ startSafe)
  unfold Session.replyMulti
  split
  · exact reply_session_safe session _ safe
  · exact reply_session_safe _ _ (each _ _ (reply_session_safe session _ safe))

theorem dispatch_session_safe (verb : Session.Verb)
    (rest : Bytes) (session : Session) (safe : SessionSafe mode session) :
    SessionSafe mode (session.dispatch options outside verb rest).1 := by
  have replied (text : Bytes) : SessionSafe mode (session.answer text) :=
    reply_session_safe session _ safe
  cases verb with
  | helo =>
    simp only [Session.dispatch, Session.cmdHELO]
    split
    · exact replied _
    · exact reply_session_safe _ _ (greet_session_safe session _ _ safe)
  | ehlo =>
    simp only [Session.dispatch, Session.cmdEHLO]
    split
    · exact replied _
    · exact multi_session_safe _ _ _ (greet_session_safe session _ _ safe)
  | starttls => exact starttls_session_safe outside rest session safe
  | auth => exact auth_session_safe options outside rest session safe
  | mail => exact mail_session_safe options rest session safe
  | rcpt => exact rcpt_session_safe options outside rest session safe
  | data => exact data_session_safe options outside session safe
  | bdat => exact bdat_session_safe options outside rest session safe
  | rset => exact reply_session_safe _ _ (reset_session_safe session safe.toFlagsSafe)
  | noop | quit | vrfy | expn | help | unrecognised => exact replied _

theorem loop_session_safe (commandCount : Nat) (closed : Bool)
    (safe : SessionSafe mode session) : SessionSafe mode { session with commandCount, closed } where
  listener := safe.listener
  greeted := safe.greeted
  loggedIn := safe.loggedIn
  secured := safe.secured
  sound := safe.sound
  inTransaction := safe.inTransaction
  admitted := safe.admitted

theorem step_session_safe (input : Session.Input) (next : Session) (safe : SessionSafe mode session)
    (ran : (sessionMachine options).step session input = some next) : SessionSafe mode next := by
  have ran : session.step options input = some next := ran
  have counted := loop_session_safe session (session.commandCount + 1) session.closed safe
  have closes (base : Session) (text : Bytes) (baseSafe : SessionSafe mode base) :
      SessionSafe mode (base.closeWith text) :=
    loop_session_safe _ base.commandCount true (reply_session_safe base _ baseSafe)
  unfold Session.step at ran
  split at ran
  · cases ran
  split at ran
  · cases ran
    exact closes session _ safe
  dsimp only at ran
  split at ran
  · cases ran
    exact closes _ _ counted
  split at ran
  · cases ran
    exact counted
  · cases ran
    exact loop_session_safe _ _ _ (dispatch_session_safe options _ _ _ _ counted)
  · cases ran
    exact closes _ _ counted
  · cases ran
    exact closes _ _ counted
  · cases ran
    exact loop_session_safe session _ true safe

end

end

/-- In every session, whatever the client sends and whatever the server's
surroundings answer, each finished message is the message of the transaction
open then. -/
theorem messages_finish_in_their_transaction (options : ServerOptions) (mode : ListenerMode)
    (allowPlainAuth : Bool) (implicit : Option Bytes) (inputs : List Session.Input)
    (final : Session)
    (ran : (sessionMachine options).execute (Session.accept mode allowPlainAuth implicit) inputs =
      some final) : FinishesInTransaction mode final.log := by
  have safe := (sessionMachine options).execute_keeps (SessionSafe mode)
    (step_session_safe options) inputs
    (Session.accept mode allowPlainAuth implicit) final
    (accept_session_safe mode allowPlainAuth implicit) ran
  exact safe.sound

def submissionServer : ServerOptions where
  hostname := ascii "mx"

def oneSubmission : List Session.Input :=
  [.line (ascii "EHLO c") {}, .line (ascii "STARTTLS") { handshake := some [1] },
    .line (ascii "EHLO c") {},
    .line (ascii "AUTH PLAIN AGEAYg==") { sasl := { start := .ok ([], true), principal := some 7 } },
    .line (ascii "MAIL FROM:<old@x>") {}, .line (ascii "RCPT TO:<o@y>") {}, .line (ascii "RSET") {},
    .line (ascii "MAIL FROM:<a@x>") {}, .line (ascii "RCPT TO:<b@y>") {},
    .line (ascii "DATA") { incoming := ascii "hi" ++ crlf ++ ascii "." ++ crlf }]

def submittedMessage : Submitted where
  authenticated := true
  tlsEstablished := true
  mailFrom := ascii "a@x"
  mailFromParams := {}
  rcpts := [{ addr := ascii "b@y", localPart := ascii "b", domain := ascii "y",
              decisionSource := ascii "submission_outbound" }]
  body := ascii "hi" ++ crlf

theorem messages_finish_in_their_transaction_of_one_submission :
    ∃ final, (sessionMachine submissionServer).execute
        (Session.accept .submissionSTARTTLS false none) oneSubmission = some final ∧
      .finished submittedMessage ∈ final.log ∧
      FinishesInTransaction .submissionSTARTTLS final.log := by
  have finished : ((sessionMachine submissionServer).execute
      (Session.accept .submissionSTARTTLS false none) oneSubmission).any (fun final =>
        SessionEvent.finished submittedMessage ∈ final.log) = true := by
    decide +kernel
  obtain ⟨final, ran, member⟩ := (Option.any_eq_true _ _).mp finished
  exact ⟨final, ran, of_decide_eq_true member,
    messages_finish_in_their_transaction submissionServer .submissionSTARTTLS false none
      oneSubmission final ran⟩

end Herold.Smtp

import Herold.Imap.CommandLine

/-!
# Replies under a deadline

`dispatch` runs the handler of a command under a deadline. When the handler has
returned, a deferred function looks whether the deadline has passed by then, and if
so writes a tagged `NO [INUSE]` and drops the error of the handler. What a handler
does until it returns is a list of moments: the lines it writes, and between them
the moments at which the deadline passes or the context of the session is
cancelled.
-/

namespace Herold.Imap

open Herold.Go

inductive ReplyStatus where
  | ok
  | no
  | bad
  deriving DecidableEq

inductive ReplyLine where
  | tagged (tag : Bytes) (status : ReplyStatus) (code text : Bytes)
  | other (text : Bytes)
  deriving DecidableEq

inductive Moment where
  | writes (line : ReplyLine)
  | deadline
  | cancelled
  deriving DecidableEq

inductive ContextError where
  | canceled
  | deadlineExceeded
  deriving DecidableEq

structure DeadlineOptions where
  defaultCommandDeadline : Int
  commandDeadlines : List (Bytes × Int)
  maxCommandsPerSession : Int
  deriving DecidableEq

structure Handling where
  tag : Bytes
  op : Bytes
  bypassDeadline : Bool
  moments : List Moment
  failure : Option Bytes
  logsOut : Bool
  deriving DecidableEq

structure ReplySession where
  log : List ReplyLine := []
  cmdCount : Nat := 0
  cancelled : Bool := false
  ended : Bool := false
  deriving DecidableEq

def commandLabels : List Bytes :=
  ["CAPABILITY", "NOOP", "LOGOUT", "ID", "ENABLE", "NAMESPACE", "STARTTLS", "AUTHENTICATE", "LOGIN",
    "SELECT", "EXAMINE", "UNSELECT", "CLOSE", "CHECK", "CREATE", "DELETE", "RENAME", "SUBSCRIBE",
    "UNSUBSCRIBE", "LIST", "LSUB", "STATUS", "APPEND", "FETCH", "STORE", "SEARCH", "EXPUNGE", "IDLE",
    "SETACL", "DELETEACL", "GETACL", "MYRIGHTS", "LISTRIGHTS", "MOVE", "COPY", "NOTIFY",
    "COMPRESS"].map ascii

def imapCommandLabel (op : Bytes) : Bytes :=
  if commandLabels.contains op then op else ascii "unknown"

def applyCommandDeadline (options : DeadlineOptions) (bypassDeadline : Bool) (label : Bytes) :
    Option Int :=
  if bypassDeadline then none
  else
    let override := ((options.commandDeadlines.find? fun entry => entry.1 = label).map Prod.snd).getD 0
    let deadline := if 0 < override then override else options.defaultCommandDeadline
    if deadline ≤ 0 then none else some deadline

/-- `ctx.Err()` after the moments: the first cause stays. -/
def contextError (enforced : Bool) : List Moment → Option ContextError
  | [] => none
  | .writes _ :: moments => contextError enforced moments
  | .deadline :: moments =>
    if enforced then some .deadlineExceeded else contextError enforced moments
  | .cancelled :: _ => some .canceled

def handlerLines (moments : List Moment) : List ReplyLine :=
  moments.filterMap fun moment =>
    match moment with
    | .writes line => some line
    | _ => none

/-- Whether a deadline is set for the command. A context that is done already stays
as it is. -/
def deadlineSet (options : DeadlineOptions) (session : ReplySession) (handling : Handling) : Bool :=
  (applyCommandDeadline options handling.bypassDeadline (imapCommandLabel handling.op)).isSome &&
    !session.cancelled

def deadlineReply (tag : Bytes) : ReplyLine :=
  .tagged tag .no (ascii "INUSE") (ascii "deadline exceeded")

/-- `dispatch` under its deadline: the lines written, and the error returned. -/
def dispatchTimed (options : DeadlineOptions) (session : ReplySession) (handling : Handling) :
    List ReplyLine × Option Bytes :=
  let written := handlerLines handling.moments
  if contextError (deadlineSet options session handling) handling.moments = some .deadlineExceeded then
    (written ++ [deadlineReply handling.tag], none)
  else (written, handling.failure)

def errorReply (tag failure : Bytes) : ReplyLine := .tagged tag .bad [] (ascii "error: " ++ failure)

def afterDispatch (session : ReplySession) (handling : Handling)
    (dispatched : List ReplyLine × Option Bytes) : ReplySession :=
  let cancelled := session.cancelled || handling.moments.contains .cancelled
  match dispatched.2 with
  | some failure =>
    { log := session.log ++ dispatched.1 ++ [errorReply handling.tag failure]
      cmdCount := session.cmdCount + 1, cancelled := cancelled, ended := true }
  | none =>
    { log := session.log ++ dispatched.1
      cmdCount := session.cmdCount + 1, cancelled := cancelled, ended := handling.logsOut }

/-- One round of the loop of `run`. -/
def serve (options : DeadlineOptions) (session : ReplySession) (handling : Handling) : ReplySession :=
  if session.ended then session
  else if 0 < options.maxCommandsPerSession ∧ options.maxCommandsPerSession ≤ session.cmdCount then
    { session with
      log := session.log ++ [.other (ascii "* BYE command budget exhausted")]
      ended := true }
  else afterDispatch session handling (dispatchTimed options session handling)

def serveAll (options : DeadlineOptions) : ReplySession → List Handling → ReplySession
  | session, [] => session
  | session, handling :: handlings => serveAll options (serve options session handling) handlings

def isReplyTo (tag : Bytes) : ReplyLine → Bool
  | .tagged other _ _ _ => other = tag
  | .other _ => false

def replies (tag : Bytes) (lines : List ReplyLine) : Nat := lines.countP (isReplyTo tag)

/-- The deadline passes before the handler returns, and the session is not cancelled
before that. -/
def Expires (options : DeadlineOptions) (session : ReplySession) (handling : Handling) : Prop :=
  deadlineSet options session handling = true ∧
    ∃ before after, handling.moments = before ++ .deadline :: after ∧ .cancelled ∉ before

theorem context_error_expired (moments : List Moment) :
    contextError true moments = some .deadlineExceeded ↔
      ∃ before after, moments = before ++ .deadline :: after ∧ .cancelled ∉ before := by
  induction moments with
  | nil => simp [contextError]
  | cons moment moments ih =>
    cases moment with
    | writes line =>
      rw [contextError, ih]
      constructor
      · rintro ⟨before, after, rfl, clear⟩
        exact ⟨.writes line :: before, after, rfl, by simp [clear]⟩
      · rintro ⟨before, after, split, clear⟩
        cases before with
        | nil => simp at split
        | cons first before =>
          rw [List.cons_append, List.cons.injEq] at split
          exact ⟨before, after, split.2, fun inside => clear (by simp [inside])⟩
    | deadline =>
      simp only [contextError, if_true, true_iff]
      exact ⟨[], moments, rfl, by simp⟩
    | cancelled =>
      simp only [contextError, Option.some.injEq, reduceCtorEq, false_iff]
      rintro ⟨before, after, split, clear⟩
      cases before with
      | nil => simp at split
      | cons first before =>
        rw [List.cons_append, List.cons.injEq] at split
        exact clear (by simp [← split.1])

theorem context_error_unset (moments : List Moment) :
    contextError false moments ≠ some .deadlineExceeded := by
  induction moments with
  | nil => simp [contextError]
  | cons moment moments ih =>
    cases moment with
    | writes line => exact ih
    | deadline => exact ih
    | cancelled => simp [contextError]

section

variable (options : DeadlineOptions) (session : ReplySession) (handling : Handling)

theorem expired_iff :
    contextError (deadlineSet options session handling) handling.moments = some .deadlineExceeded ↔
      Expires options session handling := by
  unfold Expires
  cases deadlineSet options session handling with
  | true => simp [context_error_expired]
  | false => simp [context_error_unset]

/-- What `dispatch` adds to the replies of the handler. -/
theorem dispatch_replies_expired (expired : Expires options session handling) :
    replies handling.tag (dispatchTimed options session handling).1 =
      replies handling.tag (handlerLines handling.moments) + 1 := by
  unfold dispatchTimed
  rw [if_pos ((expired_iff options session handling).mpr expired)]
  simp [replies, deadlineReply, isReplyTo]

theorem dispatch_replies_in_time (inTime : ¬ Expires options session handling) :
    replies handling.tag (dispatchTimed options session handling).1 =
      replies handling.tag (handlerLines handling.moments) := by
  unfold dispatchTimed
  rw [if_neg (fun expired => inTime ((expired_iff options session handling).mp expired))]

theorem serve_all_append (before : List Handling) (handling : Handling) :
    serveAll options session (before ++ [handling]) =
      serve options (serveAll options session before) handling := by
  induction before generalizing session with
  | nil => rfl
  | cons first before ih => exact ih (serve options session first)

/-- A session that stays open has written what `dispatch` writes. -/
theorem serve_open (stays : (serve options session handling).ended = false) :
    (serve options session handling).log = session.log ++
      (dispatchTimed options session handling).1 := by
  unfold serve at stays ⊢
  by_cases ended : session.ended = true
  · rw [if_pos ended] at stays
    simp [ended] at stays
  · rw [if_neg ended] at stays ⊢
    split_ifs at stays ⊢ with budget
    cases failed : (dispatchTimed options session handling).2 with
    | some failure => simp [afterDispatch, failed] at stays
    | none => simp [afterDispatch, failed]

/-- The replies to each command of a session: exactly one is written while the session
stays open when the handler replies once and returns in time, or does not reply and
the deadline passes before it returns. -/
theorem replied_once_iff (options : DeadlineOptions) (start : ReplySession) (before : List Handling)
    (handling : Handling)
    (stays : (serveAll options start (before ++ [handling])).ended = false) :
    ∃ lines, (serveAll options start (before ++ [handling])).log =
        (serveAll options start before).log ++ lines ∧
      (replies handling.tag lines = 1 ↔
        (replies handling.tag (handlerLines handling.moments) = 1 ∧
            ¬ Expires options (serveAll options start before) handling) ∨
          (replies handling.tag (handlerLines handling.moments) = 0 ∧
            Expires options (serveAll options start before) handling)) := by
  rw [serve_all_append] at stays ⊢
  generalize serveAll options start before = session at stays ⊢
  refine ⟨(dispatchTimed options session handling).1, serve_open options session handling stays, ?_⟩
  by_cases expired : Expires options session handling
  · rw [dispatch_replies_expired options session handling expired]
    simp only [expired, not_true, and_false, false_or, and_true]
    omega
  · rw [dispatch_replies_in_time options session handling expired]
    simp only [expired, not_false_eq_true, and_true, and_false, or_false]

end

def lateNoop : Handling where
  tag := ascii "a1"
  op := ascii "NOOP"
  bypassDeadline := false
  moments := [.writes (.tagged (ascii "a1") .ok [] (ascii "NOOP completed")), .deadline]
  failure := none
  logsOut := false

def promptNoop : Handling :=
  { lateNoop with moments := [.writes (.tagged (ascii "a1") .ok [] (ascii "NOOP completed"))] }

def oneSecond : DeadlineOptions where
  defaultCommandDeadline := 1000000000
  commandDeadlines := []
  maxCommandsPerSession := 0

theorem prompt_noop_replied_once :
    (serveAll oneSecond {} ([lateNoop] ++ [promptNoop])).ended = false ∧
      ∃ lines, (serveAll oneSecond {} ([lateNoop] ++ [promptNoop])).log =
          (serveAll oneSecond {} [lateNoop]).log ++ lines ∧
        (replies promptNoop.tag lines = 1 ↔
          (replies promptNoop.tag (handlerLines promptNoop.moments) = 1 ∧
              ¬ Expires oneSecond (serveAll oneSecond {} [lateNoop]) promptNoop) ∨
            (replies promptNoop.tag (handlerLines promptNoop.moments) = 0 ∧
              Expires oneSecond (serveAll oneSecond {} [lateNoop]) promptNoop)) :=
  ⟨by decide, replied_once_iff oneSecond {} [lateNoop] promptNoop (by decide)⟩

/-- The late reply is followed by a second one, and the session goes on. -/
theorem late_noop_replied_twice :
    ¬ ∀ (options : DeadlineOptions) (start : ReplySession) (before : List Handling) (handling : Handling),
      (serveAll options start (before ++ [handling])).ended = false →
        ∃ lines, (serveAll options start (before ++ [handling])).log =
            (serveAll options start before).log ++ lines ∧ replies handling.tag lines = 1 := by
  intro once
  obtain ⟨lines, written, single⟩ := once oneSecond {} [] lateNoop (by decide)
  have same : lines = (serveAll oneSecond {} [lateNoop]).log := by
    simpa [serveAll] using written.symm
  rw [same] at single
  revert single
  decide

end Herold.Imap

import Herold.Go.Decimal
import Herold.Go.Strings
import Herold.Machine.Run

/-!
# Deciding a held post

A post held for moderation is one row. Any number of calls approve, reject or
discard it at the same time; each runs one store operation after the other and
may stop for good between two of them. Time, the answers of the store and what
the list's roster and settings are at each read come from outside.
-/

namespace Herold.Maillist

open Herold.Go Herold.Machine

inductive HeldPostStatus where
  | pending
  | approving
  | approved
  | rejected
  | discarded
  deriving DecidableEq

def HeldPostStatus.isTerminal : HeldPostStatus → Bool
  | pending | approving => false
  | approved | rejected | discarded => true

structure HeldPost where
  status : HeldPostStatus := .pending
  decidedAt : Option Int := none
  decidedBy : Option Nat := none
  decisionNote : Bytes := []
  archivedAt : Option Int := none
  deriving DecidableEq

def heldPostApprovalLeaseTTL : Int := 5 * 60 * 1000000

/-- The update of `ClaimMailingListHeldPostForApproval`, unless it affects no row. -/
def claimHeldPostForApproval (decidedBy : Nat) (now : Int) (row : HeldPost) : Option HeldPost :=
  if row.status = .pending ∨
      row.status = .approving ∧ row.decidedAt.any (· < now - heldPostApprovalLeaseTTL) = true then
    some { row with status := .approving, decidedAt := some now, decidedBy := some decidedBy }
  else none

/-- The update of `FinalizeMailingListHeldPostApproval`. -/
def finalizeHeldPostApproval (row : HeldPost) : Option HeldPost :=
  if row.status = .approving then some { row with status := .approved } else none

inductive Disposal where
  | rejected
  | discarded
  deriving DecidableEq

def Disposal.status : Disposal → HeldPostStatus
  | rejected => .rejected
  | discarded => .discarded

def decideHeldPost (disposal : Disposal) (decidedBy : Nat) (note : Bytes) (now : Int)
    (row : HeldPost) : Option HeldPost :=
  if row.status = .pending then
    some { row with
      status := disposal.status
      decidedAt := some now
      decidedBy := some decidedBy
      decisionNote := note }
  else none

/-- The update of `ClaimMailingListHeldPostArchive`. -/
def claimHeldPostArchive (now : Int) (row : HeldPost) : Option HeldPost :=
  if row.archivedAt = none then some { row with archivedAt := some now } else none

structure Member where
  id : Nat
  address : Bytes
  deriving DecidableEq

structure QueuedCopy where
  member : Nat
  recipient : Bytes
  body : Bytes
  idempotencyKey : Bytes
  deriving DecidableEq

def heldPostIdempotencyPrefix (id : Nat) : Bytes := ascii "mlist-held-" ++ decimal id

def memberIdempotencyKey (id member : Nat) : Bytes :=
  heldPostIdempotencyPrefix id ++ ascii "-member-" ++ decimal member

/-- `Submit` with an idempotency key: a key already used adds nothing. -/
def queueSubmit (queue : List QueuedCopy) (copy : QueuedCopy) : List QueuedCopy :=
  if queue.any fun other => other.idempotencyKey = copy.idempotencyKey then queue
  else queue ++ [copy]

/-- What the calls share. `released` counts the releases of the post's own
reference to its blob. -/
structure HeldStore where
  row : HeldPost := {}
  released : Nat := 0
  queue : List QueuedCopy := []
  archive : List Bytes := []
  deriving DecidableEq

/-- Where a call of `ApproveHeldPost`, `RejectHeldPost` or `DiscardHeldPost`
stands: the store operation it makes next. -/
inductive Call where
  | claiming (approver : Nat)
  | claimed
  | gettingList
  | readingBlob (archiveMailboxID : Option Nat)
  /-- `fileArchive`, with the latch to take. -/
  | claimingArchive (shaped : Bytes)
  | puttingArchive (shaped : Bytes)
  | filingArchive (shaped : Bytes)
  /-- `StreamActiveEachMembers`, at the next page of the roster. -/
  | paging (shaped : Bytes)
  | sending (shaped : Bytes) (members : List Member) (lastPage : Bool)
  | finalizing
  | rereading
  | gettingPost (disposal : Disposal) (actor : Nat) (note : Bytes)
  | gettingPostList (disposal : Disposal) (actor : Nat) (note : Bytes)
  | deciding (disposal : Disposal) (actor : Nat) (note : Bytes)
  | ended
  deriving DecidableEq

structure Answer where
  now : Int
  /-- The operation, or what the call makes of its result, is an error. -/
  fails : Bool := false
  archiveMailboxID : Option Nat := none
  shaped : Bytes := []
  page : List Member := []
  deriving DecidableEq

def maillistStreamPageSize : Nat := 500

/-- The next store operation of a call. The id of a held post is never zero, so
the latch and the keys are used throughout. -/
def Call.advance (id : Nat) (answer : Answer) (store : HeldStore) : Call → HeldStore × Call
  | claiming approver =>
    if answer.fails then (store, ended)
    else match claimHeldPostForApproval approver answer.now store.row with
      | some row => ({ store with row }, claimed)
      | none => (store, ended)
  | claimed => (store, if answer.fails then ended else gettingList)
  | gettingList => (store, if answer.fails then ended else readingBlob answer.archiveMailboxID)
  | readingBlob archive =>
    (store,
      if answer.fails then ended
      else match archive with
        | some _ => claimingArchive answer.shaped
        | none => paging answer.shaped)
  | claimingArchive shaped =>
    if answer.fails then (store, paging shaped)
    else match claimHeldPostArchive answer.now store.row with
      | some row => ({ store with row }, puttingArchive shaped)
      -- another call took the latch, and its copy is counted on
      | none => (store, paging shaped)
  | puttingArchive shaped =>
    (store, if answer.fails then paging shaped else filingArchive shaped)
  | filingArchive shaped =>
    if answer.fails then (store, paging shaped)
    else ({ store with archive := store.archive ++ [shaped] }, paging shaped)
  | paging shaped =>
    (store,
      if answer.fails then ended
      else sending shaped answer.page (answer.page.length < maillistStreamPageSize))
  | sending shaped [] lastPage => (store, if lastPage then finalizing else paging shaped)
  | sending shaped (member :: members) lastPage =>
    -- a member without an address or a token, or whose copy is refused, is skipped
    if answer.fails then (store, sending shaped members lastPage)
    else
      ({ store with
          queue := queueSubmit store.queue
            { member := member.id
              recipient := member.address
              body := shaped
              idempotencyKey := memberIdempotencyKey id member.id } },
        sending shaped members lastPage)
  | finalizing =>
    if answer.fails then (store, ended)
    else match finalizeHeldPostApproval store.row with
      | some row => ({ store with row, released := store.released + 1 }, rereading)
      | none => (store, rereading)
  | rereading => (store, ended)
  | gettingPost disposal actor note =>
    (store, if answer.fails then ended else gettingPostList disposal actor note)
  | gettingPostList disposal actor note =>
    (store, if answer.fails then ended else deciding disposal actor note)
  | deciding disposal actor note =>
    if answer.fails then (store, ended)
    else match decideHeldPost disposal actor note answer.now store.row with
      | some row => ({ store with row, released := store.released + 1 }, rereading)
      | none => (store, ended)
  | ended => (store, ended)

structure Moderation where
  store : HeldStore := {}
  calls : List Call := []
  deriving DecidableEq

inductive Move where
  | approve (approver : Nat)
  | dispose (disposal : Disposal) (actor : Nat) (note : Bytes)
  | advance (call : Nat) (answer : Answer)
  | crash (call : Nat)
  deriving DecidableEq

def Moderation.step (id : Nat) (state : Moderation) : Move → Option Moderation
  | .approve approver => some { state with calls := state.calls ++ [.claiming approver] }
  | .dispose disposal actor note =>
    some { state with calls := state.calls ++ [.gettingPost disposal actor note] }
  | .advance index answer =>
    match state.calls[index]? with
    | none => none
    | some call =>
      let (store, next) := call.advance id answer state.store
      some { store, calls := state.calls.set index next }
  | .crash index =>
    match state.calls[index]? with
    | none => none
    | some _ => some { state with calls := state.calls.set index .ended }

def moderationMachine (id : Nat) : Machine Moderation Move where
  step := Moderation.step id

end Herold.Maillist

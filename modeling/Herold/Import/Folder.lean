import Herold.Machine.Run

/-!
# The sync of one folder

`syncFolder` keeps a low and a high water mark for an upstream folder whose
UIDVALIDITY stays the same. The first pass fetches what the horizon shows; later
passes fetch what a lower horizon shows below the low mark and all that came above
the high mark. What happens to one message on its way into the store is an input.
-/

namespace Herold.Import

open Herold.Machine

structure UpstreamMessage where
  uid : Nat
  date : Nat
  deleted : Bool := false
  deriving DecidableEq

structure Snapshot where
  messages : List UpstreamMessage
  uidNext : Nat
  numbered : ∀ message ∈ messages, 0 < message.uid ∧ message.uid < uidNext
  distinct : messages.Pairwise fun left right => left.uid ≠ right.uid

/-- What `ingestMessage` and the write of the state row come to. A message whose
mapped mailbox differs from the one it was filed in has a divergent row. -/
inductive Verdict where
  | mirrored
  | suppressed
  | unrecorded
  | failed
  deriving DecidableEq

structure Row where
  uid : Nat
  divergent : Bool
  deriving DecidableEq

structure Cursor where
  low : Nat := 0
  high : Nat := 0
  deriving DecidableEq

structure Pass where
  snapshot : Snapshot
  floor : Nat
  verdict : Nat → Verdict
  flagsFetched : Nat → Bool
  removes : Bool
  /-- The migration has begun, and upstream no longer drives removals. -/
  heroldRules : Bool := false
  firstSearchFails : Bool := false
  forwardSearchFails : Bool := false

def upsertRow (rows : List Row) (row : Row) : List Row :=
  rows.filter (fun other => other.uid ≠ row.uid) ++ [row]

/-- `removeMessageStateMembership` on the rows: a divergent row stays. -/
def removeRow (rows : List Row) (uid : Nat) : List Row :=
  rows.filter fun row => row.uid ≠ uid || row.divergent

structure Batch where
  rows : List Row
  lowest : Nat := 0
  minFailed : Nat := 0
  deriving DecidableEq

def lower (mark uid : Nat) : Nat := if mark = 0 ∨ uid < mark then uid else mark

def ingestOne (verdict : Nat → Verdict) (batch : Batch) (message : UpstreamMessage) : Batch :=
  let batch := { batch with lowest := lower batch.lowest message.uid }
  if message.deleted then { batch with rows := removeRow batch.rows message.uid }
  else match verdict message.uid with
    | .mirrored => { batch with rows := upsertRow batch.rows ⟨message.uid, false⟩ }
    | .suppressed => { batch with rows := upsertRow batch.rows ⟨message.uid, true⟩ }
    | .unrecorded => batch
    | .failed => { batch with minFailed := lower batch.minFailed message.uid }

def fetchAndIngest (verdict : Nat → Verdict) (messages : List UpstreamMessage)
    (rows : List Row) : Batch :=
  messages.foldl (ingestOne verdict) { rows }

/-- `UIDSearchSince`. -/
def searchSince (snapshot : Snapshot) (floor : Nat) : List UpstreamMessage :=
  snapshot.messages.filter fun message => floor ≤ message.date

def belowLow (pass : Pass) (cursor : Cursor) : List UpstreamMessage :=
  (searchSince pass.snapshot pass.floor).filter fun message => message.uid < cursor.low

def aboveHigh (pass : Pass) (cursor : Cursor) : List UpstreamMessage :=
  pass.snapshot.messages.filter fun message => cursor.high < message.uid

/-- `downSyncFlags`, as far as it removes rows. -/
def downSync (pass : Pass) (rows : List Row) : List Row :=
  (pass.snapshot.messages.filter fun message => message.deleted && pass.flagsFetched message.uid).foldl
    (fun rows message => removeRow rows message.uid) rows

/-- `reconcileExpungedMessages` on the rows of the folder. -/
def reconcile (pass : Pass) (rows : List Row) : List Row :=
  if pass.removes then
    rows.filter fun row => row.divergent || pass.snapshot.messages.any fun message =>
      message.uid = row.uid
  else rows

/-- The high mark at the end of a pass: before the next UID, and before the first
message that failed. -/
def raisedHigh (uidNext failed high : Nat) : Nat :=
  if 1 < uidNext then
    let target := if 0 < failed ∧ failed - 1 < uidNext - 1 then failed - 1 else uidNext - 1
    max high target
  else high

/-- What the importer keeps about the folder, with what it saw in its last
completed pass. -/
structure Folder where
  cursor : Option Cursor := none
  rows : List Row := []
  floor : Nat
  seen : Snapshot

/-- The rows and the cursor of a pass, or what is left of one that a search ended. -/
inductive Outcome where
  | completed (cursor : Cursor) (rows : List Row)
  | stopped (rows : List Row)

def emptyPass (pass : Pass) (initialised : Bool) (cursor : Cursor) (rows : List Row) : Outcome :=
  .completed ⟨cursor.low, raisedHigh pass.snapshot.uidNext 0 cursor.high⟩
    (if initialised && !pass.heroldRules then reconcile pass rows else rows)

def initialPass (pass : Pass) (initialised : Bool) (cursor : Cursor) (rows : List Row) : Outcome :=
  if pass.firstSearchFails then .stopped rows
  else
    let batch := fetchAndIngest pass.verdict (searchSince pass.snapshot pass.floor) rows
    .completed
      ⟨if batch.lowest = 0 then cursor.low else batch.lowest,
        raisedHigh pass.snapshot.uidNext batch.minFailed cursor.high⟩
      (if initialised && !pass.heroldRules then downSync pass batch.rows else batch.rows)

def extendBackfill (pass : Pass) (cursor : Cursor) (rows : List Row) : Nat × List Row :=
  if cursor.low = 0 then (0, rows)
  else
    let batch := fetchAndIngest pass.verdict (belowLow pass cursor) rows
    (if 0 < batch.lowest ∧ batch.lowest < cursor.low then batch.lowest else cursor.low, batch.rows)

def incrementalPass (pass : Pass) (cursor : Cursor) (rows : List Row) : Outcome :=
  if 0 < cursor.low ∧ pass.firstSearchFails then .stopped rows
  else
    let (low, rows) := extendBackfill pass cursor rows
    if pass.forwardSearchFails then .stopped rows
    else
      let batch := fetchAndIngest pass.verdict (aboveHigh pass cursor) rows
      .completed ⟨low, raisedHigh pass.snapshot.uidNext batch.minFailed cursor.high⟩
        (if pass.heroldRules then batch.rows else reconcile pass (downSync pass batch.rows))

def syncFolder (pass : Pass) (folder : Folder) : Outcome :=
  let cursor := folder.cursor.getD {}
  if pass.snapshot.messages = [] then emptyPass pass folder.cursor.isSome cursor folder.rows
  else if cursor.high = 0 then initialPass pass folder.cursor.isSome cursor folder.rows
  else incrementalPass pass cursor folder.rows

def Folder.after (folder : Folder) (pass : Pass) : Folder :=
  match syncFolder pass folder with
  | .completed cursor rows => ⟨some cursor, rows, pass.floor, pass.snapshot⟩
  | .stopped rows => { folder with rows }

def Folder.low (folder : Folder) : Nat := (folder.cursor.getD {}).low

def Folder.high (folder : Folder) : Nat := (folder.cursor.getD {}).high

def hasRow (rows : List Row) (uid : Nat) : Bool := rows.any fun row => row.uid = uid

def Evolves (old new : Snapshot) : Prop :=
  old.uidNext ≤ new.uidNext ∧ ∀ message ∈ new.messages, message.uid < old.uidNext →
    ∃ earlier ∈ old.messages, earlier.uid = message.uid ∧ earlier.date = message.date

instance (old new : Snapshot) : Decidable (Evolves old new) :=
  inferInstanceAs (Decidable (_ ∧ ∀ message ∈ new.messages, _ → ∃ earlier ∈ old.messages, _))

def Folder.machine : Machine Folder Pass where
  step folder pass :=
    if Evolves folder.seen pass.snapshot ∧ pass.floor ≤ folder.floor then some (folder.after pass)
    else none

end Herold.Import

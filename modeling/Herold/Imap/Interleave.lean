import Herold.Machine.Run
import Herold.Imap.UidExpunge
import Mathlib.Data.Fintype.Basic

/-!
# EXPUNGE beside other sessions

Any number of sessions work on one store. A `STORE` updates its messages one by
one and an `EXPUNGE` first collects identifiers from the session's own list and
then hands them to the store, so other sessions may come in between. The store
removes what it is handed without looking at flags; whether a removed message
was still marked deleted depends on how fresh the list was.
-/

namespace Herold.Imap

open Herold.Go Herold.Store Herold.Machine

inductive Work where
  | ready
  | storing (command : StoreCommand) (seqs : List Nat) (shared : List Bytes)
  | expunging (ids : List MessageID)
  deriving DecidableEq

def Work.ids : Work → List MessageID
  | expunging ids => ids
  | _ => []

structure Floor (Who : Type) where
  store : MailStore
  session : Who → Session
  work : Who → Work
  /-- The rows the store held for the messages `ExpungeMessages` removed. -/
  removed : List MessageMailbox

inductive Action where
  | select (name : Bytes) (readOnly : Bool)
  | unselect
  | beginStore (command : StoreCommand)
  | storeNext
  | beginExpunge (isUID : Bool) (set : Option NumSet)
  | runExpunge

structure Move (Who : Type) where
  who : Who
  faults : Faults
  action : Action

variable {Who : Type} [DecidableEq Who]

def Floor.setSession (floor : Floor Who) (who : Who) (session : Session) : Floor Who :=
  { floor with session := Function.update floor.session who session }

def Floor.setWork (floor : Floor Who) (who : Who) (work : Work) : Floor Who :=
  { floor with work := Function.update floor.work who work }

def Floor.setSelected (floor : Floor Who) (who : Who) (sel : Selected) : Floor Who :=
  floor.setSession who { floor.session who with sel := some sel }

/-- What one message of a `STORE` leaves, with the sequence numbers still to do. -/
def Floor.afterRound (floor : Floor Who) (who : Who) (command : StoreCommand) (seqs : List Nat)
    (shared : List Bytes) : StoreStep → Floor Who
  | .skipped => floor.setWork who (.storing command seqs shared)
  | .applied store sel shared _ =>
    ({ floor with store := store }.setSelected who sel).setWork who (.storing command seqs shared)
  | .rejected store shared _ =>
    { floor with store := store }.setWork who (.storing command seqs shared)
  | .stopped store _ => { floor with store := store }.setWork who .ready

def storeStep (floor : Floor Who) (who : Who) (faults : Faults) (sel : Selected)
    (command : StoreCommand) (seqs : List Nat) (shared : List Bytes) : Floor Who :=
  match seqs with
  | [] => floor.setWork who .ready
  | seq :: seqs =>
    floor.afterRound who command seqs shared
      (storeMessage faults command floor.store sel shared seq)

def expungeStep (floor : Floor Who) (who : Who) (faults : Faults) (sel : Selected)
    (ids : List MessageID) : Floor Who :=
  let expunged := if faults .expungeMessages then .error .failed
    else floor.store.expungeMessages sel.id ids
  match expunged with
  | .error _ => floor.setWork who .ready
  | .ok after =>
    ({ floor with
        store := after
        removed := floor.removed ++ ids.filterMap fun id => floor.store.member? id sel.id }.setSelected
      who (reloaded faults after sel)).setWork who .ready

def floorStep (floor : Floor Who) (move : Move Who) : Option (Floor Who) :=
  let session := floor.session move.who
  match floor.work move.who, move.action, session.sel with
  | .ready, .select name readOnly, _ =>
    some (floor.setSession move.who
      (handleSELECT move.faults floor.store session name readOnly false false).session)
  | .ready, .unselect, some _ =>
    some (floor.setSession move.who (handleUNSELECT floor.store session).session)
  | .ready, .beginStore command, some sel =>
    if requireStoreRights move.faults floor.store session sel command.flags then
      some (floor.setWork move.who
        (.storing command (expandSet sel command.set command.isUID) (initialClear command)))
    else some floor
  | .storing command seqs shared, .storeNext, some sel =>
    some (storeStep floor move.who move.faults sel command seqs shared)
  | .ready, .beginExpunge isUID set, some _ =>
    let outcome := handleEXPUNGE move.faults floor.store session isUID set
    if outcome.handed = [] then some (floor.setSession move.who outcome.session)
    else some (floor.setWork move.who (.expunging outcome.handed))
  | .expunging ids, .runExpunge, some sel =>
    some (expungeStep floor move.who move.faults sel ids)
  | _, _, _ => none

def floorMachine : Machine (Floor Who) (Move Who) where
  step := floorStep

/-- The session's list shows the message as deleted, or the session is about to
expunge it. -/
def Counts (session : Session) (work : Work) (mailbox : MailboxID) (message : MessageID) : Prop :=
  ∃ sel ∈ session.sel, sel.id = mailbox ∧
    ((∃ row ∈ sel.msgs, row.messageID = message ∧ isDeleted row = true) ∨ message ∈ work.ids)

instance (session : Session) (work : Work) (mailbox : MailboxID) (message : MessageID) :
    Decidable (Counts session work mailbox message) := by
  unfold Counts
  infer_instance

structure Round where
  sel : Selected
  command : StoreCommand
  shared : List Bytes
  seq : Nat
  row : MessageMailbox

def nextRound (floor : Floor Who) (move : Move Who) : Option Round :=
  match move.action, floor.work move.who, (floor.session move.who).sel with
  | .storeNext, .storing command (seq :: _) shared, some sel =>
    sel.msgs[seq - 1]?.map fun row => ⟨sel, command, shared, seq, row⟩
  | _, _, _ => none

def Round.clears (round : Round) : Bool :=
  (patchFor round.command round.shared round.row).clearFlags &&& MessageFlags.deleted ≠ 0

/-- A store step may clear the mark only where no other session still counts on
it and the read-back succeeds; and the read-back has to see the message in this
mailbox. -/
def Fresh (floor : Floor Who) (move : Move Who) : Prop :=
  ∀ round ∈ nextRound floor move,
    (∀ found ∈ floor.store.getMessage round.row.messageID,
      (floor.store.member? round.row.messageID round.sel.id).isSome →
        found.mailboxID = round.sel.id) ∧
    (round.clears = true →
      move.faults (.getMessage round.row.messageID) = false ∧
        ∀ other, other ≠ move.who →
          ¬Counts (floor.session other) (floor.work other) round.sel.id round.row.messageID)

instance [Fintype Who] (floor : Floor Who) (move : Move Who) : Decidable (Fresh floor move) := by
  unfold Fresh
  infer_instance

/-- What the session's list shows as deleted is marked deleted in the store, if
it is still filed there. -/
def Current (store : MailStore) (session : Session) : Prop :=
  ∀ sel ∈ session.sel, ∀ row ∈ sel.msgs, isDeleted row = true →
    ∀ stored, store.member? row.messageID sel.id = some stored → isDeleted stored = true

def PendingCurrent (store : MailStore) (session : Session) (work : Work) : Prop :=
  ∀ sel ∈ session.sel, ∀ id ∈ work.ids,
    ∀ stored, store.member? id sel.id = some stored → isDeleted stored = true

structure Coherent (floor : Floor Who) : Prop where
  current : ∀ who, Current floor.store (floor.session who)
  pending : ∀ who, PendingCurrent floor.store (floor.session who) (floor.work who)
  removed : ∀ row ∈ floor.removed, isDeleted row = true

theorem deleted_iff (row : MessageMailbox) : isDeleted row = true ↔ row.flags.getLsbD 3 = true := by
  have bit : MessageFlags.deleted = BitVec.twoPow 16 3 := by decide
  rw [isDeleted, decide_eq_true_eq, bit]
  exact and_one_bit_ne_zero row.flags 3 (by decide)

theorem flag_update_keeps_deleted (add clear : MessageFlags) (keywordAdd keywordClear : List Bytes)
    (modSeq : Nat) (row : MessageMailbox) (spares : clear &&& MessageFlags.deleted = 0)
    (deleted : isDeleted row = true) :
    isDeleted ((MailStore.flagUpdate add clear keywordAdd keywordClear modSeq).apply row) = true := by
  rw [deleted_iff] at deleted ⊢
  have unset : clear.getLsbD 3 = false := by
    have bit : MessageFlags.deleted = BitVec.twoPow 16 3 := by decide
    rw [bit] at spares
    rw [← Bool.not_eq_true]
    intro set
    exact (and_one_bit_ne_zero clear 3 (by decide)).mpr set spares
  simp only [MailStore.flagUpdate, BitVec.getLsbD_and, BitVec.getLsbD_or, BitVec.getLsbD_not, deleted,
    unset]
  simp

theorem same_mark_deleted (left right : MessageMailbox)
    (same : MailStore.mark left = MailStore.mark right) :
    isDeleted left = isDeleted right := by
  have flags : left.flags = right.flags := congrArg MailStore.Mark.flags same
  rw [isDeleted, isDeleted, flags]

theorem current_of_marks (before after : MailStore) (session : Session)
    (known : ∀ seen ∈ after.marks, seen ∈ before.marks) (current : Current before session) :
    Current after session := by
  intro sel selected row member deleted stored filed
  obtain ⟨old, oldFiled, same⟩ := MailStore.member_of_marks before after _ _ stored known filed
  rw [← same_mark_deleted old stored same]
  exact current sel selected row member deleted old oldFiled

theorem pending_of_marks (before after : MailStore) (session : Session) (work : Work)
    (known : ∀ seen ∈ after.marks, seen ∈ before.marks)
    (pending : PendingCurrent before session work) : PendingCurrent after session work := by
  intro sel selected id listed stored filed
  obtain ⟨old, oldFiled, same⟩ := MailStore.member_of_marks before after _ _ stored known filed
  rw [← same_mark_deleted old stored same]
  exact pending sel selected id listed old oldFiled

theorem current_of_rows (store : MailStore) (session : Session) (sel : Selected)
    (selected : session.sel = some sel) (loaded : sel.msgs = store.rows sel.id) :
    Current store session := by
  intro other otherSelected row member deleted stored filed
  rw [selected, Option.mem_some_iff] at otherSelected
  subst otherSelected
  rw [loaded] at member
  rw [MailStore.rows_member store _ row member, Option.some.injEq] at filed
  rwa [← filed]

theorem reloaded_current (faults : Faults) (before after : MailStore) (session : Session)
    (sel : Selected) (selected : session.sel = some sel) (current : Current before session)
    (known : ∀ seen ∈ after.marks, seen ∈ before.marks) :
    Current after { session with sel := some (reloaded faults after sel) } := by
  unfold reloaded
  cases loaded : reloadSelected faults after sel with
  | none =>
    rw [Option.getD_none, ← selected]
    exact current_of_marks before after session known current
  | some fresh =>
    unfold reloadSelected at loaded
    split at loaded
    · simp at loaded
    · obtain ⟨mailbox, _, rfl⟩ := Option.map_eq_some_iff.mp loaded
      refine current_of_rows after _ _ rfl ?_
      exact after.list_all_messages_eq sel.id

/-- A session and its work may change where the new session is current and its
work is not an expunge. -/
theorem coherent_replace (floor next : Floor Who) (who : Who) (coherent : Coherent floor)
    (known : ∀ seen ∈ next.store.marks, seen ∈ floor.store.marks)
    (others : ∀ other, other ≠ who → next.session other = floor.session other ∧
      next.work other = floor.work other)
    (current : Current next.store (next.session who))
    (pending : PendingCurrent next.store (next.session who) (next.work who))
    (removed : ∀ row ∈ next.removed, isDeleted row = true) : Coherent next where
  current other := by
    by_cases same : other = who
    · rw [same]
      exact current
    · rw [(others other same).1]
      exact current_of_marks floor.store next.store _ known (coherent.current other)
  pending other := by
    by_cases same : other = who
    · rw [same]
      exact pending
    · rw [(others other same).1, (others other same).2]
      exact pending_of_marks floor.store next.store _ _ known (coherent.pending other)
  removed := removed

theorem reminded_known (message : MessageID) (before after : MailStore)
    (reminded : MailStore.Reminded message before after) :
    ∀ seen ∈ after.marks, seen ∈ before.marks := by
  intro seen member
  rwa [reminded.marks] at member

theorem expunged_known (mailbox : MailboxID) (ids : List MessageID) (before after : MailStore)
    (expunged : MailStore.Expunged mailbox ids before after) :
    ∀ seen ∈ after.marks, seen ∈ before.marks := by
  intro seen member
  rw [expunged.marks] at member
  exact (List.mem_filter.mp member).1

/-- The row of a message whose flags are not cleared keeps its mark; all other
rows keep theirs anyway. -/
theorem flagged_keeps_deleted (message : MessageID) (mailbox : MailboxID) (add clear : MessageFlags)
    (keywordAdd keywordClear : List Bytes) (modSeq : Nat) (before after : MailStore)
    (flagged : MailStore.Flagged message mailbox
      (MailStore.flagUpdate add clear keywordAdd keywordClear modSeq) before after)
    (other : MessageID) (place : MailboxID) (stored : MessageMailbox)
    (spares : other = message → place = mailbox → clear &&& MessageFlags.deleted = 0)
    (filed : after.member? other place = some stored)
    (deleted : ∀ old, before.member? other place = some old → isDeleted old = true) :
    isDeleted stored = true := by
  rw [flagged.member] at filed
  by_cases hit : other = message ∧ place = mailbox
  · rw [if_pos hit] at filed
    obtain ⟨old, oldFiled, rfl⟩ := Option.map_eq_some_iff.mp filed
    exact flag_update_keeps_deleted add clear keywordAdd keywordClear modSeq old (spares hit.1 hit.2)
      (deleted old oldFiled)
  · rw [if_neg hit] at filed
    exact deleted stored filed

/-- The read-back sees the message in the selected mailbox, which is the first
it is filed in. -/
theorem read_back_home (before between after : MailStore) (mailbox : MailboxID) (message : MessageID)
    (change : MemberUpdate) (updated : MessageMailbox)
    (reminded : MailStore.Reminded message before between)
    (flagged : MailStore.Flagged message mailbox change between after)
    (home : ∀ found ∈ before.getMessage message,
      (before.member? message mailbox).isSome → found.mailboxID = mailbox)
    (read : after.getMessage message = some updated) :
    after.member? message mailbox = some updated := by
  have bareSame : after.marks.map MailStore.bare = before.marks.map MailStore.bare := by
    rw [flagged.marks, reminded.marks]
  -- rows of the two stores correspond up to their flags
  have back : ∀ row ∈ after.members, ∃ old ∈ before.members,
      old.messageID = row.messageID ∧ old.mailboxID = row.mailboxID := by
    intro row member
    have listed : MailStore.bare (MailStore.mark row) ∈ after.marks.map MailStore.bare :=
      List.mem_map_of_mem (List.mem_map_of_mem member)
    rw [bareSame] at listed
    obtain ⟨seen, seenMember, same⟩ := List.mem_map.mp listed
    obtain ⟨old, oldMember, rfl⟩ := List.mem_map.mp seenMember
    exact ⟨old, oldMember, congrArg Prod.fst same, congrArg (fun key => key.2.1) same⟩
  obtain ⟨row, rowFiled⟩ := flagged.found
  obtain ⟨old, oldFiled, _⟩ := MailStore.member_of_marks before between message mailbox row
    (reminded_known message before between reminded) rowFiled
  obtain ⟨found, foundRead⟩ := MailStore.get_message_filed before message mailbox old oldFiled
  have place := home found foundRead (by rw [oldFiled]; rfl)
  obtain ⟨_, _, lowest⟩ := MailStore.get_message_first before message found foundRead
  obtain ⟨updatedMember, updatedSame, updatedLowest⟩ :=
    MailStore.get_message_first after message updated read
  have afterFiled : ∃ kept, after.member? message mailbox = some kept := by
    rw [flagged.member, if_pos ⟨rfl, rfl⟩, rowFiled]
    exact ⟨_, rfl⟩
  obtain ⟨kept, keptFiled⟩ := afterFiled
  obtain ⟨keptMember, keptSame, keptPlace⟩ :=
    (MailStore.member_some_iff after message mailbox kept).mp keptFiled
  have atMost := updatedLowest kept keptMember keptSame
  obtain ⟨source, sourceMember, sourceSame, sourcePlace⟩ := back updated updatedMember
  have atLeast := lowest source sourceMember (sourceSame.trans updatedSame)
  refine (MailStore.member_some_iff after message mailbox updated).mpr ⟨updatedMember, updatedSame, ?_⟩
  rw [place, sourcePlace] at atLeast
  rw [keptPlace] at atMost
  exact Nat.le_antisymm atMost atLeast

section Round

variable {store : MailStore} {session : Session} {faults : Faults} {sel sel' : Selected}
  {command : StoreCommand} {seq modSeq : Nat} {shared : List Bytes} {row : MessageMailbox}
  {cleared : Cleared} {after : MailStore} {responses : List Response}

/-- A message counted on as deleted stays so, unless this update clears its mark. -/
theorem round_keeps_deleted
    (done : ReminderCleared faults command store sel shared row cleared)
    (flagged : MailStore.Flagged row.messageID sel.id
      (MailStore.flagUpdate (patchFor command shared row).addFlags
        (patchFor command shared row).clearFlags (patchFor command shared row).addKeywords
        cleared.clearKeywords modSeq) cleared.store after)
    (message : MessageID) (place : MailboxID) (stored : MessageMailbox)
    (filed : after.member? message place = some stored)
    (spares : message = row.messageID → place = sel.id →
      (patchFor command shared row).clearFlags &&& MessageFlags.deleted = 0)
    (deleted : ∀ old, store.member? message place = some old → isDeleted old = true) :
    isDeleted stored = true := by
  refine flagged_keeps_deleted _ _ _ _ _ _ _ _ _ flagged message place stored spares filed ?_
  intro middle middleFiled
  obtain ⟨old, oldFiled, same⟩ := MailStore.member_of_marks _ _ _ _ middle
    (reminded_known row.messageID _ _ done.reminded) middleFiled
  rw [← same_mark_deleted old middle same]
  exact deleted old oldFiled

theorem round_current (current : Current store session) (selected : session.sel = some sel)
    (here : sel.msgs[seq - 1]? = some row)
    (home : ∀ found ∈ store.getMessage row.messageID,
      (store.member? row.messageID sel.id).isSome → found.mailboxID = sel.id)
    (readable : (patchFor command shared row).clearFlags &&& MessageFlags.deleted ≠ 0 →
      faults (.getMessage row.messageID) = false)
    (done : ReminderCleared faults command store sel shared row cleared)
    (flagged : MailStore.Flagged row.messageID sel.id
      (MailStore.flagUpdate (patchFor command shared row).addFlags
        (patchFor command shared row).clearFlags (patchFor command shared row).addKeywords
        cleared.clearKeywords modSeq) cleared.store after)
    (readBack : ReadBackDone faults command after sel sel' seq row responses) :
    Current after { session with sel := some sel' } := by
  intro list listed shown member deleted stored filed
  rw [Option.mem_some_iff] at listed
  subst listed
  rcases readBack with ⟨same, _, failed⟩ | ⟨updated, read, sameID, _, _, msgs, _⟩
  · -- the read-back failed, so this update did not clear the mark
    rw [same] at member filed
    refine round_keeps_deleted done flagged _ _ stored filed ?_
      (fun old => current sel selected shown member deleted old)
    intro _ _
    by_contra clears
    obtain ⟨found, foundFiled⟩ := flagged.found
    have keptFiled := flagged.member row.messageID sel.id
    rw [if_pos ⟨rfl, rfl⟩, foundFiled] at keptFiled
    obtain ⟨again, read⟩ := MailStore.get_message_filed after _ _ _ keptFiled
    rcases failed with faulted | absent
    · rw [readable clears] at faulted
      exact Bool.noConfusion faulted
    · rw [absent] at read
      simp at read
  · have homeRow := read_back_home store cleared.store after sel.id row.messageID _ updated
      done.reminded flagged home read
    have updatedSame : updated.messageID = row.messageID :=
      (MailStore.get_message_first after _ updated read).2.1
    rw [sameID] at filed
    by_cases same : shown.messageID = row.messageID
    · have updatedMember : updated ∈ sel'.msgs := by
        rw [msgs]
        exact List.mem_set (List.getElem?_eq_some_iff.mp here).1 updated
      have nodup : (sel'.msgs.map MessageMailbox.messageID).Nodup := by
        rw [List.Nodup, List.pairwise_map]
        exact sel'.distinct
      have equal := List.inj_on_of_nodup_map nodup member updatedMember (same.trans updatedSame.symm)
      rw [same, homeRow, Option.some.injEq] at filed
      rw [← filed, ← equal]
      exact deleted
    · have old : shown ∈ sel.msgs := by
        rw [msgs] at member
        rcases List.mem_or_eq_of_mem_set member with before | new
        · exact before
        · exact absurd (new ▸ updatedSame) same
      exact round_keeps_deleted done flagged _ _ stored filed (fun equal => absurd equal same)
        (fun stored' => current sel selected shown old deleted stored')

end Round

/-- One message of a `STORE` that meets the condition. -/
theorem after_round_coherent (floor : Floor Who) (who : Who) (faults : Faults) (sel : Selected)
    (command : StoreCommand) (seq : Nat) (seqs : List Nat) (shared : List Bytes) (step : StoreStep)
    (coherent : Coherent floor) (selected : (floor.session who).sel = some sel)
    (fresh : ∀ row ∈ sel.msgs[seq - 1]?,
      (∀ found ∈ floor.store.getMessage row.messageID,
        (floor.store.member? row.messageID sel.id).isSome → found.mailboxID = sel.id) ∧
      ((patchFor command shared row).clearFlags &&& MessageFlags.deleted ≠ 0 →
        faults (.getMessage row.messageID) = false ∧ ∀ other, other ≠ who →
          ¬Counts (floor.session other) (floor.work other) sel.id row.messageID))
    (round : StoreRound faults command floor.store sel shared seq step) :
    Coherent (floor.afterRound who command seqs shared step) := by
  cases step with
  | skipped =>
    refine coherent_replace floor _ who coherent (fun _ seen => seen) ?_ (coherent.current who) ?_
      coherent.removed
    · intro other differ
      simp [Floor.afterRound, Floor.setWork, differ]
    · intro _ _ id inside
      simp [Floor.afterRound, Floor.setWork, Work.ids] at inside
  | stopped after response =>
    obtain ⟨row, _, origin⟩ := round
    have known : ∀ seen ∈ after.marks, seen ∈ floor.store.marks := by
      rcases origin with same | ⟨cleared, done, same⟩
      · intro seen member
        rwa [same] at member
      · rw [same]
        exact reminded_known row.messageID _ _ done.reminded
    refine coherent_replace floor _ who coherent known ?_ ?_ ?_ coherent.removed
    · intro other differ
      simp [Floor.afterRound, Floor.setWork, differ]
    · exact current_of_marks floor.store after _ known (coherent.current who)
    · intro _ _ id inside
      simp [Floor.afterRound, Floor.setWork, Work.ids] at inside
  | rejected after shared' uid =>
    obtain ⟨row, _, cleared, done, same, _⟩ := round
    have known : ∀ seen ∈ after.marks, seen ∈ floor.store.marks := by
      rw [same]
      exact reminded_known row.messageID _ _ done.reminded
    refine coherent_replace floor _ who coherent known ?_ ?_ ?_ coherent.removed
    · intro other differ
      simp [Floor.afterRound, Floor.setWork, differ]
    · exact current_of_marks floor.store after _ known (coherent.current who)
    · intro _ _ id inside
      simp [Floor.afterRound, Floor.setWork, Work.ids] at inside
  | applied after sel' shared' responses =>
    obtain ⟨row, here, cleared, modSeq, done, _, flagged, readBack⟩ := round
    -- another session that counts on the message keeps this update from clearing the mark
    have spared : ∀ other, other ≠ who → ∀ message place,
        Counts (floor.session other) (floor.work other) place message →
        message = row.messageID → place = sel.id →
          (patchFor command shared row).clearFlags &&& MessageFlags.deleted = 0 := by
      intro other differ message place counted sameMessage samePlace
      by_contra clears
      rw [sameMessage, samePlace] at counted
      exact ((fresh row here).2 clears).2 other differ counted
    constructor
    · intro other
      by_cases mine : other = who
      · subst mine
        have current := round_current (coherent.current other) selected here (fresh row here).1
          (fun clears => ((fresh row here).2 clears).1) done flagged readBack
        simpa [Floor.afterRound, Floor.setWork, Floor.setSelected, Floor.setSession] using current
      · intro list listed shown member deleted stored filed
        have untouched : list ∈ (floor.session other).sel := by
          simpa [Floor.afterRound, Floor.setWork, Floor.setSelected, Floor.setSession, mine]
            using listed
        exact round_keeps_deleted done flagged _ _ stored filed
          (spared other mine _ _ ⟨list, untouched, rfl, Or.inl ⟨shown, member, rfl, deleted⟩⟩)
          (fun old => coherent.current other list untouched shown member deleted old)
    · intro other list listed id inside stored filed
      by_cases mine : other = who
      · subst mine
        simp [Floor.afterRound, Floor.setWork, Work.ids] at inside
      · have untouched : list ∈ (floor.session other).sel := by
          simpa [Floor.afterRound, Floor.setWork, Floor.setSelected, Floor.setSession, mine]
            using listed
        have stillExpunging : id ∈ (floor.work other).ids := by
          simpa [Floor.afterRound, Floor.setWork, Floor.setSelected, Floor.setSession, mine]
            using inside
        exact round_keeps_deleted done flagged _ _ stored filed
          (spared other mine _ _ ⟨list, untouched, rfl, Or.inr stillExpunging⟩)
          (fun old => coherent.pending other list untouched id stillExpunging old)
    · exact coherent.removed

theorem expunge_step_coherent (floor : Floor Who) (who : Who) (faults : Faults) (sel : Selected)
    (ids : List MessageID) (coherent : Coherent floor)
    (selected : (floor.session who).sel = some sel) (working : floor.work who = .expunging ids) :
    Coherent (expungeStep floor who faults sel ids) := by
  unfold expungeStep
  simp only
  split
  case h_1 =>
    refine coherent_replace floor _ who coherent (fun _ seen => seen) ?_ (coherent.current who) ?_
      coherent.removed
    · intro other differ
      simp [Floor.setWork, differ]
    · intro _ _ id inside
      simp [Floor.setWork, Work.ids] at inside
  case h_2 after ok =>
    have expunged : MailStore.Expunged sel.id ids floor.store after := by
      split at ok
      · simp at ok
      · exact MailStore.expunge_messages_expunged floor.store after sel.id ids ok
    have known := expunged_known sel.id ids floor.store after expunged
    refine coherent_replace floor _ who coherent known ?_ ?_ ?_ ?_
    · intro other differ
      simp [Floor.setWork, Floor.setSelected, Floor.setSession, differ]
    · have current := reloaded_current faults floor.store after (floor.session who) sel selected
        (coherent.current who) known
      simpa [Floor.setWork, Floor.setSelected, Floor.setSession] using current
    · intro _ _ id inside
      simp [Floor.setWork, Work.ids] at inside
    · intro row member
      simp only [Floor.setWork, Floor.setSelected, Floor.setSession, List.mem_append,
        List.mem_filterMap] at member
      rcases member with before | ⟨id, inside, filed⟩
      · exact coherent.removed row before
      · exact coherent.pending who sel selected id (by rw [working]; exact inside) row filed

section

variable (faults : Faults) (store : MailStore) (session : Session)

/-- Every identifier `EXPUNGE` collects stands in the list with the mark. -/
theorem handed_listed (sel : Selected)
    (isUID : Bool) (set : Option NumSet) (selected : session.sel = some sel) (id : MessageID)
    (handed : id ∈ (handleEXPUNGE faults store session isUID set).handed) :
    ∃ row ∈ sel.msgs, row.messageID = id ∧ isDeleted row = true := by
  by_cases may : MayExpunge faults store session sel
  · rw [expunge_hands_chosen faults store session sel isUID set selected may, List.mem_map] at handed
    obtain ⟨row, member, rfl⟩ := handed
    rw [List.mem_filter, expungeChosen, decide_eq_true_eq] at member
    exact ⟨row, member.1, rfl, member.2.1⟩
  · have nothing : (handleEXPUNGE faults store session isUID set).handed = [] := by
      simp only [handleEXPUNGE, selected]
      split
      · rfl
      · rename_i readable
        split
        · rfl
        · rename_i mailbox found
          split
          · rfl
          · rename_i permitted
            refine absurd ⟨?_, mailbox, found, ?_⟩ may
            · exact Bool.eq_false_iff.mpr readable
            · exact Bool.eq_true_of_not_eq_false permitted
    rw [nothing] at handed
    simp at handed

/-- An `EXPUNGE` that collects nothing calls no store and at most reloads. -/
theorem idle_expunge_current (sel : Selected) (isUID : Bool) (set : Option NumSet)
    (selected : session.sel = some sel)
    (current : Current store session)
    (nothing : (handleEXPUNGE faults store session isUID set).handed = []) :
    Current store (handleEXPUNGE faults store session isUID set).session := by
  simp only [handleEXPUNGE, selected] at nothing ⊢
  split at nothing
  case isTrue faulted => simpa [faulted] using current
  case isFalse readable =>
    simp only [readable, Bool.false_eq_true, if_false]
    split at nothing
    case h_1 absent => simpa [absent] using current
    case h_2 mailbox found =>
      split at nothing
      case isTrue refused => simpa [found, refused] using current
      case isFalse permitted =>
        have noIDs : (messagesWhere (expungeChosen (uidFilter sel isUID set)) sel.msgs).map
            (fun victim => victim.2.messageID) = [] := by
          split at nothing <;> exact nothing
        simp only [found, permitted, if_false, noIDs, ne_eq, not_true_eq_false, false_and,
          MailStore.expungeMessages, if_true]
        exact reloaded_current faults store store session sel selected current (fun _ seen => seen)

theorem select_current (name : Bytes)
    (readOnly condstore qresync : Bool) (current : Current store session) :
    Current store (handleSELECT faults store session name readOnly condstore qresync).session := by
  unfold handleSELECT
  split
  · exact current
  · exact current
  · exact current
  · rename_i mailbox _
    split
    · exact current
    · split
      · exact current
      · refine current_of_rows store _ (selectMailbox store mailbox readOnly) rfl ?_
        exact store.list_all_messages_eq mailbox.id

end

theorem coherent_step (floor next : Floor Who) (move : Move Who) (coherent : Coherent floor)
    (fresh : Fresh floor move) (stepped : floorStep floor move = some next) : Coherent next := by
  unfold floorStep at stepped
  simp only at stepped
  split at stepped
  case h_1 name readOnly working _ =>
    rw [Option.some.injEq] at stepped
    rw [← stepped]
    refine coherent_replace floor _ move.who coherent (fun _ seen => seen) ?_ ?_ ?_ coherent.removed
    · intro other differ
      simp [Floor.setSession, differ]
    · have current := select_current move.faults floor.store (floor.session move.who) name readOnly
        false false (coherent.current move.who)
      simpa [Floor.setSession] using current
    · intro _ _ id inside
      simp [Floor.setSession, working, Work.ids] at inside
  case h_2 sel working _ selected =>
    rw [Option.some.injEq] at stepped
    rw [← stepped]
    refine coherent_replace floor _ move.who coherent (fun _ seen => seen) ?_ ?_ ?_ coherent.removed
    · intro other differ
      simp [Floor.setSession, differ]
    · intro list listed
      simp [Floor.setSession, handleUNSELECT, selected] at listed
    · intro _ _ id inside
      simp [Floor.setSession, working, Work.ids] at inside
  case h_3 command sel working _ selected =>
    split at stepped
    · rw [Option.some.injEq] at stepped
      rw [← stepped]
      refine coherent_replace floor _ move.who coherent (fun _ seen => seen) ?_
        (coherent.current move.who) ?_ coherent.removed
      · intro other differ
        simp [Floor.setWork, differ]
      · intro _ _ id inside
        simp [Floor.setWork, Work.ids] at inside
    · rw [Option.some.injEq] at stepped
      exact stepped ▸ coherent
  case h_4 command seqs shared sel working acting selected =>
    rw [Option.some.injEq] at stepped
    rw [← stepped]
    cases seqs with
    | nil =>
      refine coherent_replace floor _ move.who coherent (fun _ seen => seen) ?_
        (coherent.current move.who) ?_ coherent.removed
      · intro other differ
        simp [storeStep, Floor.setWork, differ]
      · intro _ _ id inside
        simp [storeStep, Floor.setWork, Work.ids] at inside
    | cons seq seqs =>
      refine after_round_coherent floor move.who move.faults sel command seq seqs shared _ coherent
        selected ?_ (store_message_round move.faults command floor.store sel shared seq)
      intro row here
      have next : nextRound floor move = some ⟨sel, command, shared, seq, row⟩ := by
        simp only [nextRound, acting, working, selected, Option.mem_def.mp here, Option.map_some]
      obtain ⟨home, guard⟩ := fresh _ next
      exact ⟨home, fun clears => guard (decide_eq_true clears)⟩
  case h_5 isUID set sel working _ selected =>
    split at stepped
    case isTrue nothing =>
      rw [Option.some.injEq] at stepped
      rw [← stepped]
      refine coherent_replace floor _ move.who coherent (fun _ seen => seen) ?_ ?_ ?_ coherent.removed
      · intro other differ
        simp [Floor.setSession, differ]
      · have current := idle_expunge_current move.faults floor.store (floor.session move.who) sel
          isUID set selected (coherent.current move.who) nothing
        simpa [Floor.setSession] using current
      · intro _ _ id inside
        simp [Floor.setSession, working, Work.ids] at inside
    case isFalse =>
      rw [Option.some.injEq] at stepped
      rw [← stepped]
      refine coherent_replace floor _ move.who coherent (fun _ seen => seen) ?_
        (coherent.current move.who) ?_ coherent.removed
      · intro other differ
        simp [Floor.setWork, differ]
      · intro list listed id inside stored filed
        rw [Floor.setWork, selected, Option.mem_some_iff] at listed
        subst listed
        simp only [Floor.setWork, Function.update_self, Work.ids] at inside
        obtain ⟨row, member, rfl, deleted⟩ := handed_listed move.faults floor.store
          (floor.session move.who) sel isUID set selected id inside
        exact coherent.current move.who sel selected row member deleted stored filed
  case h_6 ids sel working _ selected =>
    rw [Option.some.injEq] at stepped
    rw [← stepped]
    exact expunge_step_coherent floor move.who move.faults sel ids coherent selected working
  case h_7 => simp at stepped

def Floor.opening (store : MailStore) (pid : Who → PrincipalID) : Floor Who where
  store := store
  session who := { pid := pid who }
  work _ := .ready
  removed := []

/-- In every interleaving whose store steps are fresh, each message an
`EXPUNGE` removed was marked deleted in the store when it was removed. -/
theorem expunged_messages_were_deleted (store : MailStore) (pid : Who → PrincipalID)
    (moves : List (Move Who)) (final : Floor Who)
    (meets : floorMachine.Meets Fresh (Floor.opening store pid) moves)
    (ran : floorMachine.execute (Floor.opening store pid) moves = some final) :
    ∀ row ∈ final.removed, isDeleted row = true := by
  have opening : Coherent (Floor.opening store pid) := by
    refine ⟨?_, ?_, by simp [Floor.opening]⟩
    · intro who sel selected
      simp [Floor.opening] at selected
    · intro who sel selected
      simp [Floor.opening] at selected
  exact (Machine.meets_keeps floorMachine Fresh Coherent
    (fun floor move next coherent fresh stepped => coherent_step floor next move coherent fresh stepped)
    moves (Floor.opening store pid) final opening meets ran).removed

def bothSelect : List (Move Bool) :=
  [⟨false, noFaults, .select (ascii "INBOX") false⟩, ⟨true, noFaults, .select (ascii "INBOX") false⟩]

def clearFirst : StoreCommand := { set := [⟨1, 1⟩], op := .del, flags := [ascii "\\Deleted"] }

def markSecond : StoreCommand := { set := [⟨2, 2⟩], op := .add, flags := [ascii "\\Deleted"] }

/-- After the second session has cleared the mark of the first message, the first
session still removes it. -/
theorem expunge_removes_message_without_mark :
    ((floorMachine.execute (Floor.opening twoMessages fun _ => 7)
      (bothSelect ++
        [⟨true, noFaults, .beginStore clearFirst⟩, ⟨true, noFaults, .storeNext⟩,
          ⟨false, noFaults, .beginExpunge false none⟩, ⟨false, noFaults, .runExpunge⟩])).map
      fun floor => floor.removed.map fun row => (row.messageID, isDeleted row)) =
      some [(1, false)] := by
  decide +kernel

def markAndExpunge : List (Move Bool) :=
  bothSelect ++
    [⟨false, noFaults, .beginStore markSecond⟩, ⟨false, noFaults, .storeNext⟩,
      ⟨false, noFaults, .storeNext⟩, ⟨false, noFaults, .beginExpunge false none⟩,
      ⟨false, noFaults, .runExpunge⟩]

/-- A message the session marks itself, and one marked before, are removed with their marks. -/
theorem expunged_messages_were_deleted_of_own_marks :
    ∃ final, floorMachine.execute (Floor.opening twoMessages fun _ => 7) markAndExpunge = some final ∧
      final.removed.length = 2 ∧ ∀ row ∈ final.removed, isDeleted row = true := by
  have count : ((floorMachine.execute (Floor.opening twoMessages fun _ => 7) markAndExpunge).map
      fun floor => floor.removed.length) = some 2 := by decide +kernel
  obtain ⟨final, ran, two⟩ := Option.map_eq_some_iff.mp count
  exact ⟨final, ran, two, expunged_messages_were_deleted twoMessages (fun _ => 7) markAndExpunge final
    (by decide +kernel) ran⟩

end Herold.Imap

import Herold.Machine.Run
import Herold.Imap.UidExpunge

/-!
# A session among other clients

The state is the store and one session. A step is a command of the session, or
other clients, deliveries and administrators make something else of the store.
The log keeps the store before and after each command of the session.
-/

namespace Herold.Imap

open Herold.Go Herold.Store Herold.Machine

structure Entry where
  command : Command
  before : MailStore
  after : MailStore

structure System where
  store : MailStore
  session : Session
  log : List Entry := []

inductive Label where
  | command (faults : Faults) (command : Command)
  | change (after : MailStore)

def System.step (system : System) : Label → Option System
  | .command faults command =>
    (dispatch faults system.store system.session command).map fun outcome =>
      { store := outcome.store, session := outcome.session
        log := system.log ++ [⟨command, system.store, outcome.store⟩] }
  | .change after => some { system with store := after }

def systemMachine : Machine System Label where
  step := System.step

def holding (store : MailStore) (mailbox : MailboxID) (message : MessageID) :
    Option (MessageFlags × List Bytes) :=
  (store.member? message mailbox).map fun row => (row.flags, row.keywords)

theorem holding_of_member (before after : MailStore) (mailbox : MailboxID) (message : MessageID)
    (same : after.member? message mailbox = before.member? message mailbox) :
    holding after mailbox message = holding before mailbox message := by
  rw [holding, holding, same]

def Destination.satisfies (property : Mailbox → Bool) : Destination → Bool
  | .found mailbox => property mailbox
  | _ => false

theorem copy_target_mailbox (faults : Faults) (store : MailStore) (row : MessageMailbox)
    (source : MailboxID) (dest : Mailbox) (isMove : Bool) :
    (copyTarget faults store row source dest isMove).mailboxID = dest.id := by
  unfold copyTarget
  simp only
  split
  · rfl
  · split
    · rfl
    · split
      · rfl
      · split <;> rfl

theorem copy_loop_grown (faults : Faults) (pid : PrincipalID) (source : MailboxID)
    (dest : Mailbox) (isMove : Bool) (rows : List MessageMailbox) (position : Nat) (store : MailStore) :
    MailStore.Grown dest.id store
      (copyLoop faults pid source dest isMove rows position store).1 := by
  induction rows generalizing position store with
  | nil => exact MailStore.grown_refl dest.id store
  | cons row rows ih =>
    rw [copyLoop]
    split
    · exact MailStore.grown_refl dest.id store
    · split
      · exact MailStore.grown_refl dest.id store
      · rename_i uid next inserted
        have first := MailStore.insert_message_grown store next _ _ _ _ _ uid inserted
        rw [copy_target_mailbox] at first
        exact MailStore.grown_trans dest.id store next _ first (ih (position + 1) next)

theorem append_loop_grown (faults : Faults) (pid : PrincipalID) (mailbox : MailboxID)
    (items : List (Bytes × List Bytes)) (position : Nat) (store : MailStore) :
    MailStore.Grown mailbox store (appendLoop faults pid mailbox items position store).1 := by
  induction items generalizing position store with
  | nil => exact MailStore.grown_refl mailbox store
  | cons item items ih =>
    rw [appendLoop]
    simp only
    split
    · exact MailStore.grown_refl mailbox store
    · rename_i uid next inserted
      split at inserted
      · simp at inserted
      · have first := MailStore.insert_message_grown store next _ _ _ _ _ uid inserted
        exact MailStore.grown_trans mailbox store next _ first (ih (position + 1) next)

/-- A response that tells the client nothing about the list of messages. -/
def Response.plain : Response → Bool
  | .existsCount _ | .expunge _ | .vanished _ | .fetch _ _ _ => false
  | _ => true

/-- A command that leaves the session as it was and does not speak of its list. -/
structure Quiet (session : Session) (outcome : Outcome) : Prop where
  session : outcome.session = session
  plain : ∀ response ∈ outcome.responses, response.plain = true

theorem refuse_quiet (store : MailStore) (session : Session) (response : Response)
    (plain : response.plain = true) : Quiet session (refuse store session response) := by
  refine ⟨rfl, ?_⟩
  intro other member
  rw [refuse_responses, List.mem_singleton] at member
  rw [member]
  exact plain

def victims (sel : Selected) (isUID : Bool) (set : Option NumSet) : List (Nat × MessageMailbox) :=
  messagesWhere (expungeChosen (uidFilter sel isUID set)) sel.msgs

/-- Everything an `EXPUNGE` can do in a selected mailbox. -/
theorem handle_expunge_cases (faults : Faults) (store : MailStore) (session : Session) (sel : Selected)
    (isUID : Bool) (set : Option NumSet) (selected : session.sel = some sel) :
    let outcome := handleEXPUNGE faults store session isUID set
    (Quiet session outcome ∧ outcome.store = store) ∨
    (MayExpunge faults store session sel ∧
      store.expungeMessages sel.id ((victims sel isUID set).map fun victim => victim.2.messageID) =
        .ok outcome.store ∧
      outcome.session = { session with sel := some (reloaded faults outcome.store sel) } ∧
      outcome.responses = emitGone session ((victims sel isUID set).map Prod.fst)
        ((victims sel isUID set).map fun victim => victim.2.uid) ++ [.taggedOK .none "completed"]) := by
  simp only [handleEXPUNGE, selected]
  split
  case isTrue => exact Or.inl ⟨refuse_quiet _ _ _ rfl, rfl⟩
  case isFalse readable =>
    split
    case h_1 => exact Or.inl ⟨refuse_quiet _ _ _ rfl, rfl⟩
    case h_2 mailbox found =>
      split
      case isTrue => exact Or.inl ⟨refuse_quiet _ _ _ rfl, rfl⟩
      case isFalse permitted =>
        split
        case h_1 =>
          refine Or.inl ⟨⟨rfl, ?_⟩, rfl⟩
          intro response member
          rw [List.mem_singleton] at member
          rw [member]
          rfl
        case h_2 after ok =>
          refine Or.inr ⟨⟨Bool.eq_false_iff.mpr readable, mailbox, found,
            Bool.eq_true_of_not_eq_false permitted⟩, ?_, rfl, rfl⟩
          split at ok
          · simp at ok
          · exact ok

/-- Everything a `MOVE` can do in a selected mailbox. -/
theorem handle_move_cases (faults : Faults) (store : MailStore) (session : Session) (sel : Selected)
    (set : NumSet) (isUID : Bool) (name : Bytes) (selected : session.sel = some sel) :
    let outcome := handleMOVE faults store session set isUID name
    let seqs := expandSet sel set isUID
    let moved := seqs.filterMap (messageAt sel)
    (Quiet session outcome ∧ outcome.store = store) ∨
    ∃ dest, lookupDestination faults store session.pid name = .found dest ∧ seqs ≠ [] ∧
      let copied := (copyLoop faults session.pid sel.id dest true moved 0 store).1
      ((Quiet session outcome ∧ outcome.store = copied) ∨
      (copied.expungeMessages sel.id (moved.map MessageMailbox.messageID) = .ok outcome.store ∧
        outcome.session = { session with sel := some (reloaded faults outcome.store sel) } ∧
        ∃ staged : Response, staged.plain = true ∧ outcome.responses =
          staged :: (emitGone session seqs (moved.map MessageMailbox.uid) ++
            [.taggedOK .none "MOVE completed"]))) := by
  simp only [handleMOVE, selected]
  split
  case h_1 => exact Or.inl ⟨refuse_quiet _ _ _ rfl, rfl⟩
  case h_2 => exact Or.inl ⟨refuse_quiet _ _ _ rfl, rfl⟩
  case h_3 dest found =>
    split
    case isTrue => exact Or.inl ⟨refuse_quiet _ _ _ rfl, rfl⟩
    case isFalse named =>
      refine Or.inr ⟨dest, found, named, ?_⟩
      split
      case h_1 copied looped =>
        rw [looped]
        exact Or.inl ⟨refuse_quiet _ _ _ rfl, rfl⟩
      case h_2 copied uids looped =>
        rw [looped]
        unfold finishMOVE
        simp only
        split
        case h_1 =>
          refine Or.inl ⟨⟨rfl, ?_⟩, rfl⟩
          intro response member
          simp only [List.mem_cons, List.not_mem_nil, or_false] at member
          rcases member with rfl | rfl <;> rfl
        case h_2 after ok =>
          refine Or.inr ⟨?_, rfl, _, ?_, rfl⟩
          · split at ok
            · simp at ok
            · exact ok
          · rfl

/-- A `COPY` at most fills its destination. -/
theorem handle_copy_cases (faults : Faults) (store : MailStore) (session : Session) (sel : Selected)
    (set : NumSet) (isUID : Bool) (name : Bytes) (selected : session.sel = some sel) :
    let outcome := handleCOPY faults store session set isUID name
    Quiet session outcome ∧ (outcome.store = store ∨
      ∃ dest, lookupDestination faults store session.pid name = .found dest ∧
        outcome.store = (copyLoop faults session.pid sel.id dest false
          ((expandSet sel set isUID).filterMap (messageAt sel)) 0 store).1) := by
  simp only [handleCOPY, selected]
  split
  case h_1 => exact ⟨refuse_quiet _ _ _ rfl, Or.inl rfl⟩
  case h_2 => exact ⟨refuse_quiet _ _ _ rfl, Or.inl rfl⟩
  case h_3 dest found =>
    split
    case h_1 copied looped => exact ⟨refuse_quiet _ _ _ rfl, Or.inr ⟨dest, found, by rw [looped]; rfl⟩⟩
    case h_2 copied uids looped =>
      exact ⟨refuse_quiet _ _ _ rfl, Or.inr ⟨dest, found, by rw [looped]; rfl⟩⟩

theorem handle_append_cases (faults : Faults) (store : MailStore) (session : Session) (name : Bytes)
    (items : List (Bytes × List Bytes)) :
    let outcome := handleAPPEND faults store session name items
    Quiet session outcome ∧ (outcome.store = store ∨
      ∃ mailbox, lookupMailbox faults store session.pid name = .found mailbox ∧
        requireRights faults store session.pid mailbox ACLRights.insert = true ∧
        outcome.store = (appendLoop faults session.pid mailbox.id items 0 store).1) := by
  simp only [handleAPPEND]
  split
  case h_1 => exact ⟨refuse_quiet _ _ _ rfl, Or.inl rfl⟩
  case h_2 => exact ⟨refuse_quiet _ _ _ rfl, Or.inl rfl⟩
  case h_3 => exact ⟨refuse_quiet _ _ _ rfl, Or.inl rfl⟩
  case h_4 mailbox found =>
    split
    case isTrue => exact ⟨refuse_quiet _ _ _ rfl, Or.inl rfl⟩
    case isFalse permitted =>
      have may := Bool.eq_true_of_not_eq_false permitted
      split
      case h_1 looped =>
        exact ⟨refuse_quiet _ _ _ rfl, Or.inr ⟨mailbox, found, may, by rw [looped]; rfl⟩⟩
      case h_2 _ looped =>
        exact ⟨refuse_quiet _ _ _ rfl, Or.inr ⟨mailbox, found, may, by rw [looped]; rfl⟩⟩
      case h_3 looped =>
        exact ⟨refuse_quiet _ _ _ rfl, Or.inr ⟨mailbox, found, may, by rw [looped]; rfl⟩⟩

theorem handle_delete_cases (faults : Faults) (store : MailStore) (session : Session) (name : Bytes) :
    let outcome := handleDELETE faults store session name
    Quiet session outcome ∧ (outcome.store = store ∨
      ∃ mailbox, lookupDestination faults store session.pid name = .found mailbox ∧
        store.deleteMailbox mailbox.id = .ok outcome.store) := by
  simp only [handleDELETE]
  split
  case h_1 => exact ⟨refuse_quiet _ _ _ rfl, Or.inl rfl⟩
  case h_2 => exact ⟨refuse_quiet _ _ _ rfl, Or.inl rfl⟩
  case h_3 mailbox found =>
    split
    case isTrue => exact ⟨refuse_quiet _ _ _ rfl, Or.inl rfl⟩
    case isFalse =>
      split
      case h_1 => exact ⟨refuse_quiet _ _ _ rfl, Or.inl rfl⟩
      case h_2 after ok =>
        refine ⟨refuse_quiet _ _ _ rfl, Or.inr ⟨mailbox, found, ?_⟩⟩
        split at ok
        · simp at ok
        · exact ok

/-- A rule for what every round of a `STORE` keeps, with the sequence numbers
still to do. -/
theorem store_loop_keeps (faults : Faults) (command : StoreCommand)
    (Invariant : List Nat → MailStore → Selected → List Bytes → Prop)
    (round : ∀ seq seqs store sel shared, Invariant (seq :: seqs) store sel shared →
      match storeMessage faults command store sel shared seq with
      | .skipped => Invariant seqs store sel shared
      | .applied after sel' shared' _ => Invariant seqs after sel' shared'
      | .rejected after shared' _ => Invariant seqs after sel shared'
      | .stopped after _ => ∃ shared', Invariant seqs after sel shared')
    (seqs : List Nat) (rejected : List (Nat × Nat)) (shared : List Bytes) (store : MailStore)
    (sel : Selected) (holds : Invariant seqs store sel shared) :
    ∃ left shared', Invariant left (storeLoop faults command seqs rejected shared store sel).1
      (storeLoop faults command seqs rejected shared store sel).2.1 shared' := by
  induction seqs generalizing rejected shared store sel with
  | nil => exact ⟨[], shared, holds⟩
  | cons seq seqs ih =>
    have kept := round seq seqs store sel shared holds
    rw [storeLoop]
    cases stepped : storeMessage faults command store sel shared seq with
    | skipped =>
      rw [stepped] at kept
      exact ih rejected shared store sel kept
    | applied after sel' shared' responses =>
      rw [stepped] at kept
      exact ih rejected shared' after sel' kept
    | rejected after shared' uid =>
      rw [stepped] at kept
      exact ih (rejected ++ [(seq, uid)]) shared' after sel kept
    | stopped after response =>
      rw [stepped] at kept
      exact ⟨seqs, kept⟩

theorem message_at_pos (sel : Selected) (seq : Nat) (row : MessageMailbox)
    (here : messageAt sel seq = some row) : 0 < seq ∧ sel.msgs[seq - 1]? = some row := by
  unfold messageAt at here
  split at here
  · simp at here
  · exact ⟨by omega, here⟩

theorem message_at_distinct (sel : Selected) (left right : Nat) (first second : MessageMailbox)
    (here : messageAt sel left = some first) (there : messageAt sel right = some second)
    (same : first.messageID = second.messageID) : left = right := by
  obtain ⟨leftPos, leftAt⟩ := message_at_pos sel left first here
  obtain ⟨rightPos, rightAt⟩ := message_at_pos sel right second there
  obtain ⟨leftInside, leftRow⟩ := List.getElem?_eq_some_iff.mp leftAt
  obtain ⟨rightInside, rightRow⟩ := List.getElem?_eq_some_iff.mp rightAt
  have apart := List.pairwise_iff_getElem.mp sel.distinct
  rcases Nat.lt_trichotomy (left - 1) (right - 1) with before | equal | after
  · refine absurd ?_ (apart (left - 1) (right - 1) leftInside rightInside before)
    rw [leftRow, rightRow, same]
  · omega
  · refine absurd ?_ (apart (right - 1) (left - 1) rightInside leftInside after)
    rw [leftRow, rightRow, same]

theorem expand_ranges_nodup (positions : NumRange → List Nat)
    (distinct : ∀ range, (positions range).Nodup) (set : NumSet) (out : List Nat)
    (before : out.Nodup) : (expandRanges positions set out).Nodup := by
  induction set generalizing out with
  | nil => exact before
  | cons range set ih =>
    rw [expandRanges]
    refine ih _ ?_
    rw [List.nodup_append]
    refine ⟨before, (distinct range).filter _, ?_⟩
    intro left leftMember right rightMember same
    have outside := of_decide_eq_true (List.mem_filter.mp rightMember).2
    exact outside (same ▸ leftMember)

theorem positions_where_nodup (chosen : MessageMailbox → Bool) (msgs : List MessageMailbox) :
    (positionsWhere chosen msgs).Nodup := by
  have ascend : (msgs.zipIdx 1).Pairwise fun left right => left.2 < right.2 := by
    rw [← List.pairwise_map, List.zipIdx_map_snd]
    exact List.pairwise_lt_range'
  rw [positionsWhere, List.Nodup, List.pairwise_filterMap]
  refine ascend.imp ?_
  rintro ⟨leftRow, left⟩ ⟨rightRow, right⟩ before first firstSome second secondSome same
  simp only [Option.ite_none_right_eq_some, Option.some.injEq] at firstSome secondSome before
  omega

theorem expand_set_nodup (sel : Selected) (set : NumSet) (byUID : Bool) :
    (expandSet sel set byUID).Nodup := by
  unfold expandSet
  split
  · exact expand_ranges_nodup _ (fun range => positions_where_nodup _ _) set [] List.nodup_nil
  · refine expand_ranges_nodup _ ?_ set [] List.nodup_nil
    intro range
    exact List.nodup_range'

def Selects (session : Session) (pid : PrincipalID) (mailbox : MailboxID) (readOnly : Bool) : Prop :=
  session.pid = pid ∧ ∃ sel, session.sel = some sel ∧ sel.id = mailbox ∧ sel.readOnly = readOnly

def Command.leaves : Command → Bool
  | .select _ _ _ _ | .unselect => true
  | _ => false

def Label.stays : Label → Bool
  | .command _ issued => !issued.leaves
  | .change _ => true

section

variable (faults : Faults) (store : MailStore) (session : Session) (sel : Selected)
  (command : Command) (outcome : Outcome)

theorem reloaded_same :
    (reloaded faults store sel).id = sel.id ∧ (reloaded faults store sel).readOnly = sel.readOnly := by
  unfold reloaded
  cases loaded : reloadSelected faults store sel with
  | none => exact ⟨rfl, rfl⟩
  | some fresh =>
    unfold reloadSelected at loaded
    split at loaded
    · simp at loaded
    · obtain ⟨mailbox, _, rfl⟩ := Option.map_eq_some_iff.mp loaded
      exact ⟨rfl, rfl⟩

theorem reload_and_count_same (due : Bool) (sel : Selected) :
    (reloadAndCount faults store due sel).1.id = sel.id ∧
      (reloadAndCount faults store due sel).1.readOnly = sel.readOnly := by
  have same := reloaded_same faults store sel
  unfold reloaded at same
  unfold reloadAndCount
  split
  · exact ⟨rfl, rfl⟩
  · cases loaded : reloadSelected faults store sel with
    | none => exact ⟨rfl, rfl⟩
    | some fresh => simpa [loaded] using same

theorem report_changed_same (message : MessageID) :
    (reportChanged faults store sel message).1.id = sel.id ∧
      (reportChanged faults store sel message).1.readOnly = sel.readOnly := by
  unfold reportChanged
  split
  · exact ⟨rfl, rfl⟩
  · split
    · exact ⟨rfl, rfl⟩
    · split
      · exact ⟨rfl, rfl⟩
      · split <;> exact ⟨rfl, rfl⟩

theorem report_all_same (messages : List MessageID) (sel : Selected) :
    (reportAll faults store messages sel).1.id = sel.id ∧
      (reportAll faults store messages sel).1.readOnly = sel.readOnly := by
  induction messages generalizing sel with
  | nil => exact ⟨rfl, rfl⟩
  | cons message messages ih =>
    have first := report_changed_same faults store sel message
    have later := ih (reportChanged faults store sel message).1
    rw [reportAll]
    exact ⟨later.1.trans first.1, later.2.trans first.2⟩

theorem poll_same (cursor : Nat) (selected : session.sel = some sel) :
    ∃ sel', (pollIDLE faults store session sel cursor).session.sel = some sel' ∧ sel'.id = sel.id ∧
      sel'.readOnly = sel.readOnly := by
  unfold pollIDLE
  split
  · exact ⟨sel, selected, rfl, rfl⟩
  · let changes := store.readChangeFeedAll session.pid cursor 1024
    let grown := reloadAndCount faults store (changes.any (relevant sel.id .created)) sel
    let shrunk := reloadAndCount faults store (changes.any (relevant sel.id .destroyed)) grown.1
    have first := reload_and_count_same faults store (changes.any (relevant sel.id .created)) sel
    have second := reload_and_count_same faults store (changes.any (relevant sel.id .destroyed)) grown.1
    have third := report_all_same faults store
      ((changes.filter (relevant sel.id .updated)).map StateChange.entityID) shrunk.1
    exact ⟨_, rfl, third.1.trans (second.1.trans first.1), third.2.trans (second.2.trans first.2)⟩

/-- One round of a `STORE` keeps the mailbox and its mode. -/
theorem store_message_same (command : StoreCommand) (store after : MailStore)
    (sel sel' : Selected) (shared shared' : List Bytes) (seq : Nat) (responses : List Response)
    (stepped : storeMessage faults command store sel shared seq =
      .applied after sel' shared' responses) :
    sel'.id = sel.id ∧ sel'.readOnly = sel.readOnly := by
  have round := store_message_round faults command store sel shared seq
  rw [stepped] at round
  obtain ⟨row, _, _, _, _, _, _, readBack⟩ := round
  rcases readBack with ⟨rfl, _⟩ | ⟨_, _, sameID, _, sameMode, _⟩
  · exact ⟨rfl, rfl⟩
  · exact ⟨sameID, sameMode⟩

theorem store_same (command : StoreCommand) (selected : session.sel = some sel) :
    (handleSTORE faults store session command).session.pid = session.pid ∧
      ∃ sel', (handleSTORE faults store session command).session.sel = some sel' ∧ sel'.id = sel.id ∧
        sel'.readOnly = sel.readOnly := by
  simp only [handleSTORE, selected]
  split
  · exact ⟨rfl, sel, selected, rfl, rfl⟩
  · obtain ⟨_, _, same⟩ := store_loop_keeps faults command
      (fun _ _ list _ => list.id = sel.id ∧ list.readOnly = sel.readOnly) (by
        intro seq seqs between list shared same
        cases stepped : storeMessage faults command between list shared seq with
        | skipped => exact same
        | applied after list' shared' responses =>
          have kept := store_message_same _ _ _ _ _ _ _ _ _ _ stepped
          exact ⟨kept.1.trans same.1, kept.2.trans same.2⟩
        | rejected after shared' uid => exact same
        | stopped after response => exact ⟨shared, same⟩)
      (expandSet sel command.set command.isUID) [] (initialClear command) store sel ⟨rfl, rfl⟩
    exact ⟨rfl, _, rfl, same⟩

/-- Only `SELECT`, `EXAMINE`, `CLOSE` and `UNSELECT` leave the selected mailbox. -/
theorem dispatch_selects (pid : PrincipalID) (mailbox : MailboxID)
    (readOnly : Bool) (selects : Selects session pid mailbox readOnly)
    (stays : command.leaves = false) (ran : dispatch faults store session command = some outcome) :
    Selects outcome.session pid mailbox readOnly := by
  obtain ⟨who, sel, selected, place, mode⟩ := selects
  have unchanged : ∀ after : Session, after.pid = session.pid → after.sel = session.sel →
      Selects after pid mailbox readOnly := by
    intro after samePid sameSel
    exact ⟨samePid.trans who, sel, sameSel.trans selected, place, mode⟩
  have replaced : ∀ (after : Session) (list : Selected), after.pid = session.pid →
      after.sel = some list → list.id = sel.id → list.readOnly = sel.readOnly →
      Selects after pid mailbox readOnly := by
    intro after list samePid sameSel sameID sameMode
    exact ⟨samePid.trans who, list, sameSel, sameID.trans place, sameMode.trans mode⟩
  have quiet : Quiet session outcome → Selects outcome.session pid mailbox readOnly := by
    intro quiet
    exact unchanged _ (by rw [quiet.session]) (by rw [quiet.session])
  have reload : ∀ after : MailStore,
      outcome.session = { session with sel := some (reloaded faults after sel) } →
      Selects outcome.session pid mailbox readOnly := by
    intro after same
    obtain ⟨sameID, sameMode⟩ := reloaded_same faults after sel
    exact replaced _ _ (by rw [same]) (by rw [same]) sameID sameMode
  cases idling : session.idle with
  | some cursor =>
    cases command with
    | poll =>
      simp only [dispatch, idling, selected, Option.map_some, Option.some.injEq] at ran
      obtain ⟨list, sameSel, sameID, sameMode⟩ := poll_same faults store session sel cursor selected
      rw [← ran]
      refine replaced _ list ?_ sameSel sameID sameMode
      unfold pollIDLE
      split <;> rfl
    | done =>
      simp only [dispatch, idling, Option.some.injEq] at ran
      rw [← ran]
      exact unchanged _ rfl rfl
    | _ => simp [dispatch, idling] at ran
  | none =>
    cases command with
    | poll | done => simp [dispatch, idling] at ran
    | select | unselect => simp [Command.leaves] at stays
    | noop | search =>
      simp only [dispatch, idling, Option.some.injEq, selected] at ran
      rw [← ran]
      exact unchanged _ rfl rfl
    | enable =>
      simp only [dispatch, idling, Option.some.injEq] at ran
      rw [← ran]
      exact unchanged _ rfl rfl
    | fetch fetching =>
      simp only [dispatch, idling, Option.some.injEq, handleFETCH, selected] at ran
      rw [← ran]
      exact unchanged _ rfl selected.symm
    | idle =>
      simp only [dispatch, idling, Option.some.injEq, startIDLE, selected] at ran
      rw [← ran]
      exact unchanged _ rfl selected.symm
    | store storing =>
      simp only [dispatch, idling, Option.some.injEq] at ran
      obtain ⟨samePid, list, sameSel, sameID, sameMode⟩ :=
        store_same faults store session sel storing selected
      rw [← ran]
      exact replaced _ list samePid sameSel sameID sameMode
    | expunge =>
      simp only [dispatch, idling, Option.some.injEq] at ran
      subst ran
      rcases handle_expunge_cases faults store session sel false none selected with
        untouched | ⟨_, _, session', _⟩
      · exact quiet untouched.1
      · exact reload _ session'
    | uidExpunge set =>
      simp only [dispatch, idling, Option.some.injEq] at ran
      subst ran
      rcases handle_expunge_cases faults store session sel true (some set) selected with
        untouched | ⟨_, _, session', _⟩
      · exact quiet untouched.1
      · exact reload _ session'
    | move set isUID name =>
      simp only [dispatch, idling, Option.some.injEq] at ran
      subst ran
      rcases handle_move_cases faults store session sel set isUID name selected with
        untouched | ⟨_, _, _, copied | ⟨_, session', _⟩⟩
      · exact quiet untouched.1
      · exact quiet copied.1
      · exact reload _ session'
    | copy set isUID name =>
      simp only [dispatch, idling, Option.some.injEq] at ran
      subst ran
      exact quiet (handle_copy_cases faults store session sel set isUID name selected).1
    | append name items =>
      simp only [dispatch, idling, Option.some.injEq] at ran
      subst ran
      exact quiet (handle_append_cases faults store session name items).1
    | delete name =>
      simp only [dispatch, idling, Option.some.injEq] at ran
      subst ran
      exact quiet (handle_delete_cases faults store session name).1

theorem poll_store (cursor : Nat) : (pollIDLE faults store session sel cursor).store = store := by
  unfold pollIDLE
  split <;> rfl

theorem select_pid (name : Bytes) (readOnly condstore qresync : Bool) :
    (handleSELECT faults store session name readOnly condstore qresync).session.pid = session.pid ∧
      (handleSELECT faults store session name readOnly condstore qresync).store = store := by
  unfold handleSELECT
  split
  · exact ⟨rfl, rfl⟩
  · exact ⟨rfl, rfl⟩
  · exact ⟨rfl, rfl⟩
  · split
    · exact ⟨rfl, rfl⟩
    · split <;> exact ⟨rfl, rfl⟩

/-- Without a selected mailbox only `APPEND` and `DELETE` get to the store. -/
theorem dispatch_unselected (unselected : session.sel = none)
    (ran : dispatch faults store session command = some outcome) :
    outcome.session.pid = session.pid ∧
      (outcome.store = store ∨ (∃ name items, command = .append name items) ∨
        ∃ name, command = .delete name) := by
  cases idling : session.idle with
  | some cursor =>
    cases command with
    | poll => simp [dispatch, idling, unselected] at ran
    | done =>
      simp only [dispatch, idling, Option.some.injEq] at ran
      rw [← ran]
      exact ⟨rfl, Or.inl rfl⟩
    | _ => simp [dispatch, idling] at ran
  | none =>
    cases command with
    | poll | done => simp [dispatch, idling] at ran
    | noop | enable =>
      simp only [dispatch, idling, Option.some.injEq] at ran
      rw [← ran]
      exact ⟨rfl, Or.inl rfl⟩
    | select name readOnly condstore qresync =>
      simp only [dispatch, idling, Option.some.injEq] at ran
      obtain ⟨samePid, sameStore⟩ := select_pid faults store session name readOnly condstore qresync
      rw [← ran]
      exact ⟨samePid, Or.inl sameStore⟩
    | append name items =>
      simp only [dispatch, idling, Option.some.injEq] at ran
      rw [← ran, (handle_append_cases faults store session name items).1.session]
      exact ⟨rfl, Or.inr (Or.inl ⟨name, items, rfl⟩)⟩
    | delete name =>
      simp only [dispatch, idling, Option.some.injEq] at ran
      rw [← ran, (handle_delete_cases faults store session name).1.session]
      exact ⟨rfl, Or.inr (Or.inr ⟨name, rfl⟩)⟩
    | unselect =>
      simp only [dispatch, idling, handleUNSELECT, unselected, Option.some.injEq] at ran
      rw [← ran]
      exact ⟨rfl, Or.inl rfl⟩
    | fetch fetching =>
      simp only [dispatch, idling, handleFETCH, unselected, Option.some.injEq] at ran
      rw [← ran]
      exact ⟨rfl, Or.inl rfl⟩
    | search =>
      simp only [dispatch, idling, unselected, Option.isNone_none, if_true, Option.some.injEq] at ran
      rw [← ran]
      exact ⟨rfl, Or.inl rfl⟩
    | store storing =>
      simp only [dispatch, idling, handleSTORE, unselected, Option.some.injEq] at ran
      rw [← ran]
      exact ⟨rfl, Or.inl rfl⟩
    | expunge | uidExpunge =>
      simp only [dispatch, idling, handleEXPUNGE, unselected, Option.some.injEq] at ran
      rw [← ran]
      exact ⟨rfl, Or.inl rfl⟩
    | move =>
      simp only [dispatch, idling, handleMOVE, unselected, Option.some.injEq] at ran
      rw [← ran]
      exact ⟨rfl, Or.inl rfl⟩
    | copy =>
      simp only [dispatch, idling, handleCOPY, unselected, Option.some.injEq] at ran
      rw [← ran]
      exact ⟨rfl, Or.inl rfl⟩
    | idle =>
      simp only [dispatch, idling, startIDLE, unselected, Option.some.injEq] at ran
      rw [← ran]
      exact ⟨rfl, Or.inl rfl⟩

theorem dispatch_pid (ran : dispatch faults store session command = some outcome) :
    outcome.session.pid = session.pid := by
  cases selected : session.sel with
  | none => exact (dispatch_unselected faults store session command outcome selected ran).1
  | some sel =>
    cases stays : command.leaves with
    | false => exact (dispatch_selects faults store session command outcome session.pid sel.id
        sel.readOnly ⟨rfl, sel, selected, rfl, rfl⟩ stays ran).1
    | true =>
      cases idling : session.idle with
      | some cursor => cases command <;> simp [dispatch, idling, Command.leaves] at ran stays
      | none =>
        cases command with
        | select name readOnly condstore qresync =>
          simp only [dispatch, idling, Option.some.injEq] at ran
          rw [← ran]
          exact (select_pid faults store session name readOnly condstore qresync).1
        | unselect =>
          simp only [dispatch, idling, handleUNSELECT, selected, Option.some.injEq] at ran
          rw [← ran]
        | _ => simp [Command.leaves] at stays

end

end Herold.Imap

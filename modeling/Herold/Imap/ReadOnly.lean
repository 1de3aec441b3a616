import Herold.Imap.System

/-!
# A mailbox opened with EXAMINE

`EXAMINE` notes in the session that the mailbox is read-only, and answers with
that code. No other handler looks at the note, so what a session may do to an
examined mailbox depends on its rights alone.
-/

namespace Herold.Imap

open Herold.Go Herold.Store Herold.Machine

def Command.addressesSelected : Command → Bool
  | .fetch _ | .search | .store _ | .expunge | .uidExpunge _ | .move _ _ _ | .copy _ _ _ | .idle
  | .poll | .done => true
  | _ => false

/-- The command has no message of the selected mailbox to write to: the rights
do not reach, or nothing is named, or there is no place to move it to. -/
def WritesNothing (system : System) : Label → Prop
  | .change _ => True
  | .command faults command =>
    ∀ sel ∈ system.session.sel,
      match command with
      | .store storing =>
        requireStoreRights faults system.store system.session sel storing.flags = false ∨
          expandSet sel storing.set storing.isUID = []
      | .expunge =>
        ¬MayExpunge faults system.store system.session sel ∨ victims sel false none = []
      | .uidExpunge set =>
        ¬MayExpunge faults system.store system.session sel ∨ victims sel true (some set) = []
      | .move set isUID name =>
        expandSet sel set isUID = [] ∨
          (lookupDestination faults system.store system.session.pid name).satisfies
            (fun _ => true) = false
      | .copy set isUID name =>
        expandSet sel set isUID = [] ∨
          (lookupDestination faults system.store system.session.pid name).satisfies
            (fun dest => dest.id = sel.id) = false
      | _ => True

instance (system : System) (label : Label) : Decidable (WritesNothing system label) := by
  cases label with
  | change => exact isTrue trivial
  | command faults command => cases command <;> unfold WritesNothing <;> infer_instance

section

variable (faults : Faults) (store : MailStore) (session : Session)

/-- An `EXPUNGE` without messages to remove leaves the store alone. -/
theorem idle_expunge_store (sel : Selected)
    (isUID : Bool) (set : Option NumSet) (selected : session.sel = some sel)
    (nothing : ¬MayExpunge faults store session sel ∨ victims sel isUID set = []) :
    (handleEXPUNGE faults store session isUID set).store = store := by
  rcases handle_expunge_cases faults store session sel isUID set selected with
    ⟨_, same⟩ | ⟨may, expunged, _⟩
  · exact same
  · rcases nothing with refused | none
    · exact absurd may refused
    · rw [none, List.map_nil, MailStore.expungeMessages, if_pos rfl, Except.ok.injEq] at expunged
      exact expunged.symm

theorem idle_store_store (sel : Selected)
    (command : StoreCommand) (selected : session.sel = some sel)
    (nothing : requireStoreRights faults store session sel command.flags = false ∨
      expandSet sel command.set command.isUID = []) :
    (handleSTORE faults store session command).store = store := by
  simp only [handleSTORE, selected]
  split
  · rfl
  · rename_i permitted
    rcases nothing with refused | none
    · exact absurd refused permitted
    · rw [none]
      rfl

theorem dispatch_writes_nothing (system : System) (sel : Selected)
    (command : Command) (outcome : Outcome) (selected : system.session.sel = some sel)
    (addressed : command.addressesSelected = true)
    (nothing : WritesNothing system (.command faults command))
    (ran : dispatch faults system.store system.session command = some outcome)
    (message : MessageID) :
    outcome.store.member? message sel.id = system.store.member? message sel.id := by
  have here := nothing sel selected
  cases idling : system.session.idle with
  | some cursor =>
    cases command with
    | poll =>
      simp only [dispatch, idling, selected, Option.map_some, Option.some.injEq] at ran
      rw [← ran, poll_store]
    | done =>
      simp only [dispatch, idling, Option.some.injEq] at ran
      rw [← ran]
    | _ => simp [dispatch, idling] at ran
  | none =>
    cases command with
    | noop | select | unselect | enable | append | delete =>
      simp [Command.addressesSelected] at addressed
    | poll | done => simp [dispatch, idling] at ran
    | search =>
      simp only [dispatch, idling, selected, Option.some.injEq] at ran
      rw [← ran]
      rfl
    | fetch fetching =>
      simp only [dispatch, idling, handleFETCH, selected, Option.some.injEq] at ran
      rw [← ran]
    | idle =>
      simp only [dispatch, idling, startIDLE, selected, Option.some.injEq] at ran
      rw [← ran]
    | store storing =>
      simp only [dispatch, idling, Option.some.injEq] at ran
      rw [← ran, idle_store_store faults system.store system.session sel storing selected here]
    | expunge =>
      simp only [dispatch, idling, Option.some.injEq] at ran
      rw [← ran, idle_expunge_store faults system.store system.session sel false none selected here]
    | uidExpunge set =>
      simp only [dispatch, idling, Option.some.injEq] at ran
      rw [← ran,
        idle_expunge_store faults system.store system.session sel true (some set) selected here]
    | move set isUID name =>
      simp only [dispatch, idling, Option.some.injEq] at ran
      subst ran
      rcases handle_move_cases faults system.store system.session sel set isUID name selected with
        ⟨_, same⟩ | ⟨dest, found, named, _⟩
      · rw [same]
      · rcases here with none | missing
        · exact absurd none named
        · rw [found] at missing
          simp [Destination.satisfies] at missing
    | copy set isUID name =>
      simp only [dispatch, idling, Option.some.injEq] at ran
      subst ran
      rcases (handle_copy_cases faults system.store system.session sel set isUID name selected).2 with
        same | ⟨dest, found, copied⟩
      · rw [same]
      · rw [copied]
        rcases here with none | away
        · rw [none]
          rfl
        · refine (copy_loop_grown faults system.session.pid sel.id dest false _ 0
            system.store).elsewhere message sel.id ?_
          rw [found] at away
          exact fun same => absurd same.symm (of_decide_eq_false away)

/-- The session has the mailbox open, and no command of the log has touched it. -/
structure Preserved (pid : PrincipalID) (mailbox : MailboxID) (system : System) : Prop where
  examined : Selects system.session pid mailbox true
  log : ∀ entry ∈ system.log, entry.command.addressesSelected = true →
    ∀ message, holding entry.after mailbox message = holding entry.before mailbox message

theorem preserved_step (pid : PrincipalID) (mailbox : MailboxID) (system next : System)
    (label : Label) (preserved : Preserved pid mailbox system)
    (allowed : label.stays = true ∧ WritesNothing system label)
    (stepped : system.step label = some next) : Preserved pid mailbox next := by
  obtain ⟨stays, nothing⟩ := allowed
  cases label with
  | change after =>
    simp only [System.step, Option.some.injEq] at stepped
    rw [← stepped]
    exact ⟨preserved.examined, preserved.log⟩
  | command faults command =>
    simp only [System.step] at stepped
    obtain ⟨outcome, ran, rfl⟩ := Option.map_eq_some_iff.mp stepped
    refine ⟨dispatch_selects faults system.store system.session command outcome pid mailbox true
      preserved.examined (by simpa [Label.stays] using stays) ran, ?_⟩
    intro entry member addressed message
    rcases List.mem_append.mp member with before | now
    · exact preserved.log entry before addressed message
    · rw [List.mem_singleton] at now
      rw [now] at addressed ⊢
      obtain ⟨_, sel, selected, place, _⟩ := preserved.examined
      refine holding_of_member _ _ mailbox message ?_
      rw [← place]
      exact dispatch_writes_nothing faults system sel command outcome selected addressed nothing ran
        message

/-- As long as a session stays in a mailbox it examines and its commands have
nothing to write there, no command on that mailbox changes the flags, keywords
or membership of a message. -/
theorem examined_mailbox_preserved (start final : System) (pid : PrincipalID) (mailbox : MailboxID)
    (labels : List Label) (examined : Selects start.session pid mailbox true) (fresh : start.log = [])
    (staying : ∀ label ∈ labels, label.stays = true)
    (meets : systemMachine.Meets WritesNothing start labels)
    (ran : systemMachine.execute start labels = some final) :
    ∀ entry ∈ final.log, entry.command.addressesSelected = true →
      ∀ message, holding entry.after mailbox message = holding entry.before mailbox message := by
  have opening : Preserved pid mailbox start := by
    refine ⟨examined, ?_⟩
    rw [fresh]
    simp
  exact (Machine.meets_keeps systemMachine _ (Preserved pid mailbox)
    (fun system label next preserved allowed stepped =>
      preserved_step pid mailbox system next label preserved allowed stepped)
    labels start final opening
    (Machine.meets_labels systemMachine WritesNothing _ labels start meets staying) ran).log

/-- `EXAMINE` opens a mailbox in this way. -/
theorem examine_selects (name : Bytes) (condstore qresync : Bool) (mailbox : Mailbox)
    (found : lookupMailbox faults store session.pid name = .found mailbox)
    (permitted : requireRights faults store session.pid mailbox
      (ACLRights.lookup ||| ACLRights.read) = true)
    (readable : faults .listMessages = false) :
    Selects (handleSELECT faults store session name true condstore qresync).session session.pid
      mailbox.id true := by
  simp only [handleSELECT, found, permitted, readable]
  exact ⟨rfl, selectMailbox store mailbox true, rfl, rfl, rfl⟩

end

def examining : System :=
  { store := twoMessages
    session := (handleSELECT noFaults twoMessages { pid := 7 } (ascii "INBOX") true false
      false).session }

def flagFirst : StoreCommand := { set := [⟨1, 1⟩], op := .add, flags := [ascii "\\Flagged"] }

/-- A `STORE` and an `EXPUNGE` both go through. -/
theorem examined_mailbox_is_written :
    ((systemMachine.execute examining
      [.command noFaults (.store flagFirst), .command noFaults .expunge]).map fun system =>
        system.log.map fun entry => decide (holding entry.after 1 1 = holding entry.before 1 1)) =
      some [false, false] := by
  decide +kernel

def readingOnly : List Label :=
  [.command noFaults (.fetch { set := [⟨1, 2⟩], flags := true, body := true }),
    .command noFaults (.store { flagFirst with set := [⟨9, 9⟩] }), .command noFaults .search]

theorem examined_mailbox_preserved_while_reading :
    ∃ final, systemMachine.execute examining readingOnly = some final ∧ final.log.length = 3 ∧
      ∀ entry ∈ final.log, entry.command.addressesSelected = true →
        ∀ message, holding entry.after 1 message = holding entry.before 1 message := by
  have count : ((systemMachine.execute examining readingOnly).map fun system => system.log.length) =
      some 3 := by decide +kernel
  obtain ⟨final, ran, three⟩ := Option.map_eq_some_iff.mp count
  refine ⟨final, ran, three,
    examined_mailbox_preserved examining final 7 1 readingOnly ?_ rfl ?_ ?_ ran⟩
  · exact examine_selects noFaults twoMessages { pid := 7 } (ascii "INBOX") false false
      { id := 1, principalID := 7, name := ascii "INBOX", uidNext := 3 } (by decide +kernel)
      (by decide +kernel) rfl
  · decide
  · decide +kernel

end Herold.Imap

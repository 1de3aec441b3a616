import Herold.Jmap.Update
import Herold.Store.Keeping
import Herold.Store.Quota

/-!
# The groups of an update and their checks

Each group of a patch is refused by checks that come before anything of it is
carried out. The checks are stated on the account as it is before the update; that
the groups before do not turn them is what the store keeps: the mailboxes stay with
their owners, and the message stays filed where it is to be.
-/

namespace Herold.Jmap

open Herold.Go Herold.Store Herold.Store.Tables Herold.Machine

section Checks

variable (around : Surroundings) (account : Account) (caller owner : PrincipalID)
    (loaded : Loaded) (patch : Patch)

def BodyTaken : Prop :=
  ∃ blob size after, around.assemble loaded.row patch = .built blob size ∧
    account.tables.replaceMessageBody loaded.row.id blob size = .ok after

def FilingRefused : Prop :=
  ∀ desired, desiredMailboxes loaded patch = .ok desired →
    ∃ id ∈ added around loaded desired, (targetRefused account caller owner id).isSome

/-- The message is to go to another mailbox or leave one, or its reminder has to. -/
def FilingAsked : Prop :=
  ∃ desired, desiredMailboxes loaded patch = .ok desired ∧
    (added around loaded desired ≠ [] ∨ removed around loaded desired ≠ [] ∨
      account.tables.consolidateSnooze loaded.row.id ≠ .ok account.tables)

def ReactionsRefused : Prop := ∀ changes, decodeReactionPatches patch caller ≠ .ok changes

def ReactionsAsked : Prop := ∃ changes, decodeReactionPatches patch caller = .ok changes ∧ changes ≠ []

/-- Whether the reminder and the keywords are refused, when a date is set and the
message is only in the trash among others. -/
def MarksRefused (trashed : Prop) : Prop :=
  ∀ action, decodeSnoozeIntent around account owner patch = .ok action →
    ∀ marks, decodeMarks patch = .ok marks →
      bareReminder marks action = true ∨ (∃ until_ wake, action = .set until_ wake) ∧ trashed

def OnlyTrash : Prop :=
  ∀ desired, desiredMailboxes loaded patch = .ok desired → ∀ place ∈ desired,
    account.tables.isTrash place = true

structure Orderly : Prop where
  body : needsBodyRebuild patch = true → BodyTaken around account loaded patch →
    ¬FilingRefused around account caller owner loaded patch ∧ ¬ReactionsRefused caller patch ∧
      ¬MarksRefused around account owner patch (OnlyTrash account loaded patch)
  filing : needsBodyRebuild patch = false → ¬FilingRefused around account caller owner loaded patch →
    FilingAsked around account loaded patch →
      ¬ReactionsRefused caller patch ∧
        ¬MarksRefused around account owner patch (OnlyTrash account loaded patch)
  reactions : needsBodyRebuild patch = false → ¬FilingRefused around account caller owner loaded patch →
    ReactionsAsked caller patch →
      ¬MarksRefused around account owner patch (OnlyTrash account loaded patch)

end Checks

theorem and_then_cases (run : Run) (next : Account → Run) :
    (run.outcome = .updated ∧ run.andThen next = next run.account) ∨
      (run.outcome ≠ .updated ∧ run.andThen next = run) := by
  unfold Run.andThen
  split
  · rename_i updated
    exact Or.inl ⟨updated, rfl⟩
  · rename_i stopped
    exact Or.inr ⟨stopped, rfl⟩

theorem attempt_refused {account : Account} {result : Except MailError Tables} {error : SetError}
    (refused : (Run.attempt account result).outcome = .refused error) :
    result = .error .notFound ∧ (Run.attempt account result).account = account := by
  unfold Run.attempt at refused ⊢
  split at refused
  · cases refused
  · exact ⟨rfl, rfl⟩
  · cases refused

theorem attempt_updated {account : Account} {result : Except MailError Tables}
    (updated : (Run.attempt account result).outcome = .updated) :
    ∃ tables, result = .ok tables ∧ (Run.attempt account result).account = { account with tables } := by
  unfold Run.attempt at updated ⊢
  split at updated
  · exact ⟨_, rfl, rfl⟩
  · cases updated
  · cases updated

structure Carried (message : MessageID) (mayGo : MailboxID → Prop) (before after : Account) : Prop where
  keeping : Keeping message mayGo before.tables after.tables
  numbered : Numbered before.tables → Numbered after.tables

section Carried

variable {message : MessageID} {mayGo : MailboxID → Prop} {first second third : Account}

theorem carried_refl (account : Account) : Carried message mayGo account account :=
  ⟨keeping_refl _, fun numbered => numbered⟩

theorem carried_trans (earlier : Carried message mayGo first second)
    (later : Carried message mayGo second third) :
    Carried message mayGo first third :=
  ⟨keeping_trans earlier.keeping later.keeping, fun numbered =>
    later.numbered (earlier.numbered numbered)⟩

end Carried

theorem loaded_message {account : Account} {id : MessageID} {loaded : Loaded}
    (found : account.getMessage id = some loaded) :
    account.tables.message? id = some loaded.row ∧ loaded.row.id = id ∧
      ∀ row, row ∈ loaded.mailboxes ↔ row ∈ account.tables.members ∧ row.messageID = id := by
  unfold Account.getMessage at found
  obtain ⟨row, here, rfl⟩ := Option.map_eq_some_iff.mp found
  have same : row.id = id := by simpa using List.find?_some here
  refine ⟨here, same, fun filing => ?_⟩
  rw [List.mem_insertionSort]
  simp [rowsOf]

theorem load_message {account : Account} {caller : PrincipalID} {id : MessageID} {loaded : Loaded}
    (found : account.loadMessage caller id = some loaded) :
    account.getMessage id = some loaded ∧ loaded.mailboxes ≠ [] := by
  unfold Account.loadMessage at found
  obtain ⟨got, sees⟩ := Option.filter_eq_some_iff.mp found
  refine ⟨got, ?_⟩
  rintro empty
  rw [empty] at sees
  cases sees

theorem current_filed {account : Account} {id : MessageID} {loaded : Loaded}
    (found : account.getMessage id = some loaded) (some_ : loaded.mailboxes ≠ []) (place : MailboxID) :
    place ∈ loaded.current ↔ Filed account.tables id place := by
  obtain ⟨_, _, rows⟩ := loaded_message found
  unfold Loaded.current
  rw [if_neg (by simpa using some_), List.mem_map]
  constructor
  · rintro ⟨row, member, rfl⟩
    exact ⟨row, ((rows row).mp member).1, ((rows row).mp member).2, rfl⟩
  · rintro ⟨row, member, here, rfl⟩
    exact ⟨row, (rows row).mpr ⟨member, here⟩, rfl⟩

theorem main_mailbox_filed {account : Account} {loaded : Loaded}
    (rows : ∀ row ∈ loaded.mailboxes, Filed account.tables loaded.row.id row.mailboxID)
    (some_ : loaded.mailboxes ≠ []) : Filed account.tables loaded.row.id loaded.mailboxID := by
  obtain ⟨row, others, listed⟩ := List.exists_cons_of_ne_nil some_
  have here := rows row (by rw [listed]; exact List.mem_cons_self)
  unfold Loaded.mailboxID
  rw [listed]
  exact here

theorem snooze_found {tables : Tables} {message : MessageID} {mailbox : MailboxID}
    (housed : Housed tables)
    (filed : Filed tables message mailbox) (until? : Option Micros) (wake : Option MailboxID) :
    tables.setSnooze message mailbox until? wake ≠ .error .notFound := by
  intro ran
  obtain ⟨_, missing | missing⟩ := set_snooze_error ran
  · have there := filed_iff.mp filed
    rw [missing] at there
    cases there
  · obtain ⟨row, member, _, rfl⟩ := filed
    have house := housed row member
    rw [missing] at house
    cases house

theorem flags_found {tables : Tables} {message : MessageID} {mailbox : MailboxID}
    (housed : Housed tables)
    (filed : Filed tables message mailbox) (set clear : MessageFlags)
    (keywordAdd keywordClear : List Bytes) :
    tables.updateMessageFlags message mailbox set clear keywordAdd keywordClear 0 ≠
      .error .notFound := by
  intro ran
  rcases bind_error ran with missing | ⟨_, _, later⟩
  · have there := filed_iff.mp filed
    rw [(require_error missing).1] at there
    cases there
  rcases bind_error later with stale | ⟨_, _, later⟩
  · rw [if_neg (fun stale => stale.1 rfl)] at stale
    cases stale
  rcases bind_error later with missing | ⟨_, _, ended⟩
  · obtain ⟨row, member, _, rfl⟩ := filed
    have house := housed row member
    rw [(require_error missing).1] at house
    cases house
  · cases ended

theorem clear_snooze_stands {message : MessageID} (keep : MailboxID) {rows : List Membership}
    (account : Account)
    (housed : Housed account.tables)
    (filed : ∀ row ∈ rows, Filed account.tables message row.mailboxID) :
    (∀ error, (clearSnoozeExcept message keep rows account).outcome ≠ .refused error) ∧
      ∀ mayGo, Keeping message mayGo account.tables
        (clearSnoozeExcept message keep rows account).account.tables := by
  induction rows generalizing account with
  | nil => exact ⟨fun _ refused => (by cases refused), fun _ => keeping_refl _⟩
  | cons row rows ih =>
    have rest : ∀ row ∈ rows, Filed account.tables message row.mailboxID := fun other member =>
      filed other (List.mem_cons_of_mem _ member)
    rw [clearSnoozeExcept]
    split
    · exact ih account housed rest
    · rcases and_then_cases (Run.attempt account
        (account.tables.setSnooze message row.mailboxID none none))
          (clearSnoozeExcept message keep rows) with ⟨updated, next⟩ | ⟨stopped, same⟩
      · obtain ⟨tables, ran, after⟩ := attempt_updated updated
        have step : ∀ mayGo, Keeping message mayGo account.tables tables := fun _ => keeping_snooze ran
        rw [next, after]
        obtain ⟨stands, keeps⟩ := ih { account with tables } ((step fun _ => False).housed housed)
          fun other member =>
          (step fun _ => False).stays _ (fun never => never) (rest other member)
        exact ⟨stands, fun mayGo => keeping_trans (step mayGo) (keeps mayGo)⟩
      · rw [same]
        refine ⟨fun error refused => ?_, fun mayGo => ?_⟩
        · exact snooze_found housed (filed row List.mem_cons_self) none none (attempt_refused refused).1
        · unfold Run.attempt at stopped ⊢
          split at stopped
          · exact absurd rfl stopped
          · exact keeping_refl _
          · exact keeping_refl _

theorem remind_stands {account : Account} (owner : PrincipalID) {loaded : Loaded}
    (action : SnoozeAction)
    (housed : Housed account.tables) (some_ : loaded.mailboxes ≠ [])
    (rows : ∀ row ∈ loaded.mailboxes, Filed account.tables loaded.row.id row.mailboxID) :
    (∀ error, (remind account owner loaded action).outcome = .refused error →
      (remind account owner loaded action).account = account ∧
      (∃ until_ wake, action = .set until_ wake) ∧
        snoozeTarget account loaded = none) ∧
      ∀ mayGo, Keeping loaded.row.id mayGo account.tables
        (remind account owner loaded action).account.tables := by
  have kept : ∀ result : Except MailError Tables, (∀ tables mayGo, result = .ok tables →
      Keeping loaded.row.id mayGo account.tables tables) → ∀ mayGo,
        Keeping loaded.row.id mayGo account.tables (Run.attempt account result).account.tables := by
    intro result keeps mayGo
    unfold Run.attempt
    split
    · exact keeps _ mayGo rfl
    · exact keeping_refl _
    · exact keeping_refl _
  cases action with
  | unchanged => exact ⟨fun _ refused => (by cases refused), fun _ => keeping_refl _⟩
  | clear =>
    rw [remind]
    split
    · obtain ⟨stands, keeps⟩ := clear_snooze_stands 0 account housed rows
      exact ⟨fun error refused => absurd refused (stands error), keeps⟩
    · refine ⟨fun error refused => ?_, kept _ fun tables mayGo ran => keeping_snooze ran⟩
      exact absurd (attempt_refused refused).1
        (snooze_found housed (main_mailbox_filed rows some_) none none)
  | set until_ wake =>
    rw [remind]
    split
    · rename_i missing
      exact ⟨fun _ _ => ⟨rfl, ⟨until_, wake, rfl⟩, missing⟩, fun _ => keeping_refl _⟩
    · rename_i target found
      have filed : Filed account.tables loaded.row.id target := by
        unfold snoozeTarget at found
        rw [if_neg (by simpa using some_)] at found
        obtain ⟨row, here, rfl⟩ := Option.map_eq_some_iff.mp found
        exact rows row (List.mem_of_find?_eq_some here)
      rcases and_then_cases (Run.attempt account
        (account.tables.setSnooze loaded.row.id target (some until_)
          (wake <|> resolveInbox account owner)))
            (clearSnoozeExcept loaded.row.id target loaded.mailboxes) with
        ⟨updated, next⟩ | ⟨stopped, same⟩
      · obtain ⟨tables, ran, after⟩ := attempt_updated updated
        have step : ∀ mayGo, Keeping loaded.row.id mayGo account.tables tables :=
          fun _ => keeping_snooze ran
        rw [next, after]
        obtain ⟨stands, keeps⟩ := clear_snooze_stands target { account with tables }
          ((step fun _ => False).housed housed) fun other member =>
            (step fun _ => False).stays _ (fun never => never) (rows other member)
        exact ⟨fun error refused => absurd refused (stands error),
          fun mayGo => keeping_trans (step mayGo) (keeps mayGo)⟩
      · rw [same]
        refine ⟨fun error refused => ?_, kept _ fun tables mayGo ran => keeping_snooze ran⟩
        exact absurd (attempt_refused refused).1 (snooze_found housed filed _ _)

theorem mark_refused {around : Surroundings} {account : Account} {owner : PrincipalID} {loaded : Loaded}
    {patch : Patch} {error : SetError} (housed : Housed account.tables) (some_ : loaded.mailboxes ≠ [])
    (rows : ∀ row ∈ loaded.mailboxes, Filed account.tables loaded.row.id row.mailboxID)
    (refused : (mark around account owner loaded patch).outcome = .refused error) :
    (mark around account owner loaded patch).account = account ∧
      MarksRefused around account owner patch (snoozeTarget account loaded = none) := by
  unfold mark at refused ⊢
  split at refused
  · rename_i snooze
    refine ⟨rfl, fun action decoded => ?_⟩
    rw [snooze] at decoded
    cases decoded
  · rename_i action snooze
    split at refused
    · rename_i marks
      refine ⟨rfl, fun _ _ other decoded => ?_⟩
      rw [marks] at decoded
      cases decoded
    · rename_i marks decodedMarks
      split at refused
      · rename_i bare
        refine ⟨by rw [if_pos bare], fun action' snooze' marks' marksIs => Or.inl ?_⟩
        cases snooze.symm.trans snooze'
        cases decodedMarks.symm.trans marksIs
        exact bare
      · rename_i proper
        rw [if_neg proper]
        obtain ⟨stands, keeps⟩ := remind_stands owner (resolved loaded (marks.delta loaded) action)
          housed some_ rows
        rcases and_then_cases (remind account owner loaded
          (resolved loaded (marks.delta loaded) action))
            (fun account => flag account loaded (marks.delta loaded)) with ⟨updated,
              next⟩ | ⟨stopped, same⟩
        · -- nothing is refused any more once the reminder stands
          have later := keeps fun _ => False
          rw [next] at refused
          unfold flag at refused
          dsimp only at refused
          split at refused
          · cases refused
          · refine absurd (attempt_refused refused).1 (flags_found (later.housed housed) ?_ _ _ _ _)
            exact later.stays _ (fun never => never) (main_mailbox_filed rows some_)
        · rw [same] at refused ⊢
          obtain ⟨account', ⟨until_, wake, isSet⟩, missing⟩ := stands error refused
          refine ⟨account', fun action' snooze' _ _ => Or.inr ⟨⟨until_, wake, ?_⟩, missing⟩⟩
          cases snooze.symm.trans snooze'
          unfold resolved at isSet
          split at isSet
          · cases isSet
          · exact isSet

section Filing

variable {message : MessageID} {mayGo : MailboxID → Prop}

theorem carried_tables {account : Account} {tables : Tables}
    (keeping : Keeping message mayGo account.tables tables)
    (progress : Progress account.tables tables) :
      Carried message mayGo account { account with tables } :=
  ⟨keeping, fun numbered => (progress numbered).1⟩

section

variable (message : MessageID) (mayGo : MailboxID → Prop)

theorem add_memberships_carry (flags : MessageFlags)
    (keywords : List Bytes) {mailboxes : List MailboxID}
    (account : Account) (numbered : Numbered account.tables)
    (goes : ∀ mailbox ∈ mailboxes, account.tables.isTrash mailbox = false →
      ∀ place, account.tables.isTrash place = true → mayGo place) :
    (∀ error, (addMemberships message flags keywords mailboxes account).outcome ≠ .refused error) ∧
      Carried message mayGo account (addMemberships message flags keywords mailboxes account).account ∧
      ((addMemberships message flags keywords mailboxes account).outcome = .updated →
        ∀ place ∈ mailboxes, ¬mayGo place →
          Filed (addMemberships message flags keywords mailboxes account).account.tables message
            place) := by
  induction mailboxes generalizing account with
  | nil => exact ⟨fun _ refused => (by cases refused), carried_refl _,
      fun _ _ member => (by cases member)⟩
  | cons mailbox mailboxes ih =>
    -- what one addition leaves carries the rest
    have rest : ∀ next : Account, Carried message mayGo account next →
        (¬mayGo mailbox → Filed next.tables message mailbox) →
        (∀ error, (addMemberships message flags keywords mailboxes next).outcome ≠ .refused error) ∧
          Carried message mayGo account (addMemberships message flags keywords mailboxes next).account ∧
          ((addMemberships message flags keywords mailboxes next).outcome = .updated →
            ∀ place ∈ mailbox :: mailboxes, ¬mayGo place →
              Filed (addMemberships message flags keywords mailboxes next).account.tables message
                place) := by
      intro next carried filed
      obtain ⟨stands, later, files⟩ := ih next (carried.numbered numbered) (by
        intro other member clean place trash
        rw [trash_alike carried.keeping.owners] at clean trash
        exact goes other (List.mem_cons_of_mem _ member) clean place trash)
      refine ⟨stands, carried_trans carried later, fun updated place member stays => ?_⟩
      rcases List.mem_cons.mp member with rfl | tail
      · exact later.keeping.stays _ stays (filed stays)
      · exact files updated place tail stays
    rw [addMemberships]
    split
    · rename_i clash
      exact rest account (carried_refl _) fun _ => add_conflict numbered clash
    · exact ⟨fun _ refused => (by cases refused), carried_refl _, fun updated => (by cases updated)⟩
    · rename_i tables added
      obtain ⟨keeping, filed⟩ := keeping_add (goes mailbox List.mem_cons_self) added
      have carried := carried_tables keeping (add_message_progress added)
      split
      · exact rest _ carried filed
      · split
        · exact ⟨fun _ refused => (by cases refused), carried, fun updated => (by cases updated)⟩
        · rename_i seeded flagged
          have more : Carried message mayGo { account with tables } { account with tables := seeded } :=
            ⟨keeping_flags flagged, fun numbered => (update_flags_progress flagged numbered).1⟩
          exact rest _ (carried_trans carried more) fun stays =>
            more.keeping.stays _ stays (filed stays)

theorem remove_memberships_carry {mailboxes : List MailboxID} (account : Account)
    (goes : ∀ mailbox ∈ mailboxes, mayGo mailbox) :
    (∀ error, (removeMemberships message mailboxes account).outcome ≠ .refused error) ∧
      Carried message mayGo account (removeMemberships message mailboxes account).account := by
  induction mailboxes generalizing account with
  | nil => exact ⟨fun _ refused => (by cases refused), carried_refl _⟩
  | cons mailbox mailboxes ih =>
    have others : ∀ mailbox ∈ mailboxes, mayGo mailbox :=
      fun other member => goes other (List.mem_cons_of_mem _ member)
    rw [removeMemberships]
    split
    · exact ih account others
    · exact ⟨fun _ refused => (by cases refused), carried_refl _⟩
    · rename_i tables gone
      have carried := carried_tables (keeping_remove (goes mailbox List.mem_cons_self) gone)
        (remove_message_progress gone)
      obtain ⟨stands, later⟩ := ih { account with tables } others
      exact ⟨stands, carried_trans carried later⟩

theorem consolidate_carries (account : Account) :
    (∀ error, (consolidate account message).outcome ≠ .refused error) ∧
      Carried message mayGo account (consolidate account message).account := by
  unfold consolidate
  split
  · rename_i tables ran
    exact ⟨fun _ refused => (by cases refused),
      carried_tables (keeping_handed (transfer_snooze_handed ran))
      (transfer_snooze_progress ran)⟩
  · exact ⟨fun _ refused => (by cases refused), carried_refl _⟩

theorem move_memberships_carry {account : Account} {loaded : Loaded} {adds removes : List MailboxID}
    (numbered : Numbered account.tables)
    (sources : ∀ place ∈ removes, Filed account.tables loaded.row.id place)
    (houses : ∀ place ∈ adds, (account.tables.mailbox? place).isSome)
    (goes : ∀ mailbox ∈ adds, account.tables.isTrash mailbox = false →
      ∀ place, account.tables.isTrash place = true → mayGo place)
    (leaves : ∀ mailbox ∈ removes, mayGo mailbox) :
    (∀ error, (moveMemberships account loaded adds removes).outcome ≠ .refused error) ∧
      ((moveMemberships account loaded adds removes).outcome = .updated →
        Carried loaded.row.id mayGo account (moveMemberships account loaded adds removes).account ∧
          ∀ place ∈ adds, ¬mayGo place →
            Filed (moveMemberships account loaded adds removes).account.tables loaded.row.id
              place) := by
  unfold moveMemberships
  split
  · rename_i target source
    refine ⟨fun error refused => ?_, fun updated => ?_⟩
    · exact move_finds (sources source (List.mem_singleton_self _))
        (houses target (List.mem_singleton_self _))
        (attempt_refused refused).1
    · obtain ⟨tables, ran, after⟩ := attempt_updated updated
      obtain ⟨keeping, filed⟩ := keeping_move (leaves source (List.mem_singleton_self _)) ran
      rw [after]
      refine ⟨carried_tables keeping (move_progress ran), fun place member => ?_⟩
      rw [List.mem_singleton.mp member]
      exact filed
  · dsimp only
    obtain ⟨stands, carried, files⟩ := add_memberships_carry loaded.row.id mayGo
      (((sourceMembership loaded removes).map Membership.flags).getD 0)
      ((((sourceMembership loaded removes).map fun row => splitKeywords row.keywordsCSV).getD []).filter
        (· ≠ snoozedKeyword)) account numbered goes
    rcases and_then_cases (addMemberships loaded.row.id
        (((sourceMembership loaded removes).map Membership.flags).getD 0)
        ((((sourceMembership loaded removes).map fun row => splitKeywords row.keywordsCSV).getD
          []).filter
          (· ≠ snoozedKeyword)) adds account)
            (fun account => removeMemberships loaded.row.id removes account) with
      ⟨updated, next⟩ | ⟨stopped, same⟩
    · rw [next]
      obtain ⟨stands', later⟩ := remove_memberships_carry loaded.row.id mayGo
        (addMemberships loaded.row.id _ _ adds account).account leaves
      refine ⟨stands', fun _ => ⟨carried_trans carried later, fun place member stays => ?_⟩⟩
      exact later.keeping.stays place stays (files updated place member stays)
    · rw [same]
      exact ⟨stands, fun updated => absurd updated stopped⟩

end

end Filing

section Refile

variable {around : Surroundings} {account : Account} {caller owner : PrincipalID}
    {loaded : Loaded} {patch : Patch}

theorem mem_added {desired : List MailboxID} {place : MailboxID} :
    place ∈ added around loaded desired ↔ place ∈ desired ∧ place ∉ loaded.current := by
  unfold added
  rw [(around.listed _).mem_iff]
  simp

theorem mem_removed {desired : List MailboxID} {place : MailboxID} :
    place ∈ removed around loaded desired ↔ place ∈ loaded.current ∧ place ∉ desired := by
  unfold removed
  rw [(around.listed _).mem_iff]
  simp

theorem desired_somewhere {desired : List MailboxID}
    (wanted : desiredMailboxes loaded patch = .ok desired) :
    ∃ place, place ∈ desired := by
  refine List.exists_mem_of_ne_nil _ ?_
  rintro rfl
  unfold desiredMailboxes at wanted
  split at wanted
  · rename_i value _
    unfold replacement at wanted
    split at wanted
    · cases wanted
    · split at wanted
      · cases wanted
      · split at wanted
        · cases wanted
        · rename_i some_
          have empty := (List.dedup_eq_nil _).mp (Except.ok.inj wanted)
          exact some_ (by rw [empty]; rfl)
  · split at wanted
    · cases wanted
    · split at wanted
      · cases wanted
      · rename_i some_
        exact some_ (by rw [Except.ok.inj wanted]; rfl)

def mayLeave (around : Surroundings) (account : Account) (loaded : Loaded) (desired : List MailboxID)
    (place : MailboxID) : Prop :=
  place ∈ removed around loaded desired ∨
    account.tables.isTrash place = true ∧ ∃ target ∈ added around loaded desired,
      account.tables.isTrash target = false

theorem target_housed {id : MailboxID} (taken : targetRefused account caller owner id = none) :
    (account.tables.mailbox? id).isSome := by
  unfold targetRefused at taken
  split at taken
  · cases taken
  · rename_i found
    rw [found]
    rfl

theorem refile_carries (around : Surroundings) (caller owner : PrincipalID) {desired : List MailboxID}
    (numbered : Numbered account.tables)
    (filed : ∀ place ∈ loaded.current, Filed account.tables loaded.row.id place)
    (wanted : desiredMailboxes loaded patch = .ok desired)
    (taken : ∀ id ∈ added around loaded desired, targetRefused account caller owner id = none) :
    (∀ error, (refile around account caller owner loaded patch).outcome ≠ .refused error) ∧
      ((refile around account caller owner loaded patch).outcome = .updated →
        Carried loaded.row.id (mayLeave around account loaded desired) account
            (refile around account caller owner loaded patch).account ∧
          ∀ place ∈ desired, ¬mayLeave around account loaded desired place →
            Filed (refile around account caller owner loaded patch).account.tables loaded.row.id
              place) := by
  unfold refile
  rw [wanted]
  unfold applyMailboxDiff
  dsimp only
  rw [List.findSome?_eq_none_iff.mpr taken]
  dsimp only
  obtain ⟨stands, moves⟩ := move_memberships_carry (mayLeave around account loaded desired) numbered
    (fun place member => filed place (mem_removed.mp member).1)
      (fun place member => target_housed (taken place member))
    (fun mailbox member clean place trash => Or.inr ⟨trash, mailbox, member, clean⟩)
    (fun mailbox member => Or.inl member)
  rcases and_then_cases (moveMemberships account loaded (added around loaded desired)
    (removed around loaded desired))
      (fun account => consolidate account loaded.row.id) with ⟨updated, next⟩ | ⟨stopped, same⟩
  · rw [next]
    obtain ⟨carried, files⟩ := moves updated
    obtain ⟨stands', later⟩ :=
      consolidate_carries loaded.row.id (mayLeave around account loaded desired)
      (moveMemberships account loaded (added around loaded desired)
        (removed around loaded desired)).account
    refine ⟨stands', fun _ => ⟨carried_trans carried later, fun place member stays => ?_⟩⟩
    refine later.keeping.stays place stays ?_
    by_cases was : place ∈ loaded.current
    · exact carried.keeping.stays place stays (filed place was)
    · exact files place (mem_added.mpr ⟨member, was⟩) stays
  · rw [same]
    exact ⟨stands, fun updated => absurd updated stopped⟩

end Refile

theorem body_access {tables after : Tables} {id : MessageID} {blob : BlobName} {size : Nat}
    (ran : tables.replaceMessageBody id blob size = .ok after) (caller owner : PrincipalID) :
    hasOwnerAccess after caller owner = hasOwnerAccess tables caller owner := by
  obtain ⟨row, _, later⟩ := bind_ok ran
  obtain ⟨charged, _, later⟩ := bind_ok later
  obtain ⟨_, _, touched⟩ := bind_ok later
  have principals := (touch_members_accounts touched).principals
  have credited : after.principals = (tables.credit charged ((size : Int) - row.size)).principals := by
    rw [principals]
    split
    · rfl
    · rfl
  have found : after.principal? owner =
    (tables.credit charged ((size : Int) - row.size)).principal? owner := by
    unfold principal?
    rw [credited]
  unfold hasOwnerAccess
  rw [found, credit_find, Option.any_map]
  congr 2
  funext principal
  show (decide ((if _ then _ else _ : Principal).parent = _)) = _
  split
  · rfl
  · rfl

theorem target_alike {first second : Account} {caller owner : PrincipalID}
    (acl : second.acl = first.acl)
    (owners : List.Forall₂ SameOwner first.tables.mailboxes second.tables.mailboxes)
    (access : ∀ owner, hasOwnerAccess second.tables caller owner =
      hasOwnerAccess first.tables caller owner)
    (id : MailboxID) : targetRefused second caller owner id = targetRefused first caller owner id := by
  have alike := found_alike owners id
  unfold targetRefused
  cases old : first.tables.mailbox? id with
  | none =>
    rw [old] at alike
    rw [Option.map_eq_none_iff.mp alike]
  | some box =>
    rw [old] at alike
    obtain ⟨box', new, same⟩ := Option.map_eq_some_iff.mp alike
    obtain ⟨principal, _⟩ := Prod.mk.inj same
    have ids : box'.id = box.id := (mailbox_found new).2.trans (mailbox_found old).2.symm
    have rights : second.aclRightsForCaller caller box' = first.aclRightsForCaller caller box := by
      unfold Account.aclRightsForCaller
      rw [principal, access, acl, ids]
    rw [new]
    simp only [principal, rights]

theorem rebuild_cases (around : Surroundings) (account : Account) (loaded : Loaded) {patch : Patch}
    (caller : PrincipalID)
    (needed : needsBodyRebuild patch = true) :
    (rebuild around account loaded.row patch).account = account ∧
        (rebuild around account loaded.row patch).outcome ≠ .updated ∨
      BodyTaken around account loaded patch ∧
      (rebuild around account loaded.row patch).outcome = .updated ∧
        (rebuild around account loaded.row patch).account.acl = account.acl ∧
        (∀ mayGo, Carried loaded.row.id mayGo account
          (rebuild around account loaded.row patch).account) ∧
        ∀ owner, hasOwnerAccess (rebuild around account loaded.row patch).account.tables caller owner =
          hasOwnerAccess account.tables caller owner := by
  unfold rebuild
  rw [if_pos needed]
  unfold rebuildEmailBody
  split
  · exact Or.inl ⟨rfl, fun updated => (by cases updated)⟩
  · exact Or.inl ⟨rfl, fun updated => (by cases updated)⟩
  · rename_i blob size built
    split
    · exact Or.inl ⟨rfl, fun updated => (by cases updated)⟩
    · rename_i other
      cases ran : account.tables.replaceMessageBody loaded.row.id blob size with
      | error problem =>
        refine Or.inl ?_
        unfold Run.attempt
        split
        · rename_i same
          cases same
        · exact ⟨rfl, fun updated => (by cases updated)⟩
        · exact ⟨rfl, fun updated => (by cases updated)⟩
      | ok tables =>
        refine Or.inr ⟨⟨blob, size, tables, built, ran⟩, rfl, rfl, fun mayGo => ?_,
          body_access ran caller⟩
        exact carried_tables (keeping_body ran) (replace_body_progress ran)

theorem snooze_intent_alike {around : Surroundings} {first second : Account}
    {owner : PrincipalID} {patch : Patch}
    (owners : List.Forall₂ SameOwner first.tables.mailboxes second.tables.mailboxes) :
    decodeSnoozeIntent around second owner patch = decodeSnoozeIntent around first owner patch := by
  have known : ∀ id, (second.tables.mailbox? id).map Mailbox.principalID =
      (first.tables.mailbox? id).map Mailbox.principalID := by
    intro id
    have alike := congrArg (Option.map Prod.fst) (found_alike owners id)
    simpa [Function.comp_def] using alike
  unfold decodeSnoozeIntent
  dsimp only
  split
  · rfl
  · split
    · rfl
    · split
      · rfl
      · split
        · rfl
        · rename_i id _
          have same := known id
          cases old : first.tables.mailbox? id with
          | none =>
            rw [old] at same
            rw [Option.map_eq_none_iff.mp same]
          | some box =>
            rw [old] at same
            obtain ⟨box', new, principal⟩ := Option.map_eq_some_iff.mp same
            rw [new]
            simp only [principal]
      · rfl
      · rfl

theorem react_and_mark_refused {around : Surroundings} {account : Account} {caller owner : PrincipalID}
    {id : MessageID} {patch : Patch} {error : SetError} (housed : Housed account.tables)
    (filed : ∃ place, Filed account.tables id place)
    (refused : (reactAndMark around account caller owner id patch).outcome = .refused error) :
    (ReactionsRefused caller patch ∨ ∃ loaded, account.getMessage id = some loaded ∧
      MarksRefused around account owner patch (snoozeTarget account loaded = none)) ∧
      (ReactionsAsked caller patch ∨ (reactAndMark around account caller owner id patch).account =
        account) := by
  unfold reactAndMark at refused ⊢
  split at refused
  · cases refused
  · rename_i loaded found
    obtain ⟨_, same, rows⟩ := loaded_message found
    have some_ : loaded.mailboxes ≠ [] := by
      obtain ⟨place, row, member, here, _⟩ := filed
      exact List.ne_nil_of_mem ((rows row).mpr ⟨member, here⟩)
    have filedRows : ∀ row ∈ loaded.mailboxes, Filed account.tables loaded.row.id row.mailboxID := by
      intro row member
      exact ⟨row, ((rows row).mp member).1, ((rows row).mp member).2.trans same.symm, rfl⟩
    split at refused
    · rename_i decoded
      refine ⟨Or.inl fun changes other => ?_, Or.inr rfl⟩
      rw [decoded] at other
      cases other
    · rename_i changes decoded
      have stepped : ∀ reacted : Account,
        (∀ mayGo, Keeping loaded.row.id mayGo account.tables reacted.tables) →
          (mark around reacted owner loaded patch).outcome = .refused error →
          (mark around reacted owner loaded patch).account = reacted ∧
            MarksRefused around account owner patch (snoozeTarget account loaded = none) := by
        intro reacted keeps markRefused
        have keeping := keeps fun _ => False
        obtain ⟨left, marks⟩ := mark_refused (keeping.housed housed) some_ (fun row member =>
          keeping.stays _ (fun never => never) (filedRows row member)) markRefused
        refine ⟨left, fun action intent marks' decodedMarks => ?_⟩
        have target : snoozeTarget reacted loaded = snoozeTarget account loaded := by
          unfold snoozeTarget
          congr 3
          funext row
          have alike := congrArg (Option.any fun pair => !pair.2)
            (found_alike keeping.owners row.mailboxID)
          simpa [Option.any_map, Function.comp_def] using alike
        rw [← target]
        exact marks action ((snooze_intent_alike keeping.owners).trans intent) marks' decodedMarks
      cases none_ : changes.isEmpty with
      | true =>
        have applied : applyReactionPatches account caller loaded changes =
          ⟨.updated, account⟩ := if_pos none_
        rw [applied, none_] at refused
        obtain ⟨left, marks⟩ := stepped account (fun _ => keeping_refl _) refused
        rw [applied]
        exact ⟨Or.inr ⟨loaded, found, marks⟩, Or.inr left⟩
      | false =>
        refine ⟨Or.inr ⟨loaded, found, ?_⟩,
          Or.inl ⟨changes, decoded, fun empty => (by rw [empty] at none_; cases none_)⟩⟩
        unfold applyReactionPatches at refused
        rw [none_] at refused
        dsimp only at refused
        split at refused
        · rename_i isEmpty
          cases isEmpty
        · split at refused
          · cases refused
          · rename_i tables ran
            simp only [Run.andThen] at refused
            split at refused
            · cases refused
            · exact (stepped _ (fun _ => keeping_flags ran) refused).2

end Herold.Jmap

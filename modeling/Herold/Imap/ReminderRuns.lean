import Herold.Store.Keywords
import Herold.Store.Pairing

/-!
# Reminders under interleaved clients

IMAP sessions, `Email/set` and the snooze worker write to the same rows. An event is
one transaction of one of them, or a session that reads its mailbox; a session goes
by the rows as it read them last. `handleSTORE` looks at the date in its own copy
before it writes the keyword, so another writer may have changed the stored date in
between.
-/

namespace Herold.ReminderRuns

open Herold.Go Herold.Store Herold.Imap Herold.Machine Herold.Keywords

/-- The mailbox a session has selected, with its rows as they were read. -/
structure Listing where
  mailbox : MailboxID
  msgs : List Membership

structure System where
  tables : Tables
  sessions : Nat → Option Listing := fun _ => none

def Listing.row? (listing : Listing) (seq : Nat) : Option Membership :=
  if seq = 0 then none else listing.msgs[seq - 1]?

def System.copy? (system : System) (session seq : Nat) : Option (MailboxID × Membership) :=
  (system.sessions session).bind fun listing => (listing.row? seq).map fun row => (listing.mailbox, row)

/-- Keywords as `decodeUpdate` lists them, in lower case. -/
structure LowerNames where
  names : List Bytes
  lower : ∀ name ∈ names, toLower name = name

inductive Event where
  /-- `SELECT`, `EXAMINE` and every reload of the list. -/
  | select (session : Nat) (mailbox : MailboxID)
  /-- The message is read back after a `STORE`. -/
  | readBack (session seq : Nat)
  /-- `SetSnooze` in a round of `handleSTORE`. The slice of the names to clear is
  shared by all rounds of the command. -/
  | storeSnooze (session seq : Nat) (command : StoreCommand) (shared : List Bytes)
  /-- `UpdateMessageFlags` in a round of `handleSTORE`. -/
  | storeFlags (session seq : Nat) (command : StoreCommand) (shared : List Bytes)
  | append (names : List Bytes) (parcel : Parcel)
  /-- The insert of a `COPY` or `MOVE`. -/
  | copy (session seq : Nat) (dest : MailboxID) (isMove : Bool) (parcel : Parcel)
  /-- `EXPUNGE`, and the second half of a `MOVE`. -/
  | expunge (mailbox : MailboxID) (messages : List MessageID)
  | deleteMailbox (mailbox : MailboxID)
  /-- `Email/set` sets a reminder on a membership that is not in the trash. -/
  | snooze (message : MessageID) (mailbox : MailboxID) (until_ : Micros) (wake : Option MailboxID)
  /-- `Email/set` ends a reminder. -/
  | endSnooze (message : MessageID) (mailbox : MailboxID)
  /-- `Email/set` changes flags and keywords. -/
  | mark (message : MessageID) (mailbox : MailboxID) (addFlags clearFlags : MessageFlags)
      (add clear : LowerNames)
  /-- `Email/set` takes a message out of a mailbox. -/
  | remove (message : MessageID) (mailbox : MailboxID)
  /-- What every `Email/set` that changes mailboxes ends with. -/
  | consolidate (message : MessageID)
  | wakeInto (message : MessageID) (mailbox : MailboxID)
  | wakeArrival (message : MessageID) (mailbox : MailboxID)
  | release (message : MessageID) (mailbox : MailboxID)

def listedRow (row : Membership) : MessageMailbox where
  messageID := row.messageID
  mailboxID := row.mailboxID
  uid := row.uid
  modSeq := row.modSeq
  flags := row.flags
  keywordsCSV := row.keywordsCSV
  snoozedUntil := row.snoozedUntil
  wakeMailboxID := row.wakeMailboxID

/-- What a round of `handleSTORE` is to add and clear. -/
def storePatch (command : StoreCommand) (shared : List Bytes) (row : Membership) : Imap.Patch :=
  patchFor command (if command.op = .del then shared else []) (listedRow row)

/-- The command is refused: it adds the keyword where the copy has no date. -/
def dateMissing (patch : Imap.Patch) (row : Membership) : Bool :=
  containsCI patch.addKeywords snoozedKeyword && row.snoozedUntil.isNone

/-- The keyword goes with the date, by `SetSnooze`. -/
def endsReminder (patch : Imap.Patch) (row : Membership) : Bool :=
  containsCI patch.clearKeywords snoozedKeyword && row.snoozedUntil.isSome

def storeSnoozeTx (tables : Tables) (mailbox : MailboxID) (row : Membership) (patch : Imap.Patch) :
    Except MailError Tables :=
  if !dateMissing patch row && endsReminder patch row then tables.setSnooze row.messageID
    mailbox none none
  else .ok tables

def storeFlagsTx (tables : Tables) (mailbox : MailboxID) (row : Membership) (patch : Imap.Patch)
    (unchangedSince : Nat) : Except MailError Tables :=
  if dateMissing patch row then .ok tables
  else
    tables.updateMessageFlags row.messageID mailbox patch.addFlags patch.clearFlags patch.addKeywords
      (if endsReminder patch row then removeStringCI patch.clearKeywords snoozedKeyword
        else patch.clearKeywords) unchangedSince

/-- `copyTarget`, on the tables. -/
def copyTarget (tables : Tables) (row : Membership) (source : MailboxID) (dest : Mailbox)
    (isMove : Bool) :
    MailStore.Target :=
  let keywords := splitKeywords row.keywordsCSV
  let bare : MailStore.Target :=
    { mailboxID := dest.id, flags := row.flags, keywords := withoutSnoozedKeyword keywords }
  if containsCI keywords snoozedKeyword = false then { bare with keywords }
  else if isMove = false ∨ dest.trash then bare
  else
    match tables.membership? row.messageID source with
    | none => bare
    | some held =>
      if held.snoozedUntil.isSome then
        { bare with keywords, snoozedUntil := held.snoozedUntil, wakeMailboxID := held.wakeMailboxID }
      else bare

def copyTx (tables : Tables) (source : MailboxID) (row : Membership) (dest : MailboxID) (isMove : Bool)
    (parcel : Parcel) : Except MailError Tables :=
  match tables.mailbox? dest with
  | none => .ok tables
  | some box =>
    tables.insertMessages [
      { principalID := parcel.principalID, blob := parcel.blob, size := parcel.size, flags := row.flags
        keywords := withoutSnoozedKeyword (splitKeywords row.keywordsCSV)
        targets := [copyTarget tables row source box isMove], merged := parcel.merged }]

/-- `removeString` takes the keyword of the reminder out of both lists. -/
def markTx (tables : Tables) (message : MessageID) (mailbox : MailboxID)
    (addFlags clearFlags : MessageFlags)
    (add clear : LowerNames) : Except MailError Tables :=
  tables.updateMessageFlags message mailbox addFlags clearFlags
    (add.names.filter (· ≠ snoozedKeyword)) (clear.names.filter (· ≠ snoozedKeyword)) 0

def transaction (system : System) : Event → Except MailError Tables
  | .select _ _ | .readBack _ _ => .ok system.tables
  | .storeSnooze session seq command shared =>
    match system.copy? session seq with
    | none => .ok system.tables
    | some (mailbox, row) => storeSnoozeTx system.tables mailbox row (storePatch command shared row)
  | .storeFlags session seq command shared =>
    match system.copy? session seq with
    | none => .ok system.tables
    | some (mailbox, row) =>
      storeFlagsTx system.tables mailbox row (storePatch command shared row) command.unchangedSince
  | .append names parcel => system.tables.insertMessages [(Filing.append names).message parcel]
  | .copy session seq dest isMove parcel =>
    match system.copy? session seq with
    | none => .ok system.tables
    | some (source, row) => copyTx system.tables source row dest isMove parcel
  | .expunge mailbox messages => system.tables.expungeMessages mailbox messages
  | .deleteMailbox mailbox => system.tables.deleteMailbox mailbox
  | .snooze message mailbox until_ wake =>
    if system.tables.isTrash mailbox then .ok system.tables
    else system.tables.setSnooze message mailbox (some until_) wake
  | .endSnooze message mailbox => system.tables.setSnooze message mailbox none none
  | .mark message mailbox addFlags clearFlags add clear =>
    markTx system.tables message mailbox addFlags clearFlags add clear
  | .remove message mailbox => system.tables.removeMessageFromMailbox message mailbox
  | .consolidate message => system.tables.consolidateSnooze message
  | .wakeInto message mailbox => system.tables.addMessageToMailbox message mailbox
  | .wakeArrival message mailbox => system.tables.recordMailboxArrival message mailbox
  | .release message mailbox => system.tables.releaseSnooze message mailbox

def read (system : System) : Event → Nat → Option Listing
  | .select session mailbox => Function.update system.sessions session
      (some ⟨mailbox, (system.tables.members.filter fun row => row.mailboxID = mailbox).insertionSort
        fun left right => left.uid ≤ right.uid⟩)
  | .readBack session seq =>
    match system.sessions session, system.copy? session seq with
    | some listing, some (_, row) =>
      match (system.tables.memberships row.messageID).head? with
      | none => system.sessions
      | some updated => Function.update system.sessions session
          (some { listing with msgs := listing.msgs.set (seq - 1) updated })
    | _, _ => system.sessions
  | _ => system.sessions

def machine : Machine System Event where
  step system event :=
    some { tables := committed system.tables (transaction system event), sessions := read system event }

/-- What a round of `STORE` must find that writes: rows with a date where it adds the keyword,
and rows without one where it clears the keyword and its copy shows no date. -/
structure Finds (tables : Tables) (mailbox : MailboxID) (copy : Membership) (patch : Imap.Patch) :
    Prop where
  whole : ∀ name ∈ patch.addKeywords, Tables.Whole name
  adds : containsCI patch.addKeywords snoozedKeyword = true → ∀ row ∈ tables.members,
    row.messageID = copy.messageID → row.mailboxID = mailbox → row.snoozedUntil.isSome = true
  clears : containsCI patch.clearKeywords snoozedKeyword = true → copy.snoozedUntil = none →
    ∀ row ∈ tables.members, row.messageID = copy.messageID → row.mailboxID = mailbox →
      row.snoozedUntil = none

/-- What an event must find. A round of `STORE` is asked for nothing if it is refused or if
`UNCHANGEDSINCE` stops it; a `MOVE` is to find the keyword in lower case in its copy where it
has it at all; and no added name holds the keyword between commas. -/
def Allowed (system : System) : Event → Prop
  | .storeFlags session seq command shared =>
    ∀ mailbox copy held, system.copy? session seq = some (mailbox, copy) →
      dateMissing (storePatch command shared copy) copy = false →
        system.tables.membership? copy.messageID mailbox = some held →
          (command.unchangedSince = 0 ∨ held.modSeq ≤ command.unchangedSince) →
            Finds system.tables mailbox copy (storePatch command shared copy)
  | .append names _ => ∀ name ∈ names, Tables.Whole name
  | .copy session seq _ isMove _ => ∀ mailbox copy, system.copy? session seq = some (mailbox, copy) →
      isMove = true → containsCI (splitKeywords copy.keywordsCSV) snoozedKeyword = true →
        snoozedKeyword ∈ splitKeywords copy.keywordsCSV
  | .mark _ _ _ _ add _ => ∀ name ∈ add.names, Tables.Whole name
  | _ => True

theorem snoozed_lower : toLower snoozedKeyword = snoozedKeyword := by decide +kernel

theorem contains_ci_iff (names : List Bytes) :
    containsCI names snoozedKeyword = true ↔ snoozedKeyword ∈ names.map toLower := by
  rw [containsCI, snoozed_lower, List.any_eq_true, List.mem_map]
  simp only [decide_eq_true_eq]

theorem folds_snoozed {name : Bytes} (same : toLower name = snoozedKeyword) :
    equalFold name snoozedKeyword = true := by
  have plain : ∀ byte ∈ snoozedKeyword, byte < 0x80 ∧ byte ≠ 0x69 ∧ byte ≠ 0x6B := by decide +kernel
  rw [← same] at plain ⊢
  exact equal_fold_to_lower name plain

theorem without_snoozed (keywords : List Bytes) : snoozedKeyword ∉ withoutSnoozedKeyword keywords := by
  intro member
  have kept := (List.mem_filter.mp member).2
  rw [folds_snoozed snoozed_lower] at kept
  cases kept

/-- No keyword falls apart at its commas into `$snoozed` and something else. -/
def AllWhole (keywords : List Bytes) : Prop :=
  ∀ keyword ∈ keywords, snoozedKeyword ∈ splitByte 44 keyword → keyword = snoozedKeyword

theorem without_snoozed_whole {keywords : List Bytes} (whole : AllWhole keywords) :
    AllWhole (withoutSnoozedKeyword keywords) :=
  fun keyword member => whole keyword (List.mem_of_mem_filter member)

theorem split_keywords_whole (csv : Bytes) : AllWhole (splitKeywords csv) :=
  fun keyword member => Tables.whole_of_free (split_keywords_free csv keyword member)

theorem mem_keywords_from_names {names : List Bytes} {keyword : Bytes}
    (member : keyword ∈ keywordsFromNames names) : ∃ name ∈ names, toLower name = keyword := by
  obtain ⟨name, listed, same⟩ := List.mem_map.mp member
  exact ⟨name, List.mem_of_mem_filter listed, same⟩

theorem keywords_from_names_whole {names : List Bytes} (whole : ∀ name ∈ names, Tables.Whole name) :
    AllWhole (keywordsFromNames names) := by
  intro keyword member
  obtain ⟨name, listed, rfl⟩ := mem_keywords_from_names member
  exact whole name listed

theorem remove_ci_snoozed (names : List Bytes) :
    snoozedKeyword ∉ (removeStringCI names snoozedKeyword).map toLower := by
  intro member
  obtain ⟨name, kept, same⟩ := List.mem_map.mp member
  have other := (List.mem_filter.mp kept).2
  rw [snoozed_lower, same] at other
  simp at other

/-- A round of `STORE` that finds what it must keeps the pair. -/
theorem store_patch_keeps {tables : Tables} {mailbox : MailboxID} {copy row : Membership}
    {patch : Imap.Patch} (finds : Finds tables mailbox copy patch) (member : row ∈ tables.members)
    (here : row.messageID = copy.messageID) (place : row.mailboxID = mailbox) :
    Tables.KeepsPair row patch.addKeywords
      (if endsReminder patch copy then removeStringCI patch.clearKeywords snoozedKeyword
        else patch.clearKeywords) where
  whole := finds.whole
  dated := by
    intro some_
    split
    · exact remove_ci_snoozed _
    case isFalse stays =>
      intro cleared
      have named := (contains_ci_iff patch.clearKeywords).mpr cleared
      rw [endsReminder, named, Bool.true_and, Bool.not_eq_true, Option.isSome_eq_false_iff,
        Option.isNone_iff_eq_none] at stays
      rw [finds.clears named stays row member here place] at some_
      cases some_
  undated := by
    intro none_ added
    have dated := finds.adds ((contains_ci_iff patch.addKeywords).mpr added) row member here place
    rw [none_] at dated
    cases dated

theorem bare_target_good (tables : Tables) (target : MailStore.Target)
    (date : target.snoozedUntil = none)
    (whole : AllWhole target.keywords) (absent : snoozedKeyword ∉ target.keywords) :
    Tables.GoodTarget tables target := by
  refine ⟨?_, fun dated => ?_⟩
  · rw [Tables.snoozed_joined whole, date]
    exact iff_of_false (by simp) absent
  · rw [date] at dated
    cases dated

theorem inherit_good {tables : Tables} {target : MailStore.Target} (flags : MessageFlags)
    {keywords : List Bytes}
    (good : Tables.GoodTarget tables target) (whole : AllWhole keywords)
    (absent : snoozedKeyword ∉ keywords) :
      Tables.GoodTarget tables (target.inherit flags keywords) := by
  unfold MailStore.Target.inherit
  split
  case isTrue empty =>
    have undated : target.snoozedUntil = none := by
      have none_ : snoozedKeyword ∉ splitKeywords (joinKeywords target.keywords) := by
        rw [empty.2]
        decide
      simpa using mt good.1.mp none_
    exact bare_target_good tables _ undated whole absent
  case isFalse => exact good

theorem copy_target_good (tables : Tables) (row : Membership) (source : MailboxID) (dest : Mailbox)
    (isMove : Bool) (found : tables.mailbox? dest.id = some dest)
    (exact_ : isMove = true → containsCI (splitKeywords row.keywordsCSV) snoozedKeyword = true →
      snoozedKeyword ∈ splitKeywords row.keywordsCSV) :
    Tables.GoodTarget tables (copyTarget tables row source dest isMove) := by
  have whole := split_keywords_whole row.keywordsCSV
  have bare : Tables.GoodTarget tables
      { mailboxID := dest.id, flags := row.flags
        keywords := withoutSnoozedKeyword (splitKeywords row.keywordsCSV) } :=
    bare_target_good tables _ rfl (without_snoozed_whole whole) (without_snoozed _)
  unfold copyTarget
  dsimp only
  split
  case isTrue lacks =>
    refine bare_target_good tables _ rfl whole fun member => ?_
    have has := (contains_ci_iff _).mpr (List.mem_map.mpr ⟨_, member, snoozed_lower⟩)
    rw [lacks] at has
    cases has
  case isFalse has =>
    split
    · exact bare
    case isFalse carried =>
      split
      · exact bare
      · split
        case isTrue dated =>
          rw [not_or] at carried
          have listed := exact_ (by simpa using carried.1) (by simpa using has)
          refine ⟨iff_of_true dated ?_, fun _ => ?_⟩
          · rwa [Tables.snoozed_joined whole]
          · unfold Tables.isTrash
            rw [found]
            simpa using carried.2
        case isFalse => exact bare

theorem append_paired {tables after : Tables} {names : List Bytes} {parcel : Parcel}
    (paired : Tables.Paired tables)
    (whole : ∀ name ∈ names, Tables.Whole name)
    (ran : tables.insertMessages [(Filing.append names).message parcel] = .ok after) :
      Tables.Paired after := by
  have kept := without_snoozed_whole (keywords_from_names_whole whole)
  have absent := without_snoozed (keywordsFromNames names)
  unfold Tables.insertMessages at ran
  split at ran
  · cases ran
  · obtain ⟨inserted, first, ended⟩ := bind_ok ran
    cases ended
    refine Tables.carries_paired (Tables.insert_message_carries (fun target member => ?_) first) paired
    obtain ⟨mailbox, _, rfl⟩ := List.mem_map.mp member
    exact inherit_good _ (bare_target_good tables _ rfl kept absent) kept absent

theorem copy_paired {tables after : Tables} {source dest : MailboxID} {row : Membership} {isMove : Bool}
    {parcel : Parcel} (paired : Tables.Paired tables)
    (exact_ : isMove = true → containsCI (splitKeywords row.keywordsCSV) snoozedKeyword = true →
      snoozedKeyword ∈ splitKeywords row.keywordsCSV)
    (ran : copyTx tables source row dest isMove parcel = .ok after) : Tables.Paired after := by
  unfold copyTx at ran
  split at ran
  · cases ran
    exact paired
  · rename_i box found
    have here : box.id = dest := (Tables.mailbox_found found).2
    unfold Tables.insertMessages at ran
    split at ran
    · cases ran
    · obtain ⟨inserted, first, ended⟩ := bind_ok ran
      cases ended
      refine Tables.carries_paired
        (Tables.insert_message_carries (fun target member => ?_) first) paired
      rw [List.mem_singleton.mp member]
      refine inherit_good _ (copy_target_good tables row source box isMove (here ▸ found) exact_)
        (without_snoozed_whole (split_keywords_whole row.keywordsCSV)) (without_snoozed _)

theorem mark_paired {tables after : Tables} {message : MessageID} {mailbox : MailboxID}
    {addFlags clearFlags : MessageFlags} {add clear : LowerNames} (paired : Tables.Paired tables)
    (whole : ∀ name ∈ add.names, Tables.Whole name)
    (ran : markTx tables message mailbox addFlags clearFlags add clear = .ok after) :
      Tables.Paired after := by
  have unnamed : ∀ list : LowerNames,
    snoozedKeyword ∉ (list.names.filter (· ≠ snoozedKeyword)).map toLower := by
    intro list member
    obtain ⟨name, kept, same⟩ := List.mem_map.mp member
    obtain ⟨listed, other⟩ := List.mem_filter.mp kept
    rw [list.lower name listed] at same
    simp [same] at other
  refine Tables.update_flags_paired paired
    (fun _ _ _ row _ _ _ => ⟨fun name member => ?_, fun _ => ?_, fun _ => ?_⟩) ran
  · exact whole name (List.mem_of_mem_filter member)
  · exact unnamed clear
  · exact unnamed add

theorem transaction_paired {system : System} {event : Event} {after : Tables}
    (paired : Tables.Paired system.tables) (allowed : Allowed system event)
    (ran : transaction system event = .ok after) : Tables.Paired after := by
  cases event with
  | select session mailbox =>
    cases ran
    exact paired
  | readBack session seq =>
    cases ran
    exact paired
  | storeSnooze session seq command shared =>
    simp only [transaction] at ran
    split at ran
    · cases ran
      exact paired
    · unfold storeSnoozeTx at ran
      split at ran
      · exact Tables.carries_paired (Tables.set_snooze_carries (by simp) ran) paired
      · cases ran
        exact paired
  | storeFlags session seq command shared =>
    simp only [transaction] at ran
    split at ran
    · cases ran
      exact paired
    · rename_i mailbox copy read
      unfold storeFlagsTx at ran
      split at ran
      · cases ran
        exact paired
      case isFalse dated =>
        refine Tables.update_flags_paired paired
          (fun held found current row member here place => ?_) ran
        exact store_patch_keeps (allowed mailbox copy held read (by simpa using dated) found current)
          member here place
  | append names parcel => exact append_paired paired allowed ran
  | copy session seq dest isMove parcel =>
    simp only [transaction] at ran
    split at ran
    · cases ran
      exact paired
    · rename_i source row read
      exact copy_paired paired (allowed source row read) ran
  | expunge mailbox messages => exact Tables.carries_paired (Tables.expunge_carries ran) paired
  | deleteMailbox mailbox => exact Tables.delete_mailbox_paired paired ran
  | snooze message mailbox until_ wake =>
    simp only [transaction] at ran
    split at ran
    · cases ran
      exact paired
    case isFalse clean =>
      exact Tables.carries_paired (Tables.set_snooze_carries (fun _ => by simpa using clean) ran) paired
  | endSnooze message mailbox =>
    exact Tables.carries_paired (Tables.set_snooze_carries (by simp) ran) paired
  | mark message mailbox addFlags clearFlags add clear => exact mark_paired paired allowed ran
  | remove message mailbox => exact Tables.carries_paired (Tables.remove_message_carries ran) paired
  | consolidate message => exact Tables.carries_paired (Tables.transfer_snooze_carries ran) paired
  | wakeInto message mailbox => exact Tables.carries_paired (Tables.add_message_carries ran) paired
  | wakeArrival message mailbox =>
    exact Tables.carries_paired (Tables.record_arrival_carries ran) paired
  | release message mailbox =>
    exact Tables.carries_paired (Tables.set_snooze_carries (by simp) ran) paired

theorem event_keeps (system : System) (event : Event) (paired : Tables.Paired system.tables)
    (allowed : Allowed system event) :
    Tables.Paired (committed system.tables (transaction system event)) := by
  cases ran : transaction system event with
  | error _ => exact paired
  | ok after => exact transaction_paired paired allowed ran

/-- In every run whose events find what they must, a row has a date just when it has
the keyword, and no row of a trash mailbox has a date. -/
theorem reminders_stay_paired (start final : System) (events : List Event)
    (paired : Tables.Paired start.tables) (meets : machine.Meets Allowed start events)
    (ran : machine.execute start events = some final) : Tables.Paired final.tables := by
  refine machine.meets_keeps Allowed (fun system => Tables.Paired system.tables) ?_ events start
    final paired
    meets ran
  intro system event next before allowed stepped
  cases stepped
  exact event_keeps system event before allowed

def emptyMailbox : System := { tables := oneMailbox }

def storeSnoozed (op : StoreOp) : StoreCommand where
  set := [⟨1, 1⟩]
  op := op
  flags := [snoozedKeyword]

def remindedEvents : List Event := [.append [] oneParcel, .snooze 1 1 7 none, .select 0 1]

/-- The session names the keyword while the message has its reminder, and then ends it. -/
def namedAndEnded : List Event :=
  [.storeFlags 0 1 (storeSnoozed .add) [], .storeSnooze 0 1 (storeSnoozed .del) [snoozedKeyword],
    .storeFlags 0 1 (storeSnoozed .del) [snoozedKeyword]]

theorem empty_paired : Tables.Paired emptyMailbox.tables := by
  intro row member
  cases member

def remindedSystem : System := (machine.execute emptyMailbox remindedEvents).getD emptyMailbox

theorem reminded_system_dated :
    (∀ row ∈ remindedSystem.tables.members, row.snoozedUntil.isSome = true) ∧
      (remindedSystem.copy? 0 1).all (fun found => found.2.snoozedUntil.isSome) = true := by
  decide +kernel

theorem reminded_meets : machine.Meets Allowed emptyMailbox (remindedEvents ++ namedAndEnded) := by
  have dated : ∀ mailbox copy, remindedSystem.copy? 0 1 = some (mailbox, copy) →
      copy.snoozedUntil.isSome = true := by
    intro mailbox copy read
    have copies := reminded_system_dated.2
    rwa [read] at copies
  refine ⟨?_, trivial, trivial, ?_, trivial, ?_, trivial⟩
  · exact fun name member => absurd member List.not_mem_nil
  · intro mailbox copy held _ _ _ _
    refine ⟨fun name member => ?_, fun _ row member _ _ => reminded_system_dated.1 row member, ?_⟩
    · have added : keywordsFromNames (storeSnoozed .add).flags = [snoozedKeyword] := by decide +kernel
      change name ∈ keywordsFromNames (storeSnoozed .add).flags at member
      rw [added, List.mem_singleton] at member
      exact member ▸ fun _ => snoozed_lower
    · intro cleared
      cases cleared
  · intro mailbox copy held read _ _ _
    refine ⟨fun name member => absurd member List.not_mem_nil, fun added =>
      (Bool.false_ne_true added).elim, ?_⟩
    intro _ bare
    have some_ := dated mailbox copy read
    rw [bare] at some_
    cases some_

theorem reminded_message_stays_paired :
    ∃ final, machine.execute emptyMailbox (remindedEvents ++ namedAndEnded) = some final ∧
      Tables.Paired final.tables :=
  ⟨_, rfl, reminders_stay_paired emptyMailbox _ (remindedEvents ++ namedAndEnded) empty_paired
    reminded_meets rfl⟩

/-- The worker wakes the message after the session has read it; the session then
adds the keyword to a message that has no date. -/
theorem woken_message_gains_keyword :
    ∃ final row, machine.execute emptyMailbox
        (remindedEvents ++ [.release 1 1, .storeFlags 0 1 (storeSnoozed .add) []]) = some final ∧
      final.tables.membership? 1 1 = some row ∧ row.snoozedUntil = none ∧
      snoozedKeyword ∈ splitKeywords row.keywordsCSV := by
  refine ⟨_, ⟨1, 1, 1, 4, 0, snoozedKeyword, none, none⟩, rfl, ?_, rfl, ?_⟩
  · decide +kernel
  · decide +kernel

end Herold.ReminderRuns

import Herold.Import.Upstream
import Mathlib.Data.List.Induction

/-!
# What write-back addresses

Write-back addresses an upstream message by the folder and the UID of its row. They
name a message that was mirrored as this one as long as the folder keeps its
UIDVALIDITY, a moved message keeps its UID, and the flags of a message are pushed to
one folder only.
-/

namespace Herold.Import

open Herold.Go Herold.Store Herold.Machine

/-- The UID of the folder, as it is now, is of a message that was mirrored as this one. -/
def Site.MirroredFrom (site : Site) (folder : Bytes) (uid : Nat) (message : MessageID) : Prop :=
  ∃ record ∈ site.mirrored, record.folder = folder ∧
    record.validity = (site.upstream folder).validity ∧ record.uid = uid ∧ record.messageID = message

instance (site : Site) (folder : Bytes) (uid : Nat) (message : MessageID) :
    Decidable (site.MirroredFrom folder uid message) :=
  inferInstanceAs (Decidable (∃ record ∈ site.mirrored, _))

def Named (site : Site) : Prop :=
  ∀ row ∈ site.rows, site.MirroredFrom row.folder row.uid row.messageID

def Site.OneFolder (site : Site) (message : MessageID) : Prop :=
  ∀ left ∈ statesOf site.rows message, ∀ right ∈ statesOf site.rows message, left.folder = right.folder

def Site.KeepsFolder (site : Site) (folder : Bytes) (next : UpstreamFolder) : Prop :=
  next.validity = (site.upstream folder).validity ∨ ∀ row ∈ site.rows, row.folder ≠ folder

/-- A move that succeeds finds the message and gives it the UID that it had. -/
def Site.KeepsUid (site : Site) (message : MessageID) (move : MoveAnswers) : Prop :=
  ∀ row target, stateByMessage site.rows message = some row → moveTarget move row = some target →
    move.succeeds = true → (site.upstream row.folder).snapshot.has row.uid = true ∧
      (site.upstream target.2).snapshot.freshUid = row.uid

def Anchored (site : Site) : SiteEvent → Prop
  | .change folder next => site.KeepsFolder folder next
  | .flags message _ => site.OneFolder message
  | .updated message _ move => site.OneFolder message ∧ site.KeepsUid message move
  | _ => True

section Steps

variable {site : Site}

theorem state_by_message_mem {rows : List MessageState} {message : MessageID} {row : MessageState}
    (found : stateByMessage rows message = some row) : row ∈ rows ∧ row.messageID = message :=
  ⟨List.mem_of_find?_eq_some found, by simpa using List.find?_some found⟩

theorem named_change {folder : Bytes} {next : UpstreamFolder} (named : Named site)
    (keeps : site.KeepsFolder folder next) :
    Named { site with upstream := assign site.upstream folder next } := by
  intro row member
  obtain ⟨record, recorded, here, current, rest⟩ := named row member
  refine ⟨record, recorded, here, ?_, rest⟩
  simp only [assign]
  split
  · rename_i same
    rcases keeps with kept | none
    · rw [kept, current, same]
    · exact absurd same (none row member)
  · exact current

theorem named_fetch {folder : Bytes} {message : UpstreamMessage} {placement : Option Placement}
    (named : Named site) : Named (site.fetch folder message placement) := by
  intro row member
  unfold Site.MirroredFrom
  rw [fetch_upstream]
  rcases fetch_cases site folder message placement with ⟨same, older⟩ | ⟨placed, _, _, grown, newer⟩
  · rw [same]
    exact named row (older row member)
  · rw [grown]
    rcases newer row member with rfl | old
    · exact ⟨_, List.mem_cons_self, rfl, rfl, rfl, rfl⟩
    · obtain ⟨record, recorded, facts⟩ := named row old
      exact ⟨record, List.mem_cons_of_mem _ recorded, facts⟩

theorem named_settle {folder : Bytes} {reconciles : Bool} (named : Named site) :
    Named (site.settle folder reconciles) := by
  intro row member
  obtain ⟨upstream, mirrored⟩ := settle_upstream site folder reconciles
  unfold Site.MirroredFrom
  rw [upstream, mirrored]
  exact named row (settled_rows member)

theorem named_flags {message : MessageID} {answers : FlagAnswers} (named : Named site) :
    Named (site.reconcileMessageFlags message answers) := by
  intro row member
  obtain ⟨old, known, synced, rfl⟩ := reconciled_row member
  exact named old known

theorem assign_validity (upstream : Bytes → UpstreamFolder) (folder : Bytes) (snapshot : Snapshot)
    (other : Bytes) :
    (assign upstream folder { upstream folder with snapshot } other).validity =
      (upstream other).validity := by
  unfold assign
  split
  · rename_i same
    rw [same]
  · rfl

theorem assign_apart {Value : Type} (values : Bytes → Value) {folder other : Bytes} (value : Value)
    (apart : other ≠ folder) : assign values folder value other = values other := if_neg apart

theorem move_upstream_keeps (site : Site) {source destination : Bytes} (uid : Nat)
    (apart : destination ≠ source) {folder : Bytes} {other : Nat} {message : MessageID}
    (named : site.MirroredFrom folder other message) :
    (site.moveUpstream source destination uid).MirroredFrom folder other message := by
  unfold Site.moveUpstream
  split
  · exact named
  · obtain ⟨record, recorded, here, current, rest⟩ := named
    refine ⟨record, List.mem_append_right _ recorded, here, ?_, rest⟩
    have same := assign_apart site.upstream
      { site.upstream source with snapshot := (site.upstream source).snapshot.without uid } apart
    simp only
    rw [← same, assign_validity, assign_validity]
    exact current

theorem move_upstream_arrives (site : Site) {source : Bytes} (destination : Bytes) {uid : Nat}
    {message : MessageID} (present : (site.upstream source).snapshot.has uid = true)
    (named : site.MirroredFrom source uid message) :
    (site.moveUpstream source destination uid).MirroredFrom destination
      (site.upstream destination).snapshot.freshUid message := by
  unfold Site.moveUpstream
  split
  · rename_i absent
    obtain ⟨other, member, same⟩ := List.any_eq_true.mp present
    exact absurd same (List.find?_eq_none.mp absent other member)
  · obtain ⟨record, recorded, here, current, sameUid, sameMessage⟩ := named
    refine ⟨{ record with
      folder := destination
      validity := (site.upstream destination).validity
      uid := (site.upstream destination).snapshot.freshUid }, ?_, rfl, ?_, rfl, sameMessage⟩
    · apply List.mem_append_left
      apply List.mem_map_of_mem
      simp [recorded, here, current, sameUid]
    · simp [assign]

theorem move_target_apart {answers : MoveAnswers} {row : MessageState} {target : MailboxID × Bytes}
    (found : moveTarget answers row = some target) : target.2 ≠ row.folder := by
  have passed := (Option.filter_eq_some_iff.mp found).2
  simp only [ne_eq, Bool.and_eq_true, decide_not, Bool.not_eq_true', decide_eq_false_iff_not] at passed
  exact passed.2

theorem named_update {message : MessageID} {flags : FlagAnswers} {move : MoveAnswers}
    (named : Named site) (keeps : site.KeepsUid message move) :
    Named (site.processUpdate message flags move) := by
  unfold Site.processUpdate
  cases found : stateByMessage site.rows message with
  | none => exact named
  | some row =>
    have before : Named (site.reconcileMessageFlags message flags) := named_flags named
    simp only [Site.writeBackMove]
    cases going : moveTarget move row with
    | none => exact before
    | some target =>
      simp only
      split
      · rename_i succeeds
        obtain ⟨present, sameUid⟩ := keeps row target found going succeeds
        have apart := move_target_apart going
        intro other member
        rcases mem_upsert member with rfl | ⟨old, _⟩
        · have arrived := move_upstream_arrives (site.reconcileMessageFlags message flags)
            target.2 present (named row (state_by_message_mem found).1)
          exact sameUid ▸ arrived
        · have kept : other ∈ (site.reconcileMessageFlags message flags).rows := by
            unfold Site.moveUpstream at old
            split at old
            · exact old
            · exact old
          exact move_upstream_keeps _ row.uid apart (before other kept)
      · exact before

theorem named_step {event : SiteEvent} {next : Site} (named : Named site)
    (anchored : Anchored site event) (stepped : Site.machine.step site event = some next) :
    Named next := by
  cases event with
  | change folder upstream =>
    obtain ⟨_, taken⟩ := Option.ite_none_right_eq_some.mp stepped
    cases taken
    exact named_change named anchored
  | fetch folder message placement =>
    obtain ⟨_, taken⟩ := Option.ite_none_right_eq_some.mp stepped
    cases taken
    exact named_fetch named
  | settle folder reconciles =>
    cases stepped
    exact named_settle named
  | flags message answers =>
    cases stepped
    exact named_flags named
  | updated message flags move =>
    cases stepped
    exact named_update named anchored.2
  | destroyed message answers =>
    cases stepped
    exact named

end Steps

section Commands

variable {site : Site}

theorem selected_row {answers : FlagAnswers} {rows : List MessageState} {folder : Bytes}
    (selected : selectedAfter answers rows = some folder) : ∃ row ∈ rows, row.folder = folder := by
  induction rows using List.reverseRecOn with
  | nil => cases selected
  | append_singleton rows row ih =>
    simp only [selectedAfter, List.foldl_append, List.foldl_cons, List.foldl_nil] at selected
    split at selected
    · cases selected
      exact ⟨row, List.mem_append_right _ List.mem_cons_self, rfl⟩
    · cases selected

theorem flag_commands_named {answers : FlagAnswers} {message : MessageID} {command : Command}
    (named : Named site) (oneFolder : site.OneFolder message)
    (sent : command ∈ flagCommands answers (statesOf site.rows message)) :
    site.MirroredFrom command.folder command.uid command.message := by
  unfold flagCommands at sent
  split at sent
  · cases sent
  · rename_i folder selected
    obtain ⟨last, lastMember, rfl⟩ := selected_row selected
    obtain ⟨view, pushed, stored⟩ := List.mem_flatMap.mp sent
    have member := mem_pushed_views pushed
    have addressed : command.message = view.1.messageID ∧ command.folder = last.folder ∧
        command.uid = view.1.uid := by
      simp only [pushFlagsToUpstream] at stored
      split at stored
      · rcases List.mem_cons.mp stored with rfl | second
        · exact ⟨rfl, rfl, rfl⟩
        · rw [List.mem_singleton.mp second]
          exact ⟨rfl, rfl, rfl⟩
      · rw [List.mem_singleton.mp stored]
        exact ⟨rfl, rfl, rfl⟩
    rw [addressed.1, addressed.2.1, addressed.2.2, oneFolder last lastMember view.1 member]
    exact named view.1 (List.mem_filter.mp member).1

theorem move_commands_address {answers : MoveAnswers} {row : MessageState} {command : Command}
    (sent : command ∈ moveCommands answers row) :
    command.message = row.messageID ∧ command.folder = row.folder ∧ command.uid = row.uid := by
  unfold moveCommands at sent
  split at sent
  · cases sent
  · simp only at sent
    split at sent
    · rcases List.mem_cons.mp sent with rfl | again
      · exact ⟨rfl, rfl, rfl⟩
      · rw [List.mem_singleton.mp again]
        exact ⟨rfl, rfl, rfl⟩
    · rw [List.mem_singleton.mp sent]
      exact ⟨rfl, rfl, rfl⟩

theorem destroy_commands_address {account : Account} {answers : DestroyAnswers} {row : MessageState}
    {message : MessageID} {command : Command}
    (sent : command ∈ writeBackDestroy account answers row message) :
    command.message = message ∧ command.folder = row.folder ∧ command.uid = row.uid := by
  unfold writeBackDestroy at sent
  split at sent
  · cases sent
  · simp only at sent
    split at sent
    · rcases List.mem_cons.mp sent with rfl | again
      · exact ⟨rfl, rfl, rfl⟩
      · rw [List.mem_singleton.mp again]
        exact ⟨rfl, rfl, rfl⟩
    · rw [List.mem_singleton.mp sent]
      exact ⟨rfl, rfl, rfl⟩

theorem commands_named {account : Account} {event : SiteEvent} {command : Command}
    (named : Named site) (anchored : Anchored site event)
    (sent : command ∈ site.commands account event) :
    site.MirroredFrom command.folder command.uid command.message := by
  cases event with
  | change folder upstream => cases sent
  | fetch folder message placement => cases sent
  | settle folder reconciles => cases sent
  | flags message answers => exact flag_commands_named named anchored sent
  | updated message flags move =>
    simp only [Site.commands] at sent
    split at sent
    · cases sent
    · rename_i row found
      rcases List.mem_append.mp sent with flagged | moved
      · exact flag_commands_named named anchored.1 flagged
      · obtain ⟨sameMessage, sameFolder, sameUid⟩ := move_commands_address moved
        rw [sameMessage, sameFolder, sameUid]
        exact named row (state_by_message_mem found).1
  | destroyed message answers =>
    simp only [Site.commands] at sent
    split at sent
    · cases sent
    · rename_i row found
      obtain ⟨sameMessage, sameFolder, sameUid⟩ := destroy_commands_address sent
      obtain ⟨member, here⟩ := state_by_message_mem found
      rw [sameMessage, sameFolder, sameUid, ← here]
      exact named row member

end Commands

/-- Every command of write-back is for an upstream message that was mirrored as the
message it is sent for. -/
theorem write_back_addresses_mirrored (account : Account) (start final : Site)
    (events : List SiteEvent) (fresh : start.rows = [])
    (anchored : Site.machine.Meets Anchored start events)
    (ran : Site.machine.execute start events = some final) (event : SiteEvent)
    (next : Anchored final event) (command : Command) (sent : command ∈ final.commands account event) :
    final.MirroredFrom command.folder command.uid command.message := by
  have started : Named start := by
    intro row member
    rw [fresh] at member
    cases member
  have named : Named final := Site.machine.meets_keeps Anchored Named
    (fun _ _ _ named anchored stepped => named_step named anchored stepped)
    events start final started anchored ran
  exact commands_named named next sent

def inboxAndArchive : Site where
  upstream folder :=
    if folder = [73] then ⟨1, Snapshot.empty.deliver ⟨0, 5, false⟩⟩
    else ⟨1, (Snapshot.empty.deliver ⟨0, 1, false⟩).deliver ⟨0, 2, false⟩⟩

def inboxPlacement : Option Placement := some ⟨1, 5, 5, {}, [], true⟩

def inboxFetched : SiteEvent := .fetch [73] ⟨1, 5, false⟩ inboxPlacement

def inboxMirrored : Site := inboxAndArchive.fetch [73] ⟨1, 5, false⟩ inboxPlacement

theorem inbox_fetched_step : Site.machine.step inboxAndArchive inboxFetched = some inboxMirrored :=
  fetch_step _ (by decide)

def pushing (herold : SyncedFlags) : FlagAnswers where
  herold := herold
  selects _ := true
  fetched row := if row.folder = [73] then none else some {}
  storesSeen _ := true
  storesFlagged _ := true
  applied := {}

def movedToArchive : SiteEvent := .updated 1 (pushing {}) ⟨some (6, [65]), true, false, true⟩

/-- The message goes to the archive with the UID 3 and keeps the UID 1 in its row.
When it is read, the flag is set on the first message of the archive. -/
theorem moved_message_flags_another :
    ∃ final, Site.machine.execute inboxAndArchive [inboxFetched, movedToArchive] = some final ∧
      ∃ command ∈ final.commands ⟨1, true⟩
          (.updated 1 (pushing { seen := true }) ⟨none, true, false, false⟩),
        command.message = 1 ∧ (final.upstream command.folder).snapshot.has command.uid = true ∧
          ¬final.MirroredFrom command.folder command.uid command.message := by
  refine ⟨inboxMirrored.processUpdate 1 (pushing {}) ⟨some (6, [65]), true, false, true⟩, ?_,
    ⟨1, [65], 1, .storeFlags { seen := true } {}⟩, by decide, rfl, by decide, by decide⟩
  rw [Machine.execute, inbox_fetched_step]
  rfl

def inboxAndEmptyArchive : Site where
  upstream folder :=
    if folder = [73] then ⟨1, Snapshot.empty.deliver ⟨0, 5, false⟩⟩ else ⟨1, Snapshot.empty⟩

def inboxFilled : Site := inboxAndEmptyArchive.fetch [73] ⟨1, 5, false⟩ inboxPlacement

def reading : FlagAnswers where
  herold := { seen := true }
  selects _ := true
  fetched _ := some {}
  storesSeen _ := true
  storesFlagged _ := true
  applied := {}

/-- The message is read and moved, and gets the UID 1 in the archive as well. -/
def readAndMoved : SiteEvent := .updated 1 reading ⟨some (6, [65]), true, false, true⟩

theorem read_and_moved_anchored : Anchored inboxFilled readAndMoved := by
  refine ⟨?_, ?_⟩
  · unfold Site.OneFolder
    decide
  · intro row target found aimed _
    have only : stateByMessage inboxFilled.rows 1 = some ⟨[73], 1, 1, 5, 5, {}⟩ := by decide
    obtain rfl := Option.some.inj (only.symm.trans found)
    have place : moveTarget ⟨some (6, [65]), true, false, true⟩ ⟨[73], 1, 1, 5, 5, {}⟩ =
      some (6, [65]) := by decide
    obtain rfl := Option.some.inj (place.symm.trans aimed)
    exact ⟨by decide, by decide⟩

theorem write_back_addresses_mirrored_of_fetch :
    ∃ final, Site.machine.execute inboxAndEmptyArchive [inboxFetched] = some final ∧
      (final.commands ⟨1, true⟩ readAndMoved).length = 3 ∧
      (final.commands ⟨1, true⟩ (.destroyed 1 ⟨true, true⟩)).length = 2 ∧
      ∀ event ∈ [readAndMoved, .destroyed 1 ⟨true, true⟩], ∀ command ∈ final.commands ⟨1, true⟩ event,
        final.MirroredFrom command.folder command.uid command.message := by
  have stepped : Site.machine.step inboxAndEmptyArchive inboxFetched = some inboxFilled :=
    fetch_step _ (by decide)
  have ran : Site.machine.execute inboxAndEmptyArchive [inboxFetched] = some inboxFilled := by
    rw [Machine.execute, stepped]
    rfl
  have anchored : Site.machine.Meets Anchored inboxAndEmptyArchive [inboxFetched] := by
    refine ⟨trivial, ?_⟩
    rw [stepped]
    trivial
  refine ⟨inboxFilled, ran, by decide, by decide, ?_⟩
  intro event listed command sent
  have next : Anchored inboxFilled event := by
    rcases List.mem_pair.mp listed with rfl | rfl
    · exact read_and_moved_anchored
    · trivial
  exact write_back_addresses_mirrored ⟨1, true⟩ inboxAndEmptyArchive inboxFilled _ rfl
    anchored ran event
    next command sent

end Herold.Import

import Herold.Import.Addressing

/-!
# What reconciliation removes

A pass removes the membership of every row whose UID is gone. That no other copy of
the message is left upstream is certain only where a mailbox has one copy of it at a
time, and the UIDs of the rows are those of the folder as it is.
-/

namespace Herold.Import

open Herold.Go Herold.Store Herold.Machine

def Site.Present (site : Site) (record : Mirroring) : Prop :=
  record.validity = (site.upstream record.folder).validity ∧
    (site.upstream record.folder).snapshot.has record.uid = true

def Site.Upstream (site : Site) (record : Mirroring) : Prop :=
  record.validity = (site.upstream record.folder).validity ∧
    ∃ message ∈ (site.upstream record.folder).snapshot.messages,
      message.uid = record.uid ∧ message.deleted = false

def Site.recordOf (site : Site) (row : MessageState) : Mirroring :=
  ⟨row.folder, (site.upstream row.folder).validity, row.uid, row.messageID, row.mailboxID⟩

/-- No other row has the message in the mailbox, and no other upstream message that
was mirrored there is left. -/
def Site.Lone (site : Site) (record : Mirroring) : Prop :=
  (∀ row ∈ site.rows, row.messageID = record.messageID → row.mailboxID = record.mailboxID →
    site.recordOf row = record) ∧
  ∀ other ∈ site.mirrored, other.messageID = record.messageID → other.mailboxID = record.mailboxID →
    other = record ∨ ¬site.Present other

/-- Each membership has one upstream copy, and a folder with rows keeps its
UIDVALIDITY. -/
def Separate (site : Site) : SiteEvent → Prop
  | .change folder next => site.KeepsFolder folder next
  | .fetch folder message (some placement) => message.deleted = true ∨
      site.Lone ⟨folder, (site.upstream folder).validity, message.uid, placement.messageID,
        placement.mailboxID⟩
  | .updated _ _ move => move.succeeds = false
  | _ => True

structure Traced (site : Site) : Prop where
  rows : ∀ row ∈ site.rows, site.recordOf row ∈ site.mirrored
  lone : ∀ row ∈ site.rows, ∀ record ∈ site.mirrored, record.messageID = row.messageID →
    record.mailboxID = row.mailboxID → record = site.recordOf row ∨ ¬site.Present record
  bounded : ∀ record ∈ site.mirrored, record.validity ≤ (site.upstream record.folder).validity ∧
    (record.validity = (site.upstream record.folder).validity →
      record.uid < (site.upstream record.folder).snapshot.uidNext)

section Steps

variable {site : Site}

theorem snapshot_has {snapshot : Snapshot} {uid : Nat} :
    snapshot.has uid = true ↔ ∃ message ∈ snapshot.messages, message.uid = uid := by
  simp [Snapshot.has]

theorem present_before {folder : Bytes} {next : UpstreamFolder} (traced : Traced site)
    (succeeds : Succeeds (site.upstream folder) next) {record : Mirroring}
    (recorded : record ∈ site.mirrored)
    (present : ({ site with upstream := assign site.upstream folder next } : Site).Present record) :
    site.Present record := by
  obtain ⟨current, has⟩ := present
  simp only [assign] at current has
  by_cases here : record.folder = folder
  · rw [if_pos here] at current has
    obtain ⟨small, known⟩ := traced.bounded record recorded
    rw [here] at small known
    rcases succeeds with ⟨same, evolves⟩ | rolled
    · have old : record.validity = (site.upstream folder).validity := current.trans same
      obtain ⟨message, member, sameUid⟩ := snapshot_has.mp has
      obtain ⟨earlier, was, earlierUid, _⟩ := evolves.2 message member (sameUid ▸ known old)
      refine ⟨here ▸ old, ?_⟩
      rw [here]
      exact snapshot_has.mpr ⟨earlier, was, earlierUid.trans sameUid⟩
    · omega
  · rw [if_neg here] at current has
    exact ⟨current, has⟩

theorem record_of_change (site : Site) {folder : Bytes} {next : UpstreamFolder} {row : MessageState}
    (member : row ∈ site.rows) (keeps : site.KeepsFolder folder next) :
    ({ site with upstream := assign site.upstream folder next } : Site).recordOf row =
      site.recordOf row := by
  simp only [Site.recordOf, assign]
  split
  · rename_i here
    rcases keeps with same | none
    · rw [same, here]
    · exact absurd here (none row member)
  · rfl

theorem traced_change {folder : Bytes} {next : UpstreamFolder} (traced : Traced site)
    (succeeds : Succeeds (site.upstream folder) next) (keeps : site.KeepsFolder folder next) :
    Traced { site with upstream := assign site.upstream folder next } := by
  refine ⟨?_, ?_, ?_⟩
  · intro row member
    rw [record_of_change site member keeps]
    exact traced.rows row member
  · intro row member record recorded sameMessage sameMailbox
    rw [record_of_change site member keeps]
    rcases traced.lone row member record recorded sameMessage sameMailbox with own | gone
    · exact Or.inl own
    · exact Or.inr fun present => gone (present_before traced succeeds recorded present)
  · intro record recorded
    obtain ⟨small, known⟩ := traced.bounded record recorded
    simp only [assign]
    split
    · rename_i here
      rw [here] at small known
      rcases succeeds with ⟨same, evolves⟩ | rolled
      · rw [same]
        exact ⟨small, fun current => Nat.lt_of_lt_of_le (known current) evolves.1⟩
      · exact ⟨Nat.le_of_lt (Nat.lt_of_le_of_lt small rolled), fun current => by omega⟩
    · exact ⟨small, known⟩

/-- Where the folders and the mirrorings stay and every row stands for what some row
stood for. -/
theorem traced_of_rows {next : Site} (traced : Traced site) (upstream : next.upstream = site.upstream)
    (mirrored : next.mirrored = site.mirrored)
    (rows : ∀ row ∈ next.rows, ∃ old ∈ site.rows, ∃ synced, row = { old with lastSynced := synced }) :
    Traced next := by
  have records : ∀ old synced, next.recordOf { old with lastSynced := synced } = site.recordOf old := by
    intro old synced
    simp only [Site.recordOf, upstream]
  refine ⟨?_, ?_, ?_⟩
  · intro row member
    obtain ⟨old, known, synced, rfl⟩ := rows row member
    rw [records, mirrored]
    exact traced.rows old known
  · intro row member record recorded sameMessage sameMailbox
    obtain ⟨old, known, synced, rfl⟩ := rows row member
    rw [mirrored] at recorded
    rw [records, Site.Present, upstream]
    exact traced.lone old known record recorded sameMessage sameMailbox
  · rw [mirrored, upstream]
    exact traced.bounded

theorem traced_fetch {folder : Bytes} {message : UpstreamMessage} {placement : Option Placement}
    (traced : Traced site) (listed : message ∈ (site.upstream folder).snapshot.messages)
    (separate : Separate site (.fetch folder message placement)) :
    Traced (site.fetch folder message placement) := by
  have upstream := fetch_upstream site folder message placement
  rcases fetch_cases site folder message placement with
    ⟨same, older⟩ | ⟨placed, rfl, undeleted, grown, newer⟩
  · apply traced_of_rows traced upstream same
    intro row member
    exact ⟨row, older row member, row.lastSynced, rfl⟩
  · obtain ⟨aloneRows, aloneRecords⟩ := separate.resolve_left (by simp [undeleted])
    have records : ∀ row, (site.fetch folder message (some placed)).recordOf row =
      site.recordOf row := by
      intro row
      simp only [Site.recordOf, upstream]
    refine ⟨?_, ?_, ?_⟩
    · intro row member
      rw [records, grown]
      rcases newer row member with rfl | old
      · exact List.mem_cons_self
      · exact List.mem_cons_of_mem _ (traced.rows row old)
    · intro row member record recorded sameMessage sameMailbox
      rw [grown] at recorded
      rw [records, Site.Present, upstream]
      rcases newer row member with rfl | old
      · rcases List.mem_cons.mp recorded with rfl | earlier
        · exact Or.inl rfl
        · exact aloneRecords record earlier sameMessage sameMailbox
      · rcases List.mem_cons.mp recorded with rfl | earlier
        · exact Or.inl (aloneRows row old sameMessage.symm sameMailbox.symm).symm
        · exact traced.lone row old record earlier sameMessage sameMailbox
    · intro record recorded
      rw [grown] at recorded
      rw [upstream]
      rcases List.mem_cons.mp recorded with rfl | earlier
      · exact ⟨Nat.le_refl _, fun _ => ((site.upstream folder).snapshot.numbered message listed).2⟩
      · exact traced.bounded record earlier

theorem traced_flags {message : MessageID} {answers : FlagAnswers} (traced : Traced site) :
    Traced (site.reconcileMessageFlags message answers) :=
  traced_of_rows traced rfl rfl fun _ member => reconciled_row member

theorem traced_step {event : SiteEvent} {next : Site} (traced : Traced site)
    (separate : Separate site event) (stepped : Site.machine.step site event = some next) :
    Traced next := by
  cases event with
  | change folder upstream =>
    obtain ⟨succeeds, taken⟩ := Option.ite_none_right_eq_some.mp stepped
    cases taken
    exact traced_change traced succeeds separate
  | fetch folder message placement =>
    obtain ⟨listed, taken⟩ := Option.ite_none_right_eq_some.mp stepped
    cases taken
    exact traced_fetch traced listed separate
  | settle folder reconciles =>
    cases stepped
    obtain ⟨upstream, mirrored⟩ := settle_upstream site folder reconciles
    apply traced_of_rows traced upstream mirrored
    intro row member
    exact ⟨row, settled_rows member, row.lastSynced, rfl⟩
  | flags message answers =>
    cases stepped
    exact traced_flags traced
  | updated message flags move =>
    cases stepped
    unfold Site.processUpdate
    split
    · exact traced
    · unfold Site.writeBackMove
      split
      · exact traced_flags traced
      · rw [if_neg (by rw [separate]; exact Bool.false_ne_true)]
        exact traced_flags traced
  | destroyed message answers =>
    cases stepped
    exact traced

theorem mem_removals {folder : Bytes} {row : MessageState} (member : row ∈ site.removals folder) :
    row ∈ site.rows ∧ (site.upstream row.folder).snapshot.has row.uid = false := by
  unfold Site.removals at member
  split at member
  · cases member
  · obtain ⟨tracked, absent⟩ := List.mem_filter.mp (List.mem_filter.mp member).1
    obtain ⟨known, here⟩ := List.mem_filter.mp tracked
    rw [of_decide_eq_true here]
    exact ⟨known, by simpa using absent⟩

theorem upstream_present {record : Mirroring} (upstream : site.Upstream record) :
    site.Present record := by
  obtain ⟨current, message, member, sameUid, _⟩ := upstream
  exact ⟨current, snapshot_has.mpr ⟨message, member, sameUid⟩⟩

end Steps

/-- Whatever row is removed, nothing that was mirrored into its mailbox as its
message is left upstream. -/
theorem reconcile_removes_departed (start final : Site) (events : List SiteEvent)
    (fresh : start.rows = [] ∧ start.mirrored = [])
    (separate : Site.machine.Meets Separate start events)
    (ran : Site.machine.execute start events = some final) (folder : Bytes) (row : MessageState)
    (removed : row ∈ final.removals folder) (record : Mirroring) (recorded : record ∈ final.mirrored)
    (sameMessage : record.messageID = row.messageID) (sameMailbox : record.mailboxID = row.mailboxID) :
    ¬final.Upstream record := by
  have started : Traced start := by
    refine ⟨?_, ?_, ?_⟩
    · intro row member
      rw [fresh.1] at member
      cases member
    · intro row member
      rw [fresh.1] at member
      cases member
    · intro record member
      rw [fresh.2] at member
      cases member
  have traced : Traced final := Site.machine.meets_keeps Separate Traced
    (fun _ _ _ traced separate stepped => traced_step traced separate stepped)
    events start final started separate ran
  obtain ⟨known, absent⟩ := mem_removals removed
  intro upstream
  have present := upstream_present upstream
  rcases traced.lone row known record recorded sameMessage sameMailbox with rfl | gone
  · exact Bool.false_ne_true (absent.symm.trans present.2)
  · exact gone present

def copiesFolder : UpstreamFolder :=
  ⟨1, (Snapshot.empty.deliver ⟨0, 5, false⟩).deliver ⟨0, 5, false⟩⟩

def firstCopyGone : UpstreamFolder := ⟨1, copiesFolder.snapshot.without 1⟩

def twoCopies : Site where
  upstream _ := copiesFolder

def copyPlacement : Option Placement := some ⟨1, 5, 5, {}, [], true⟩

def firstFetched : Site := twoCopies.fetch [73] ⟨1, 5, false⟩ copyPlacement

def bothFetched : Site := firstFetched.fetch [73] ⟨2, 5, false⟩ copyPlacement

def Site.firstLeaves (site : Site) : Site :=
  { site.settle [73] false with
    upstream := assign (site.settle [73] false).upstream [73] firstCopyGone }

theorem first_fetched_step :
    Site.machine.step twoCopies (.fetch [73] ⟨1, 5, false⟩ copyPlacement) = some firstFetched :=
  fetch_step _ (by decide)

theorem first_copy_leaves (site : Site) (copies : site.upstream [73] = copiesFolder) :
    Site.machine.execute site [.settle [73] false, .change [73] firstCopyGone] =
      some site.firstLeaves := by
  have succeeds : Succeeds ((site.settle [73] false).upstream [73]) firstCopyGone := by
    have unchanged : (site.settle [73] false).upstream [73] = copiesFolder := copies
    rw [unchanged]
    exact Or.inl ⟨rfl, by decide⟩
  have stepped : Site.machine.step (site.settle [73] false) (.change [73] firstCopyGone) =
      some site.firstLeaves := if_pos succeeds
  simp only [Machine.execute]
  have settled : Site.machine.step site (.settle [73] false) = some (site.settle [73] false) := rfl
  rw [settled]
  simp only
  rw [stepped]

/-- Both copies are one message in the store. When the first leaves, the membership
goes though the second is still upstream. -/
theorem remaining_copy_removed :
    ∃ final, Site.machine.execute twoCopies
        [.fetch [73] ⟨1, 5, false⟩ copyPlacement, .fetch [73] ⟨2, 5, false⟩ copyPlacement,
          .settle [73] false, .change [73] firstCopyGone] = some final ∧
      final.cursor [73] = some (final.upstream [73]).validity ∧
      ∃ row ∈ final.removals [73], ∃ record ∈ final.mirrored, record.messageID = row.messageID ∧
        record.mailboxID = row.mailboxID ∧ final.Upstream record := by
  have second : Site.machine.step firstFetched (.fetch [73] ⟨2, 5, false⟩ copyPlacement) =
      some bothFetched := fetch_step _ (by decide)
  refine ⟨bothFetched.firstLeaves, ?_, rfl, ⟨[73], 1, 1, 5, 5, {}⟩, by decide,
    ⟨[73], 1, 2, 1, 5⟩, by decide, rfl, rfl, rfl, ⟨2, 5, false⟩, by decide, rfl, rfl⟩
  rw [Machine.execute, first_fetched_step]
  simp only
  rw [Machine.execute, second]
  exact first_copy_leaves bothFetched rfl

theorem reconcile_removes_departed_of_one_copy :
    ∃ final, Site.machine.execute twoCopies
        [.fetch [73] ⟨1, 5, false⟩ copyPlacement, .settle [73] false, .change [73] firstCopyGone] =
          some final ∧
      (final.removals [73]).length = 1 ∧ ∀ row ∈ final.removals [73], ∀ record ∈ final.mirrored,
        record.messageID = row.messageID → record.mailboxID = row.mailboxID →
        ¬final.Upstream record := by
  have ran : Site.machine.execute twoCopies
      [.fetch [73] ⟨1, 5, false⟩ copyPlacement, .settle [73] false, .change [73] firstCopyGone] =
        some firstFetched.firstLeaves := by
    rw [Machine.execute, first_fetched_step]
    exact first_copy_leaves firstFetched rfl
  have separate : Site.machine.Meets Separate twoCopies
      [.fetch [73] ⟨1, 5, false⟩ copyPlacement, .settle [73] false, .change [73] firstCopyGone] := by
    refine ⟨Or.inr ⟨fun _ member => absurd member List.not_mem_nil,
      fun _ member => absurd member List.not_mem_nil⟩, ?_⟩
    rw [first_fetched_step]
    refine ⟨trivial, Or.inl rfl, ?_⟩
    split
    · trivial
    · trivial
  refine ⟨firstFetched.firstLeaves, ran, by decide, ?_⟩
  intro row removed record recorded sameMessage sameMailbox
  exact reconcile_removes_departed twoCopies firstFetched.firstLeaves _ ⟨rfl, rfl⟩ separate ran [73] row
    removed record recorded sameMessage sameMailbox

end Herold.Import

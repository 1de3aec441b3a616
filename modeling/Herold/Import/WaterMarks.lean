import Herold.Import.Folder
import Mathlib.Data.List.Pairwise

/-!
# Nothing between the water marks is missed

Between the low and the high mark every message in the horizon has a row. The
passes keep this where a pass records what it requests, the backfill meets no
failure, and nothing comes into the horizon between the marks.
-/

namespace Herold.Import

open Herold.Machine

def Folder.requested (folder : Folder) (pass : Pass) : List UpstreamMessage :=
  if folder.high = 0 then searchSince pass.snapshot pass.floor
  else if folder.low = 0 then aboveHigh pass (folder.cursor.getD {})
  else belowLow pass (folder.cursor.getD {}) ++ aboveHigh pass (folder.cursor.getD {})

def Wanted (snapshot : Snapshot) (floor : Nat) (message : UpstreamMessage) : Prop :=
  message ∈ snapshot.messages ∧ floor ≤ message.date ∧ message.deleted = false

def Folder.spans (folder : Folder) (uid : Nat) : Prop := folder.low ≤ uid ∧ uid ≤ folder.high

structure Complete (folder : Folder) : Prop where
  recorded : ∀ message, Wanted folder.seen folder.floor message → folder.spans message.uid →
    hasRow folder.rows message.uid = true
  high : folder.high = 0 ∨ folder.high < folder.seen.uidNext

structure Orderly (folder : Folder) (pass : Pass) : Prop where
  recorded : ∀ message ∈ folder.requested pass, message.deleted = false →
    pass.verdict message.uid ≠ .unrecorded
  backfilled : folder.high ≠ 0 → ∀ message, Wanted pass.snapshot pass.floor message →
    message.uid < folder.low → pass.verdict message.uid ≠ .failed
  /-- Nothing between the marks comes into the horizon or loses its `\Deleted`. -/
  settled : ∀ message, Wanted pass.snapshot pass.floor message → folder.spans message.uid →
    folder.floor ≤ message.date ∧
      ∀ earlier ∈ folder.seen.messages, earlier.uid = message.uid → earlier.deleted = false

section Rows

variable {rows : List Row} {uid : Nat}

theorem has_row_upsert {row : Row} : hasRow (upsertRow rows row) uid = true ↔
    row.uid = uid ∨ hasRow rows uid = true := by
  simp only [hasRow, upsertRow, List.any_eq_true, List.mem_append, List.mem_filter,
    List.mem_singleton, decide_eq_true_eq]
  constructor
  · rintro ⟨other, ⟨member, _⟩ | rfl, same⟩
    · exact Or.inr ⟨other, member, same⟩
    · exact Or.inl same
  · rintro (same | ⟨other, member, same⟩)
    · exact ⟨row, Or.inr rfl, same⟩
    · by_cases here : other.uid = row.uid
      · exact ⟨row, Or.inr rfl, here ▸ same⟩
      · exact ⟨other, Or.inl ⟨member, here⟩, same⟩

theorem has_row_remove {other : Nat} (has : hasRow rows uid = true) (apart : other ≠ uid) :
    hasRow (removeRow rows other) uid = true := by
  simp only [hasRow, removeRow, List.any_eq_true, List.mem_filter, Bool.or_eq_true,
    decide_eq_true_eq] at has ⊢
  obtain ⟨row, member, same⟩ := has
  exact ⟨row, ⟨member, Or.inl fun equal => apart (equal.symm.trans same)⟩, same⟩

theorem has_row_subset {fewer : List Row} (among : fewer ⊆ rows) (has : hasRow fewer uid = true) :
    hasRow rows uid = true := by
  obtain ⟨row, member, same⟩ := List.any_eq_true.mp has
  exact List.any_eq_true.mpr ⟨row, among member, same⟩

theorem remove_row_subset {other : Nat} : removeRow rows other ⊆ rows := fun _ member =>
  (List.mem_filter.mp member).1

theorem remove_rows_subset {messages : List UpstreamMessage} :
    messages.foldl (fun rows message => removeRow rows message.uid) rows ⊆ rows := by
  induction messages generalizing rows with
  | nil => exact List.Subset.refl rows
  | cons message messages ih => exact List.Subset.trans ih remove_row_subset

theorem has_row_removes {messages : List UpstreamMessage} (has : hasRow rows uid = true)
    (apart : ∀ message ∈ messages, message.uid ≠ uid) :
    hasRow (messages.foldl (fun rows message => removeRow rows message.uid) rows) uid = true := by
  induction messages generalizing rows with
  | nil => exact has
  | cons message messages ih =>
    apply ih
    · exact has_row_remove has (apart message List.mem_cons_self)
    · intro other member
      exact apart other (List.mem_cons_of_mem _ member)

end Rows

section Batches

variable {verdict : Nat → Verdict} {batch : Batch} {uid : Nat}

def Alive (messages : List UpstreamMessage) (uid : Nat) : Prop :=
  ∀ message ∈ messages, message.uid = uid → message.deleted = false

section

variable {messages : List UpstreamMessage} {message : UpstreamMessage}

theorem ingest_one_keeps (has : hasRow batch.rows uid = true)
    (alive : message.uid = uid → message.deleted = false) :
    hasRow (ingestOne verdict batch message).rows uid = true := by
  unfold ingestOne
  by_cases deleted : message.deleted = true
  · rw [if_pos deleted]
    apply has_row_remove has
    intro same
    rw [alive same] at deleted
    cases deleted
  · rw [if_neg deleted]
    cases verdict message.uid with
    | mirrored => exact has_row_upsert.mpr (Or.inr has)
    | suppressed => exact has_row_upsert.mpr (Or.inr has)
    | unrecorded => exact has
    | failed => exact has

theorem ingest_one_records (alive : message.deleted = false)
    (recorded : verdict message.uid ≠ .unrecorded) (ingested : verdict message.uid ≠ .failed) :
    hasRow (ingestOne verdict batch message).rows message.uid = true := by
  unfold ingestOne
  rw [if_neg (by rw [alive]; exact Bool.false_ne_true)]
  cases result : verdict message.uid with
  | mirrored => exact has_row_upsert.mpr (Or.inl rfl)
  | suppressed => exact has_row_upsert.mpr (Or.inl rfl)
  | unrecorded => exact absurd result recorded
  | failed => exact absurd result ingested

theorem ingest_keeps (has : hasRow batch.rows uid = true) (alive : Alive messages uid) :
    hasRow (messages.foldl (ingestOne verdict) batch).rows uid = true := by
  induction messages generalizing batch with
  | nil => exact has
  | cons message messages ih =>
    apply ih
    · exact ingest_one_keeps has (alive message List.mem_cons_self)
    · intro other member
      exact alive other (List.mem_cons_of_mem _ member)

theorem ingest_records (member : message ∈ messages) (alive : Alive messages message.uid)
    (recorded : verdict message.uid ≠ .unrecorded) (ingested : verdict message.uid ≠ .failed) :
    hasRow (messages.foldl (ingestOne verdict) batch).rows message.uid = true := by
  induction messages generalizing batch with
  | nil => cases member
  | cons first messages ih =>
    have later : Alive messages message.uid :=
      fun other rest => alive other (List.mem_cons_of_mem _ rest)
    rcases List.mem_cons.mp member with rfl | rest
    · apply ingest_keeps _ later
      exact ingest_one_records (alive message List.mem_cons_self rfl) recorded ingested
    · exact ih rest later

theorem ingest_one_only (has : hasRow (ingestOne verdict batch message).rows uid = true) :
    hasRow batch.rows uid = true ∨ message.uid = uid := by
  unfold ingestOne at has
  by_cases deleted : message.deleted = true
  · rw [if_pos deleted] at has
    exact Or.inl (has_row_subset remove_row_subset has)
  · rw [if_neg deleted] at has
    cases result : verdict message.uid with
    | mirrored => exact (has_row_upsert.mp (by simpa [result] using has)).symm
    | suppressed => exact (has_row_upsert.mp (by simpa [result] using has)).symm
    | unrecorded => exact Or.inl (by simpa [result] using has)
    | failed => exact Or.inl (by simpa [result] using has)

theorem ingest_only (has : hasRow (messages.foldl (ingestOne verdict) batch).rows uid = true) :
    hasRow batch.rows uid = true ∨ ∃ message ∈ messages, message.uid = uid := by
  induction messages generalizing batch with
  | nil => exact Or.inl has
  | cons message messages ih =>
    rcases ih has with earlier | ⟨other, member, same⟩
    · rcases ingest_one_only earlier with old | same
      · exact Or.inl old
      · exact Or.inr ⟨message, List.mem_cons_self, same⟩
    · exact Or.inr ⟨other, List.mem_cons_of_mem _ member, same⟩

theorem lower_le (mark uid : Nat) : lower mark uid ≤ uid ∧ (mark ≠ 0 → lower mark uid ≤ mark) := by
  unfold lower
  split <;> omega

theorem lower_pos (mark : Nat) {uid : Nat} (positive : 0 < uid) : 0 < lower mark uid := by
  unfold lower
  split <;> omega

theorem ingest_failure_stays {bound : Nat} (positive : ∀ message ∈ messages, 0 < message.uid)
    (met : 0 < batch.minFailed ∧ batch.minFailed ≤ bound) :
    0 < (messages.foldl (ingestOne verdict) batch).minFailed ∧
      (messages.foldl (ingestOne verdict) batch).minFailed ≤ bound := by
  induction messages generalizing batch with
  | nil => exact met
  | cons message messages ih =>
    apply ih fun other member => positive other (List.mem_cons_of_mem _ member)
    have marked := lower_pos batch.minFailed (positive message List.mem_cons_self)
    have least := (lower_le batch.minFailed message.uid).2 (Nat.ne_of_gt met.1)
    unfold ingestOne
    split
    · exact met
    · split
      · exact met
      · exact met
      · exact met
      · exact ⟨marked, Nat.le_trans least met.2⟩

theorem ingest_failure (positive : ∀ other ∈ messages, 0 < other.uid) (member : message ∈ messages)
    (alive : message.deleted = false) (failed : verdict message.uid = .failed) :
    0 < (messages.foldl (ingestOne verdict) batch).minFailed ∧
      (messages.foldl (ingestOne verdict) batch).minFailed ≤ message.uid := by
  induction messages generalizing batch with
  | nil => cases member
  | cons first messages ih =>
    have later := fun other rest => positive other (List.mem_cons_of_mem first rest)
    rcases List.mem_cons.mp member with rfl | rest
    · apply ingest_failure_stays later
      have marked := lower_pos batch.minFailed (positive message List.mem_cons_self)
      have least := (lower_le batch.minFailed message.uid).1
      unfold ingestOne
      rw [if_neg (by rw [alive]; exact Bool.false_ne_true), failed]
      exact ⟨marked, least⟩
    · exact ih later rest

end

end Batches

section Passes

variable {pass : Pass} {message : UpstreamMessage} {rows : List Row}

theorem wanted_positive (wanted : Wanted pass.snapshot pass.floor message) : 0 < message.uid :=
  (pass.snapshot.numbered message wanted.1).1

theorem wanted_alive (wanted : Wanted pass.snapshot pass.floor message)
    {messages : List UpstreamMessage} (part : messages ⊆ pass.snapshot.messages) :
    Alive messages message.uid := by
  intro other member same
  by_cases equal : other = message
  · rw [equal]
    exact wanted.2.2
  · have : Std.Symm fun left right : UpstreamMessage => left.uid ≠ right.uid :=
      ⟨fun _ _ differ => differ.symm⟩
    exact absurd same (pass.snapshot.distinct.forall (part member) wanted.1 equal)

theorem search_subset (snapshot : Snapshot) (floor : Nat) :
    searchSince snapshot floor ⊆ snapshot.messages := List.filter_sublist.subset

theorem below_subset (pass : Pass) (cursor : Cursor) :
    belowLow pass cursor ⊆ pass.snapshot.messages :=
  List.Subset.trans List.filter_sublist.subset (search_subset _ _)

theorem above_subset (pass : Pass) (cursor : Cursor) :
    aboveHigh pass cursor ⊆ pass.snapshot.messages := List.filter_sublist.subset

theorem down_sync_keeps (wanted : Wanted pass.snapshot pass.floor message)
    (has : hasRow rows message.uid = true) : hasRow (downSync pass rows) message.uid = true := by
  apply has_row_removes has
  intro other member same
  obtain ⟨present, gone⟩ := List.mem_filter.mp member
  have alive := wanted_alive wanted (List.Subset.refl _) other present same
  simp [alive] at gone

theorem reconcile_keeps (wanted : Wanted pass.snapshot pass.floor message)
    (has : hasRow rows message.uid = true) : hasRow (reconcile pass rows) message.uid = true := by
  unfold reconcile
  split
  · simp only [hasRow, List.any_eq_true, List.mem_filter, Bool.or_eq_true,
      decide_eq_true_eq] at has ⊢
    obtain ⟨row, member, same⟩ := has
    exact ⟨row, ⟨member, Or.inr ⟨message, wanted.1, same.symm⟩⟩, same⟩
  · exact has

theorem batch_records {messages : List UpstreamMessage} (rows : List Row) (high : Nat)
    (wanted : Wanted pass.snapshot pass.floor message) (part : messages ⊆ pass.snapshot.messages)
    (member : message ∈ messages) (above : high < message.uid)
    (recorded : pass.verdict message.uid ≠ .unrecorded) :
    hasRow (fetchAndIngest pass.verdict messages rows).rows message.uid = true ∨
      (pass.verdict message.uid = .failed ∧ raisedHigh pass.snapshot.uidNext
        (fetchAndIngest pass.verdict messages rows).minFailed high < message.uid) := by
  by_cases failed : pass.verdict message.uid = .failed
  · right
    have positive : ∀ other ∈ messages, 0 < other.uid := fun other present =>
      (pass.snapshot.numbered other (part present)).1
    have capped : 0 < (fetchAndIngest pass.verdict messages rows).minFailed ∧
        (fetchAndIngest pass.verdict messages rows).minFailed ≤ message.uid :=
      ingest_failure positive member wanted.2.2 failed
    have bounded := (pass.snapshot.numbered message wanted.1).2
    refine ⟨failed, ?_⟩
    simp only [raisedHigh]
    split
    · split <;> omega
    · exact above
  · exact Or.inl (ingest_records member (wanted_alive wanted part) recorded failed)

variable {folder : Folder}

theorem settled_row (complete : Complete folder) (evolves : Evolves folder.seen pass.snapshot)
    (orderly : Orderly folder pass) (wanted : Wanted pass.snapshot pass.floor message)
    (spans : folder.spans message.uid) : hasRow folder.rows message.uid = true := by
  obtain ⟨shown, undeleted⟩ := orderly.settled message wanted spans
  have known : message.uid < folder.seen.uidNext := by
    have positive := wanted_positive wanted
    rcases complete.high with none | below
    · have small := spans.2
      omega
    · exact Nat.lt_of_le_of_lt spans.2 below
  obtain ⟨earlier, present, sameUid, sameDate⟩ := evolves.2 message wanted.1 known
  have has := complete.recorded earlier
    ⟨present, sameDate ▸ shown, undeleted earlier present sameUid⟩ (sameUid ▸ spans)
  exact sameUid ▸ has

theorem backfill_records (complete : Complete folder) (evolves : Evolves folder.seen pass.snapshot)
    (orderly : Orderly folder pass) (wanted : Wanted pass.snapshot pass.floor message)
    (begun : folder.high ≠ 0) (known : message.uid ≤ folder.high) :
    hasRow (extendBackfill pass (folder.cursor.getD {}) folder.rows).2 message.uid = true := by
  unfold extendBackfill
  by_cases low : (folder.cursor.getD {}).low = 0
  · rw [if_pos low]
    exact settled_row complete evolves orderly wanted
      ⟨Nat.le_trans (Nat.le_of_eq low) (Nat.zero_le _), known⟩
  · rw [if_neg low]
    by_cases below : message.uid < folder.low
    · have member : message ∈ belowLow pass (folder.cursor.getD {}) := by
        simp only [belowLow, searchSince, List.mem_filter, decide_eq_true_eq]
        exact ⟨⟨wanted.1, wanted.2.1⟩, below⟩
      have asked : message ∈ folder.requested pass := by
        unfold Folder.requested
        rw [if_neg begun, if_neg (show ¬folder.low = 0 from low)]
        exact List.mem_append_left _ member
      exact ingest_records member (wanted_alive wanted (below_subset _ _))
        (orderly.recorded message asked wanted.2.2) (orderly.backfilled begun message wanted below)
    · apply ingest_keeps _ (wanted_alive wanted (below_subset _ _))
      exact settled_row complete evolves orderly wanted ⟨Nat.le_of_not_lt below, known⟩

/-- After a pass every message in the horizon has a row, or it failed and the high
mark is below it. -/
theorem completed_records (complete : Complete folder) (evolves : Evolves folder.seen pass.snapshot)
    (orderly : Orderly folder pass) {cursor : Cursor}
    (done : syncFolder pass folder = .completed cursor rows)
    (wanted : Wanted pass.snapshot pass.floor message) :
    hasRow rows message.uid = true ∨
      (pass.verdict message.uid = .failed ∧ cursor.high < message.uid) := by
  unfold syncFolder at done
  rw [if_neg (List.ne_nil_of_mem wanted.1)] at done
  have positive := wanted_positive wanted
  split at done
  · rename_i first
    have member : message ∈ searchSince pass.snapshot pass.floor := by
      simp [searchSince, wanted.1, wanted.2.1]
    have asked : message ∈ folder.requested pass := by
      unfold Folder.requested
      rw [if_pos (show folder.high = 0 from first)]
      exact member
    unfold initialPass at done
    split at done
    · cases done
    · cases done
      rcases batch_records folder.rows _ wanted (search_subset _ _) member (first ▸ positive)
          (orderly.recorded message asked wanted.2.2) with has | failed
      · left
        split
        · exact down_sync_keeps wanted has
        · exact has
      · exact Or.inr failed
  · rename_i begun
    unfold incrementalPass at done
    split at done
    · cases done
    · simp only at done
      split at done
      · cases done
      · cases done
        by_cases known : message.uid ≤ folder.high
        · left
          have has := backfill_records complete evolves orderly wanted begun known
          have kept : hasRow (fetchAndIngest pass.verdict (aboveHigh pass (folder.cursor.getD {}))
              (extendBackfill pass (folder.cursor.getD {}) folder.rows).2).rows message.uid = true :=
            ingest_keeps has (wanted_alive wanted (above_subset _ _))
          split
          · exact kept
          · exact reconcile_keeps wanted (down_sync_keeps wanted kept)
        · have member : message ∈ aboveHigh pass (folder.cursor.getD {}) := by
            simp only [aboveHigh, List.mem_filter, decide_eq_true_eq]
            exact ⟨wanted.1, Nat.lt_of_not_le known⟩
          have asked : message ∈ folder.requested pass := by
            unfold Folder.requested
            rw [if_neg (show ¬folder.high = 0 from begun)]
            split
            · exact member
            · exact List.mem_append_right _ member
          rcases batch_records (extendBackfill pass (folder.cursor.getD {}) folder.rows).2
              _ wanted (above_subset _ _) member (Nat.lt_of_not_le known)
              (orderly.recorded message asked wanted.2.2) with has | failed
          · left
            split
            · exact has
            · exact reconcile_keeps wanted (down_sync_keeps wanted has)
          · exact Or.inr failed

theorem raised_high_bounded {uidNext failed high : Nat} (bounded : high = 0 ∨ high < uidNext) :
    raisedHigh uidNext failed high = 0 ∨ raisedHigh uidNext failed high < uidNext := by
  simp only [raisedHigh]
  split
  · split <;> omega
  · exact bounded

theorem completed_high {cursor : Cursor} (done : syncFolder pass folder = .completed cursor rows) :
    ∃ failed, cursor.high = raisedHigh pass.snapshot.uidNext failed folder.high := by
  unfold syncFolder emptyPass initialPass incrementalPass at done
  simp only at done
  split at done
  · cases done
    exact ⟨_, rfl⟩
  · split at done
    · split at done
      · cases done
      · cases done
        exact ⟨_, rfl⟩
    · split at done
      · cases done
      · split at done
        · cases done
        · cases done
          exact ⟨_, rfl⟩

theorem stopped_keeps {uid : Nat} (done : syncFolder pass folder = .stopped rows)
    (has : hasRow folder.rows uid = true) (above : folder.low ≤ uid) : hasRow rows uid = true := by
  unfold syncFolder emptyPass initialPass incrementalPass at done
  simp only at done
  split at done
  · cases done
  · split at done
    · split at done
      · cases done
        exact has
      · cases done
    · split at done
      · cases done
        exact has
      · split at done
        · cases done
          unfold extendBackfill
          split
          · exact has
          · apply ingest_keeps has
            intro message member same
            have below : message.uid < folder.low :=
              of_decide_eq_true (List.mem_filter.mp member).2
            omega
        · cases done

theorem complete_step (complete : Complete folder) (orderly : Orderly folder pass) {next : Folder}
    (stepped : Folder.machine.step folder pass = some next) : Complete next := by
  obtain ⟨⟨evolves, _⟩, taken⟩ := Option.ite_none_right_eq_some.mp stepped
  cases taken
  unfold Folder.after
  cases done : syncFolder pass folder with
  | completed cursor rows =>
    refine ⟨?_, ?_⟩
    · intro message wanted spans
      rcases completed_records complete evolves orderly done wanted with has | ⟨_, above⟩
      · exact has
      · exact absurd spans.2 (Nat.not_le_of_lt above)
    · obtain ⟨failed, high⟩ := completed_high done
      have bounded : folder.high = 0 ∨ folder.high < pass.snapshot.uidNext :=
        complete.high.imp_right fun below => Nat.lt_of_lt_of_le below evolves.1
      show cursor.high = 0 ∨ cursor.high < pass.snapshot.uidNext
      rw [high]
      exact raised_high_bounded bounded
  | stopped rows =>
    refine ⟨?_, complete.high⟩
    intro message wanted spans
    exact stopped_keeps done (complete.recorded message wanted spans) spans.1

theorem outside_requested (shown : pass.floor ≤ message.date)
    (present : message ∈ pass.snapshot.messages)
    (outside : ¬folder.spans message.uid) : message ∈ folder.requested pass := by
  have searched : message ∈ searchSince pass.snapshot pass.floor := by
    simp [searchSince, present, shown]
  unfold Folder.requested
  split
  · exact searched
  · by_cases above : folder.high < message.uid
    · have member : message ∈ aboveHigh pass (folder.cursor.getD {}) := by
        simp only [aboveHigh, List.mem_filter, decide_eq_true_eq]
        exact ⟨present, above⟩
      split
      · exact member
      · exact List.mem_append_right _ member
    · have below : message.uid < folder.low := by
        apply Nat.lt_of_not_le
        intro reached
        exact outside ⟨reached, Nat.le_of_not_lt above⟩
      rw [if_neg (Nat.ne_of_gt (Nat.lt_of_le_of_lt (Nat.zero_le _) below))]
      apply List.mem_append_left
      simp only [belowLow, List.mem_filter, decide_eq_true_eq]
      exact ⟨searched, below⟩

theorem reconcile_subset : reconcile pass rows ⊆ rows := by
  unfold reconcile
  split
  · exact fun _ member => (List.mem_filter.mp member).1
  · exact List.Subset.refl rows

theorem initial_only (first : folder.high = 0) {uid : Nat}
    (has : hasRow (fetchAndIngest pass.verdict (searchSince pass.snapshot pass.floor)
      folder.rows).rows uid = true) :
    hasRow folder.rows uid = true ∨ ∃ message ∈ folder.requested pass, message.uid = uid := by
  unfold Folder.requested
  rw [if_pos first]
  exact ingest_only has

theorem backfill_only (begun : ¬folder.high = 0) {uid : Nat}
    (has : hasRow (extendBackfill pass (folder.cursor.getD {}) folder.rows).2 uid = true) :
    hasRow folder.rows uid = true ∨ ∃ message ∈ folder.requested pass, message.uid = uid := by
  unfold extendBackfill at has
  split at has
  · exact Or.inl has
  · rename_i low
    rcases ingest_only has with old | ⟨message, member, same⟩
    · exact Or.inl old
    · refine Or.inr ⟨message, ?_, same⟩
      unfold Folder.requested
      rw [if_neg begun, if_neg (show ¬folder.low = 0 from low)]
      exact List.mem_append_left _ member

/-- A pass makes rows only for what it asks for. -/
theorem completed_only {cursor : Cursor} (done : syncFolder pass folder = .completed cursor rows)
    {uid : Nat} (has : hasRow rows uid = true) :
    hasRow folder.rows uid = true ∨ ∃ message ∈ folder.requested pass, message.uid = uid := by
  unfold syncFolder at done
  dsimp only at done
  split at done
  · cases done
    left
    split at has
    · exact has_row_subset reconcile_subset has
    · exact has
  · split at done
    · rename_i first
      unfold initialPass at done
      split at done
      · cases done
      · cases done
        split at has
        · exact initial_only first (has_row_subset remove_rows_subset has)
        · exact initial_only first has
    · rename_i begun
      unfold incrementalPass at done
      split at done
      · cases done
      · simp only at done
        split at done
        · cases done
        · cases done
          have batch : hasRow (fetchAndIngest pass.verdict (aboveHigh pass (folder.cursor.getD {}))
              (extendBackfill pass (folder.cursor.getD {}) folder.rows).2).rows uid = true := by
            split at has
            · exact has
            · exact has_row_subset (List.Subset.trans reconcile_subset remove_rows_subset) has
          rcases ingest_only batch with earlier | ⟨message, member, same⟩
          · exact backfill_only begun earlier
          · refine Or.inr ⟨message, ?_, same⟩
            unfold Folder.requested
            rw [if_neg (show ¬folder.high = 0 from begun)]
            split
            · exact member
            · exact List.mem_append_right _ member

end Passes

theorem complete_fresh {folder : Folder} (fresh : folder.cursor = none) : Complete folder := by
  have none : folder.high = 0 := by
    rw [Folder.high, fresh]
    rfl
  refine ⟨?_, Or.inl none⟩
  intro message wanted spans
  have positive := (folder.seen.numbered message wanted.1).1
  have small := spans.2
  omega

/-- After any orderly passes over a folder every message in the horizon between the
marks has its row, the next pass asks for every other, makes rows only for what it asks
for, and an orderly one records all that does not fail. -/
theorem passes_skip_nothing (start final : Folder) (passes : List Pass)
    (fresh : start.cursor = none) (orderly : Folder.machine.Meets Orderly start passes)
    (ran : Folder.machine.execute start passes = some final) :
    (∀ message, Wanted final.seen final.floor message → final.spans message.uid →
      hasRow final.rows message.uid = true) ∧
    ∀ pass, Evolves final.seen pass.snapshot → pass.floor ≤ final.floor →
      ∀ cursor rows, syncFolder pass final = .completed cursor rows →
        (∀ message ∈ pass.snapshot.messages, pass.floor ≤ message.date →
          ¬final.spans message.uid → message ∈ final.requested pass) ∧
        (∀ uid, hasRow rows uid = true →
          hasRow final.rows uid = true ∨ ∃ message ∈ final.requested pass, message.uid = uid) ∧
        (Orderly final pass → ∀ message, Wanted pass.snapshot pass.floor message →
          pass.verdict message.uid ≠ .failed → hasRow rows message.uid = true) := by
  have complete : Complete final := Folder.machine.meets_keeps Orderly Complete
    (fun _ _ _ complete orderly stepped => complete_step complete orderly stepped)
    passes start final (complete_fresh fresh) orderly ran
  refine ⟨complete.recorded, ?_⟩
  intro pass evolves _ cursor rows done
  refine ⟨fun message present shown outside => outside_requested shown present outside,
    fun uid has => completed_only done has, ?_⟩
  intro orderlyNext message wanted ingested
  rcases completed_records complete evolves orderlyNext done wanted with has | ⟨failed, _⟩
  · exact has
  · exact absurd failed ingested

def threeMessages : List UpstreamMessage := [⟨1, 5, false⟩, ⟨2, 20, false⟩, ⟨3, 20, false⟩]

theorem three_numbered : ∀ message ∈ threeMessages, 0 < message.uid ∧ message.uid < 4 := by decide

theorem three_distinct : threeMessages.Pairwise fun left right => left.uid ≠ right.uid := by
  unfold threeMessages
  decide

def threeSnapshot : Snapshot := ⟨threeMessages, 4, three_numbered, three_distinct⟩

def freshFolder : Folder := { floor := 10, seen := threeSnapshot }

def passFailing (floor uid : Nat) : Pass where
  snapshot := threeSnapshot
  floor := floor
  verdict other := if other = uid then .failed else .mirrored
  flagsFetched _ := true
  removes := true

theorem pass_failing_recorded (floor uid other : Nat) :
    (passFailing floor uid).verdict other ≠ .unrecorded := by
  simp only [passFailing]
  split <;> simp

theorem pass_failing_step (folder : Folder) (floor uid : Nat) (seen : folder.seen = threeSnapshot)
    (lowered : floor ≤ folder.floor) : Folder.machine.step folder (passFailing floor uid) =
      some (folder.after (passFailing floor uid)) := by
  have evolves : Evolves threeSnapshot threeSnapshot := by decide
  apply if_pos
  rw [seen]
  exact ⟨evolves, lowered⟩

/-- The third message fails at the first pass and is recorded at the second, with
the first message, which the lowered horizon shows. -/
theorem passes_skip_nothing_of_lowered_horizon :
    ∃ cursor rows, syncFolder (passFailing 0 0) (freshFolder.after (passFailing 10 3)) =
        .completed cursor rows ∧ hasRow rows 1 = true ∧ hasRow rows 3 = true := by
  have fresh : Orderly freshFolder (passFailing 10 3) := by
    refine ⟨fun message _ _ => pass_failing_recorded _ _ _, fun begun => absurd rfl begun, ?_⟩
    intro message wanted spans
    have positive := wanted_positive wanted
    have small : message.uid ≤ 0 := spans.2
    omega
  have ran : Folder.machine.execute freshFolder [passFailing 10 3] =
      some (freshFolder.after (passFailing 10 3)) := by
    rw [Machine.execute, pass_failing_step freshFolder 10 3 rfl (Nat.le_refl _)]
    rfl
  have meets : Folder.machine.Meets Orderly freshFolder [passFailing 10 3] := by
    refine ⟨fresh, ?_⟩
    rw [pass_failing_step freshFolder 10 3 rfl (Nat.le_refl _)]
    trivial
  have lowered : Orderly (freshFolder.after (passFailing 10 3)) (passFailing 0 0) := by
    refine ⟨fun message _ _ => pass_failing_recorded _ _ _, ?_, ?_⟩
    · intro _ message wanted _ failed
      have positive := wanted_positive wanted
      simp only [passFailing] at failed
      rw [if_neg (Nat.ne_of_gt positive)] at failed
      cases failed
    · have settled : ∀ message ∈ threeMessages, 2 ≤ message.uid → message.uid ≤ 2 →
          10 ≤ message.date ∧ ∀ earlier ∈ threeMessages, earlier.uid = message.uid →
            earlier.deleted = false := by decide
      intro message wanted spans
      exact settled message wanted.1 spans.1 spans.2
  obtain ⟨_, next⟩ := passes_skip_nothing freshFolder _ _ rfl meets ran
  have records := (next (passFailing 0 0) (by decide) (by decide) _ _ rfl).2.2 lowered
  exact ⟨_, _, rfl, records ⟨1, 5, false⟩ ⟨by decide, by decide, rfl⟩ (by decide),
    records ⟨3, 20, false⟩ ⟨by decide, by decide, rfl⟩ (by decide)⟩

/-- The first message fails when the lowered horizon first shows it: the low mark is
set to it all the same, and no later pass asks for it. -/
theorem failed_backfill_never_requested :
    ∃ final, Folder.machine.execute freshFolder [passFailing 10 0, passFailing 0 1] = some final ∧
      Wanted final.seen final.floor ⟨1, 5, false⟩ ∧ final.spans 1 ∧ hasRow final.rows 1 = false ∧
      ∀ pass, ∀ message ∈ final.requested pass, message.uid ≠ 1 := by
  have ran : Folder.machine.execute freshFolder [passFailing 10 0, passFailing 0 1] =
      some ((freshFolder.after (passFailing 10 0)).after (passFailing 0 1)) := by
    rw [Machine.execute, pass_failing_step freshFolder 10 0 rfl (Nat.le_refl _)]
    simp only [Machine.execute]
    rw [pass_failing_step _ 0 1 rfl (Nat.zero_le _)]
  refine ⟨_, ran, ⟨by decide, by decide, rfl⟩, ⟨by decide, by decide⟩, by decide, ?_⟩
  intro pass message member same
  have high : ((freshFolder.after (passFailing 10 0)).after (passFailing 0 1)).high = 3 := by decide
  have low : ((freshFolder.after (passFailing 10 0)).after (passFailing 0 1)).low = 1 := by decide
  unfold Folder.requested at member
  rw [high, low, if_neg (by decide), if_neg (by decide)] at member
  rcases List.mem_append.mp member with below | above
  · have small : message.uid < 1 := of_decide_eq_true (List.mem_filter.mp below).2
    omega
  · have large : 3 < message.uid := of_decide_eq_true (List.mem_filter.mp above).2
    omega

end Herold.Import

import Herold.Store.Tables

/-!
# Email/changes

The change feed of a principal is folded into the identifiers that were created,
updated and destroyed since a state. A response may stop early, and the client
asks again from where it stopped; here the client is modelled too, with the cache
it keeps. What the cache holds in the end is stated in terms of the feed rows
alone: the last section says for which feeds it is right.
-/

namespace Herold.Jmap

open Herold.Store

/-- The three sets of `foldChangeEntry`. -/
structure Folded where
  created : List MessageID := []
  updated : List MessageID := []
  destroyed : List MessageID := []

def foldChangeEntry (folded : Folded) (entry : StateChange) : Folded :=
  match entry.op with
  | .created =>
    { folded with
      destroyed := folded.destroyed.filter (· ≠ entry.entityID)
      created := folded.created.insert entry.entityID }
  | .updated =>
    if folded.created.contains entry.entityID then folded
    else if folded.destroyed.contains entry.entityID then folded
    else { folded with updated := folded.updated.insert entry.entityID }
  | .destroyed =>
    if folded.created.contains entry.entityID then
      { folded with created := folded.created.filter (· ≠ entry.entityID) }
    else
      { folded with
        updated := folded.updated.filter (· ≠ entry.entityID)
        destroyed := folded.destroyed.insert entry.entityID }

def isUnseenChangeID (folded : Folded) (id : MessageID) : Bool :=
  !folded.created.contains id && !folded.updated.contains id && !folded.destroyed.contains id

def Folded.count (folded : Folded) : Nat :=
  folded.created.length + folded.updated.length + folded.destroyed.length

/-- The loop of `WalkChangesBySeq`, which reads the feed page by page to its end.
The cutoff is the sequence of the last entry that was folded. -/
def walkChanges (maxChanges : Nat) : List StateChange → Folded → Nat → Folded × Nat × Bool
  | [], folded, cutoff => (folded, cutoff, false)
  | entry :: entries, folded, cutoff =>
    if entry.kind = .email then
      if 0 < maxChanges ∧ isUnseenChangeID folded entry.entityID ∧ maxChanges ≤ folded.count then
        (folded, cutoff, true)
      else walkChanges maxChanges entries (foldChangeEntry folded entry) entry.seq
    else walkChanges maxChanges entries folded cutoff

def userFeed (tables : Tables) (principal : PrincipalID) : List StateChange :=
  (tables.changes.filter fun row => row.cause = .user ∧ row.change.principalID = principal).map
    FeedRow.change

def readChangeFeed (tables : Tables) (principal : PrincipalID) (since : Nat) : List StateChange :=
  (userFeed tables principal).filter fun entry => since < entry.seq

/-- `GetMaxChangeSeqForKind`, for email rows. -/
def maxEmailSeq (tables : Tables) (principal : PrincipalID) : Nat :=
  (((userFeed tables principal).filter fun entry => entry.kind = .email).map StateChange.seq).foldl
    max 0

/-- Who may see a mailbox besides its owner: the parent of a sub-account, and
whoever a grant gives the lookup right. -/
abbrev Shares := MailboxID → PrincipalID → Bool

/-- The `keep` of the handler, for the owner of the account: a message row of the
account that `loadMessageForPrincipal` finds through one of its memberships. -/
def keeps (shares : Shares) (tables : Tables) (owner : PrincipalID) (id : MessageID) : Bool :=
  (tables.messages.any fun row => row.id = id ∧ row.principalID = owner) &&
    tables.members.any fun filing => filing.messageID = id ∧
      tables.mailboxes.any fun box =>
        box.id = filing.mailboxID ∧ (box.principalID = owner ∨ shares box.id owner)

structure Response where
  created : List MessageID := []
  updated : List MessageID := []
  destroyed : List MessageID := []
  newState : Nat
  hasMoreChanges : Bool := false

/-- `changesHandler.Execute` for the owner of the account; no answer stands for
`cannotCalculateChanges`, and no limit for zero. -/
def emailChanges (shares : Shares) (tables : Tables) (owner : PrincipalID) (since maxChanges : Nat) :
    Option Response :=
  let newSeq := maxEmailSeq tables owner
  if since = newSeq then some { newState := newSeq }
  else if newSeq < since then none
  else
    let (folded, cutoff, hasMore) := walkChanges maxChanges (readChangeFeed tables owner since) {} since
    some
      { created := folded.created.filter (keeps shares tables owner)
        updated := folded.updated.filter (keeps shares tables owner)
        destroyed := folded.destroyed
        newState := if hasMore then cutoff else newSeq
        hasMoreChanges := hasMore }

structure Client where
  cache : List MessageID
  told : List MessageID := []

def Client.applied (client : Client) (response : Response) : Client where
  cache := (client.cache ++ response.created).filter fun id => !response.destroyed.contains id
  told := client.told ++ response.created ++ response.updated

def sync (shares : Shares) (tables : Tables) (owner : PrincipalID) (maxChanges : Nat) :
    Nat → Nat → Client → Option Client
  | 0, _, _ => none
  | fuel + 1, since, client =>
    match emailChanges shares tables owner since maxChanges with
    | none => none
    | some response =>
      if response.hasMoreChanges then
        sync shares tables owner maxChanges fuel response.newState (client.applied response)
      else some (client.applied response)

section Fold

variable {id : MessageID} {entries : List StateChange} {folded : Folded}

def Mentions (entries : List StateChange) (id : MessageID) (op : ChangeOp) : Prop :=
  ∃ entry ∈ entries, entry.entityID = id ∧ entry.op = op

theorem mentions_cons {entry : StateChange} {op : ChangeOp} :
    Mentions (entry :: entries) id op ↔ (entry.entityID = id ∧ entry.op = op) ∨
    Mentions entries id op := by
  simp [Mentions]

theorem mentions_append {more : List StateChange} {op : ChangeOp} :
    Mentions (entries ++ more) id op ↔ Mentions entries id op ∨ Mentions more id op := by
  simp [Mentions, or_and_right, exists_or]

theorem entry_without_destroyed {entry : StateChange}
    (kept : ¬(entry.entityID = id ∧ entry.op = .destroyed))
    (before : id ∉ folded.destroyed) :
    let after := foldChangeEntry folded entry
    (id ∈ after.created ↔ id ∈ folded.created ∨ (entry.entityID = id ∧ entry.op = .created)) ∧
      id ∉ after.destroyed ∧
      ((id ∈ folded.created ∨ id ∈ folded.updated ∨ entry.entityID = id) →
        id ∈ after.created ∨ id ∈ after.updated) := by
  unfold foldChangeEntry
  cases kind : entry.op with
  | created => grind
  | updated => grind
  | destroyed => grind

/-- A message that is not destroyed is reported as created when some entry says so,
is not reported as destroyed, and is reported when any entry is about it. -/
theorem fold_without_destroyed (kept : ¬Mentions entries id .destroyed)
    (before : id ∉ folded.destroyed) :
    let after := entries.foldl foldChangeEntry folded
    (id ∈ after.created ↔ id ∈ folded.created ∨ Mentions entries id .created) ∧ id ∉ after.destroyed ∧
      ((id ∈ folded.created ∨ id ∈ folded.updated ∨ ∃ op, Mentions entries id op) →
        id ∈ after.created ∨ id ∈ after.updated) := by
  induction entries generalizing folded with
  | nil =>
    refine ⟨by simp [Mentions], before, ?_⟩
    rintro (made | changed | ⟨op, _, member, _⟩)
    · exact Or.inl made
    · exact Or.inr changed
    · cases member
  | cons entry entries ih =>
    rw [mentions_cons, not_or] at kept
    obtain ⟨made, gone, told⟩ := entry_without_destroyed kept.1 before
    obtain ⟨madeLater, goneLater, toldLater⟩ := ih kept.2 gone
    refine ⟨?_, goneLater, ?_⟩
    · rw [List.foldl_cons, madeLater, made, mentions_cons, or_assoc]
    · intro reported
      refine toldLater ?_
      rw [← or_assoc]
      rcases reported with early | early | ⟨op, stated⟩
      · exact Or.inl (told (Or.inl early))
      · exact Or.inl (told (Or.inr (Or.inl early)))
      · rcases mentions_cons.mp stated with here | later
        · exact Or.inl (told (Or.inr (Or.inr here.1)))
        · exact Or.inr ⟨op, later⟩

theorem entry_without_created {entry : StateChange}
    (kept : ¬(entry.entityID = id ∧ entry.op = .created))
    (before : id ∉ folded.created) :
    let after := foldChangeEntry folded entry
    (id ∈ after.destroyed ↔ id ∈ folded.destroyed ∨ (entry.entityID = id ∧ entry.op = .destroyed)) ∧
      id ∉ after.created := by
  unfold foldChangeEntry
  cases kind : entry.op with
  | created => grind
  | updated => grind
  | destroyed => grind

theorem fold_without_created (kept : ¬Mentions entries id .created) (before : id ∉ folded.created) :
    let after := entries.foldl foldChangeEntry folded
    (id ∈ after.destroyed ↔ id ∈ folded.destroyed ∨ Mentions entries id .destroyed) ∧
      id ∉ after.created := by
  induction entries generalizing folded with
  | nil => exact ⟨by simp [Mentions], before⟩
  | cons entry entries ih =>
    rw [mentions_cons, not_or] at kept
    obtain ⟨gone, made⟩ := entry_without_created kept.1 before
    obtain ⟨goneLater, madeLater⟩ := ih kept.2 made
    refine ⟨?_, madeLater⟩
    rw [List.foldl_cons, goneLater, gone, mentions_cons, or_assoc]

end Fold

def emails (entries : List StateChange) : List StateChange :=
  entries.filter fun entry => entry.kind = .email

theorem walk_spec (maxChanges : Nat) (entries : List StateChange) (folded : Folded) (cutoff : Nat) :
    let result := walkChanges maxChanges entries folded cutoff
    ∃ taken rest, emails entries = taken ++ rest ∧ result.1 = taken.foldl foldChangeEntry folded ∧
      (result.2.2 = false → rest = []) ∧
      (result.2.1 = cutoff ∧ taken = [] ∨ ∃ last ∈ taken, result.2.1 = last.seq ∧
        taken.getLast? = some last) ∧
      (result.2.2 = true → folded.count = 0 → taken ≠ []) := by
  induction entries generalizing folded cutoff with
  | nil => exact ⟨[], [], rfl, rfl, fun _ => rfl, Or.inl ⟨rfl, rfl⟩, fun more => by cases more⟩
  | cons entry entries ih =>
    by_cases email : entry.kind = .email
    · have listed : emails (entry :: entries) = entry :: emails entries := by
        simp [emails, email]
      by_cases full : 0 < maxChanges ∧ isUnseenChangeID folded entry.entityID ∧
        maxChanges ≤ folded.count
      · simp only [walkChanges, if_pos email, if_pos full]
        refine ⟨[], emails (entry :: entries), rfl, rfl, ?_, Or.inl ⟨trivial, rfl⟩, ?_⟩
        · intro more
          cases more
        · intro _ empty
          omega
      · simp only [walkChanges, if_pos email, if_neg full]
        obtain ⟨taken, rest, split, result, ended, cut, _⟩ :=
          ih (foldChangeEntry folded entry) entry.seq
        refine ⟨entry :: taken, rest, by rw [listed, split]; rfl, result, ended, Or.inr ?_, by simp⟩
        rcases cut with ⟨same, rfl⟩ | ⟨last, member, same, isLast⟩
        · exact ⟨entry, by simp, same, rfl⟩
        · refine ⟨last, List.mem_cons_of_mem _ member, same, ?_⟩
          rw [List.getLast?_cons, isLast]
          rfl
    · simp only [walkChanges, if_neg email]
      have listed : emails (entry :: entries) = emails entries := by
        simp [emails, email]
      rw [listed]
      exact ih folded cutoff

section Sync

variable (shares : Shares) (tables : Tables) (owner : PrincipalID) (maxChanges : Nat)

def emailsSince (since : Nat) : List StateChange := emails (readChangeFeed tables owner since)

def Ordered (tables : Tables) (owner : PrincipalID) : Prop :=
  (userFeed tables owner).Pairwise fun left right => left.seq < right.seq

theorem emails_since_cutoff {tables : Tables} {owner : PrincipalID} (ordered : Ordered tables owner)
    {since : Nat} {taken rest : List StateChange} {last : StateChange}
    (split : emailsSince tables owner since = taken ++ rest) (isLast : taken.getLast? = some last) :
    emailsSince tables owner last.seq = rest := by
  have sorted : (taken ++ rest).Pairwise fun left right => left.seq < right.seq := by
    rw [← split]
    exact (ordered.sublist List.filter_sublist).sublist List.filter_sublist
  obtain ⟨front, rfl⟩ := List.getLast?_eq_some_iff.mp isLast
  have lastMember : last ∈ emailsSince tables owner since := by
    rw [split]
    simp
  have later : since < last.seq := by
    have read := (List.mem_filter.mp lastMember).1
    simpa using (List.mem_filter.mp read).2
  have narrowed : emailsSince tables owner last.seq =
      (emailsSince tables owner since).filter fun entry => decide (last.seq < entry.seq) := by
    unfold emailsSince emails readChangeFeed
    rw [List.filter_filter, List.filter_filter, List.filter_filter]
    refine List.filter_congr fun entry _ => ?_
    by_cases after : last.seq < entry.seq
    · simp [after, Nat.lt_trans later after]
    · simp [after]
  rw [narrowed, split, List.filter_append]
  obtain ⟨early, restSorted, across⟩ := List.pairwise_append.mp sorted
  have none : (front ++ [last]).filter (fun entry => decide (last.seq < entry.seq)) = [] := by
    refine List.filter_eq_nil_iff.mpr fun entry member => ?_
    rcases List.mem_append.mp member with before | here
    · have less := (List.pairwise_append.mp early).2.2 entry before last (List.mem_singleton_self _)
      simpa using Nat.le_of_lt less
    · rw [List.mem_singleton.mp here]
      simp
  have all : rest.filter (fun entry => decide (last.seq < entry.seq)) = rest := by
    refine List.filter_eq_self.mpr fun entry member => ?_
    simpa using across last (by simp) entry member
  rw [none, all]
  rfl

theorem le_running_max (seqs : List Nat) (start : Nat) :
    start ≤ seqs.foldl max start ∧ ∀ seq ∈ seqs, seq ≤ seqs.foldl max start := by
  induction seqs generalizing start with
  | nil => exact ⟨Nat.le_refl _, fun _ member => by cases member⟩
  | cons first seqs ih =>
    obtain ⟨above, others⟩ := ih (max start first)
    refine ⟨Nat.le_trans (Nat.le_max_left _ _) above, ?_⟩
    intro seq member
    rcases List.mem_cons.mp member with rfl | later
    · exact Nat.le_trans (Nat.le_max_right _ _) above
    · exact others seq later

theorem seq_le_max {tables : Tables} {owner : PrincipalID} {entry : StateChange}
    (member : entry ∈ userFeed tables owner) (email : entry.kind = .email) :
    entry.seq ≤ maxEmailSeq tables owner := by
  unfold maxEmailSeq
  have listed : entry.seq ∈
    ((userFeed tables owner).filter fun entry => decide (entry.kind = .email)).map
      StateChange.seq := List.mem_map_of_mem (List.mem_filter.mpr ⟨member, by simpa using email⟩)
  exact (le_running_max _ 0).2 entry.seq listed

theorem mem_emails_since {tables : Tables} {owner : PrincipalID} {since : Nat} {entry : StateChange}
    (member : entry ∈ emailsSince tables owner since) :
    entry ∈ userFeed tables owner ∧ since < entry.seq ∧ entry.kind = .email := by
  obtain ⟨read, email⟩ := List.mem_filter.mp member
  obtain ⟨listed, later⟩ := List.mem_filter.mp read
  exact ⟨listed, by simpa using later, by simpa using email⟩

/-- One response reports the fold of a front part of the rows, and says where the
rest begins. -/
theorem response_spec {tables : Tables} {owner : PrincipalID} (ordered : Ordered tables owner)
    {since : Nat}
    (known : since ≤ maxEmailSeq tables owner) :
    ∃ response taken rest, emailChanges shares tables owner since maxChanges = some response ∧
      emailsSince tables owner since = taken ++ rest ∧
      (let folded := taken.foldl foldChangeEntry {}
       response.created = folded.created.filter (keeps shares tables owner) ∧
         response.updated = folded.updated.filter (keeps shares tables owner) ∧
         response.destroyed = folded.destroyed) ∧
      (response.hasMoreChanges = false → rest = []) ∧
      (response.hasMoreChanges = true → taken ≠ [] ∧ response.newState ≤ maxEmailSeq tables owner ∧
        emailsSince tables owner response.newState = rest) := by
  unfold emailChanges
  by_cases same : since = maxEmailSeq tables owner
  · refine ⟨_, [], [], if_pos same, ?_, ⟨rfl, rfl, rfl⟩, fun _ => rfl, fun more => by cases more⟩
    refine List.eq_nil_iff_forall_not_mem.mpr fun entry member => ?_
    obtain ⟨listed, later, email⟩ := mem_emails_since member
    have bound := seq_le_max listed email
    omega
  · have below : ¬maxEmailSeq tables owner < since := by omega
    dsimp only
    rw [if_neg same, if_neg below]
    obtain ⟨taken, rest, split, folds, ended, cut, starts⟩ :=
      walk_spec maxChanges (readChangeFeed tables owner since) {} since
    generalize walkChanges maxChanges (readChangeFeed tables owner since) {} since = walked at *
    obtain ⟨folded, cutoff, hasMore⟩ := walked
    dsimp only at folds ended cut starts ⊢
    subst folds
    refine ⟨_, taken, rest, rfl, split, ⟨rfl, rfl, rfl⟩, ended, ?_⟩
    intro more
    have nonempty := starts more rfl
    rcases cut with ⟨_, none⟩ | ⟨last, member, here, isLast⟩
    · exact absurd none nonempty
    · dsimp only at more ⊢
      rw [if_pos more, here]
      refine ⟨nonempty, ?_, emails_since_cutoff ordered split isLast⟩
      have listed : last ∈ emailsSince tables owner since := by
        rw [show emailsSince tables owner since = taken ++ rest from split]
        exact List.mem_append_left _ member
      obtain ⟨inFeed, _, email⟩ := mem_emails_since listed
      exact seq_le_max inFeed email

/-- The cache after the last response, in terms of the rows it was not yet told. -/
structure Synced (rows : List StateChange) (before after : Client) : Prop where
  kept : ∀ id, ¬Mentions rows id .destroyed →
    (id ∈ after.cache ↔ id ∈ before.cache ∨ (Mentions rows id .created ∧ keeps shares tables owner id))
  unseen : ∀ id, keeps shares tables owner id = false → id ∉ before.cache → id ∉ after.cache
  gone : ∀ id, keeps shares tables owner id = false → ¬Mentions rows id .created →
    (id ∈ after.cache ↔ id ∈ before.cache ∧ ¬Mentions rows id .destroyed)
  told : ∀ id, keeps shares tables owner id = true → ¬Mentions rows id .destroyed →
    (id ∈ before.told ∨ ∃ op, Mentions rows id op) → id ∈ after.told

theorem applied_synced {response : Response} {taken : List StateChange} (client : Client)
    (reports : let folded := taken.foldl foldChangeEntry {}
       response.created = folded.created.filter (keeps shares tables owner) ∧
         response.updated = folded.updated.filter (keeps shares tables owner) ∧
         response.destroyed = folded.destroyed) :
    Synced shares tables owner taken client (client.applied response) := by
  obtain ⟨created, updated, destroyed⟩ := reports
  have inCache : ∀ id, id ∈ (client.applied response).cache ↔
      (id ∈ client.cache ∨ (id ∈ (taken.foldl foldChangeEntry {}).created ∧
        keeps shares tables owner id)) ∧
        id ∉ (taken.foldl foldChangeEntry {}).destroyed := by
    intro id
    simp only [Client.applied, created, destroyed, List.mem_filter, List.mem_append, Bool.not_eq_true',
      List.contains_eq_mem, decide_eq_false_iff_not]
  have undestroyed : ∀ id : MessageID, id ∉ ({} : Folded).destroyed := fun id => List.not_mem_nil
  have uncreated : ∀ id : MessageID, id ∉ ({} : Folded).created := fun id => List.not_mem_nil
  refine ⟨?_, ?_, ?_, ?_⟩
  · intro id kept
    obtain ⟨made, notGone, _⟩ := fold_without_destroyed kept (undestroyed id)
    rw [inCache, made]
    simp [notGone]
  · intro id hidden absent
    rw [inCache]
    simp [hidden, absent]
  · intro id hidden unmade
    obtain ⟨goes, _⟩ := fold_without_created unmade (uncreated id)
    rw [inCache, goes]
    simp [hidden]
  · intro id visible kept reported
    obtain ⟨_, _, tells⟩ := fold_without_destroyed kept (undestroyed id)
    simp only [Client.applied, created, updated, List.mem_append, List.mem_filter]
    rcases reported with before | mentioned
    · exact Or.inl (Or.inl before)
    · rcases tells (Or.inr (Or.inr mentioned)) with made | changed
      · exact Or.inl (Or.inr ⟨made, visible⟩)
      · exact Or.inr ⟨changed, visible⟩

theorem synced_trans {taken rest : List StateChange} {first second third : Client}
    (earlier : Synced shares tables owner taken first second)
    (later : Synced shares tables owner rest second third) :
    Synced shares tables owner (taken ++ rest) first third := by
  refine ⟨?_, ?_, ?_, ?_⟩
  · intro id kept
    rw [mentions_append, not_or] at kept
    rw [later.kept id kept.2, earlier.kept id kept.1, mentions_append, or_and_right, or_assoc]
  · intro id hidden absent
    exact later.unseen id hidden (earlier.unseen id hidden absent)
  · intro id hidden unmade
    rw [mentions_append, not_or] at unmade
    rw [later.gone id hidden unmade.2, earlier.gone id hidden unmade.1, mentions_append,
      not_or, and_assoc]
  · intro id visible kept reported
    rw [mentions_append, not_or] at kept
    refine later.told id visible kept.2 ?_
    rcases reported with before | ⟨op, mentioned⟩
    · exact Or.inl (earlier.told id visible kept.1 (Or.inl before))
    · rcases mentions_append.mp mentioned with early | late
      · exact Or.inl (earlier.told id visible kept.1 (Or.inr ⟨op, early⟩))
      · exact Or.inr ⟨op, late⟩

/-- The client is done after at most one response for each row, and then holds what
the rows say. -/
theorem sync_spec {tables : Tables} {owner : PrincipalID} (ordered : Ordered tables owner)
    (fuel since : Nat)
    (client : Client) (known : since ≤ maxEmailSeq tables owner)
    (enough : (emailsSince tables owner since).length < fuel) :
    ∃ result, sync shares tables owner maxChanges fuel since client = some result ∧
      Synced shares tables owner (emailsSince tables owner since) client result := by
  induction fuel generalizing since client with
  | zero => cases enough
  | succ fuel ih =>
    obtain ⟨response, taken, rest, answered, split, reports, ended, continues⟩ :=
      response_spec shares maxChanges ordered known
    have round := applied_synced shares tables owner client reports
    unfold sync
    rw [answered]
    dsimp only
    cases more : response.hasMoreChanges with
    | false =>
      refine ⟨_, rfl, ?_⟩
      rw [split, ended more, List.append_nil]
      exact round
    | true =>
      obtain ⟨nonempty, reached, remaining⟩ := continues more
      have shorter : (emailsSince tables owner response.newState).length < fuel := by
        rw [remaining]
        rw [split, List.length_append] at enough
        have some_ := List.length_pos_iff.mpr nonempty
        omega
      obtain ⟨result, ran, synced⟩ := ih response.newState (client.applied response) reached shorter
      refine ⟨result, ran, ?_⟩
      rw [split]
      rw [remaining] at synced
      exact synced_trans shares tables owner round synced

end Sync

end Herold.Jmap

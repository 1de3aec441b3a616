import Herold.Go.Bytes
import Herold.Go.Lowered
import Herold.Imap.Access
import Herold.Imap.Tokens
import Herold.Jmap.Update
import Herold.Store.Keeping

/-!
# The keywords of a membership

A membership keeps its keywords in one column, joined with commas. Nothing quotes a
comma that is part of a keyword, and a single empty keyword leaves the column empty.
Both protocols let such names in: a comma may stand in an IMAP atom, and the keys of
a JMAP `keywords` object are any strings. `Email/set` also hands the names of a new
message to the store as they were written.
-/

namespace Herold.Keywords

open Herold.Go Herold.Store Herold.Imap Herold.Machine

def keywordSet (row : Membership) : Set Bytes := {keyword | keyword ∈ splitKeywords row.keywordsCSV}

def lowerCased (names : List Bytes) : Set Bytes := {keyword | ∃ name ∈ names, toLower name = keyword}

/-- `flagsAndKeywordsFromJMAP`; the map is given by its entries in the order they
are visited. -/
def flagsAndKeywordsFromJMAP (entries : List (Bytes × Bool)) : MessageFlags × List Bytes :=
  let present := (entries.filter Prod.snd).map Prod.fst
  ((present.filterMap fun name => Jmap.systemFlag (toLower name)).foldl (· ||| ·) 0,
    present.filter fun name => (Jmap.systemFlag (toLower name)).isNone)

inductive Filing where
  /-- The flag list of an `APPEND`. -/
  | append (names : List Bytes)
  /-- The `keywords` of an `Email/set` create and its `snoozedUntil`. -/
  | create (entries : List (Bytes × Bool)) (snoozedUntil : Option Micros)
  deriving DecidableEq

namespace Filing

def flags : Filing → MessageFlags
  | append names => flagMaskFromNames names
  | create entries _ => (flagsAndKeywordsFromJMAP entries).1

def snoozedUntil : Filing → Option Micros
  | append _ => none
  | create _ until? => until?

/-- The names that are kept as keywords, as the client wrote them. The keyword of
a reminder goes with the date: an `APPEND` cannot have one, a create adds it. -/
def supplied : Filing → List Bytes
  | append names => names.filter fun name =>
    !hasPrefix name (ascii "\\") && !equalFold (toLower name) snoozedKeyword
  | create entries until? =>
    let custom := (flagsAndKeywordsFromJMAP entries).2
    if until?.isSome && !custom.contains snoozedKeyword then custom ++ [snoozedKeyword] else custom

def handed : Filing → List Bytes
  | append names => withoutSnoozedKeyword (keywordsFromNames names)
  | create entries until? => (create entries until?).supplied

end Filing

structure Parcel where
  principalID : PrincipalID
  blob : BlobName
  size : Nat
  mailboxes : List MailboxID
  wakeMailboxID : Option MailboxID := none
  merged : List MessageID := []

def Filing.target (filing : Filing) (parcel : Parcel) (mailbox : MailboxID) : MailStore.Target where
  mailboxID := mailbox
  flags := filing.flags
  keywords := filing.handed
  snoozedUntil := filing.snoozedUntil
  wakeMailboxID := parcel.wakeMailboxID

/-- The call of `InsertMessage` by `handleAPPEND` and by the create of `Email/set`. -/
def Filing.message (filing : Filing) (parcel : Parcel) : Tables.NewMessage where
  principalID := parcel.principalID
  blob := parcel.blob
  size := parcel.size
  flags := filing.flags
  keywords := filing.handed
  targets := parcel.mailboxes.map (filing.target parcel)
  merged := parcel.merged

/-- When the keywords of a new message are kept: no name has a comma, `Email/set`
is given lower case, and the names are not a single empty one. -/
structure Filing.Kept (filing : Filing) : Prop where
  separate : ∀ name ∈ filing.supplied, 44 ∉ name
  lower : ∀ entries until?, filing = .create entries until? →
    ∀ name ∈ filing.supplied, toLower name = name
  nonempty : filing.supplied ≠ [[]]

/-- When an update of the keywords `current` is kept: a name with a comma is added
only if it is cleared as well, and some keyword other than the empty one stays
where the empty one does. -/
structure UpdateKept (current add clear : List Bytes) : Prop where
  separate : ∀ name ∈ add, 44 ∈ name → toLower name ∈ lowerCased clear
  company : [] ∈ current ++ add → [] ∉ clear →
    ∃ keyword ∈ current ++ add.map toLower, keyword ≠ [] ∧ keyword ∉ lowerCased clear

theorem rejoined_iff (keywords : List Bytes) :
    (∀ keyword, keyword ∈ splitKeywords (joinKeywords keywords) ↔ keyword ∈ keywords) ↔
      (∀ keyword ∈ keywords, 44 ∉ keyword) ∧ keywords ≠ [[]] := by
  constructor
  · intro same
    constructor
    · intro keyword member
      exact split_keywords_free _ keyword ((same keyword).mpr member)
    · rintro rfl
      have read := (same []).mpr (List.mem_singleton.mpr rfl)
      cases read
  · rintro ⟨free, inhabited⟩ keyword
    by_cases nonempty : keyword = []
    · subst nonempty
      cases keywords with
      | nil => rfl
      | cons first rest =>
        have written : joinKeywords (first :: rest) ≠ [] := by
          intro blank
          cases rest with
          | nil => exact inhabited (by rw [show first = [] by simpa [joinKeywords] using blank])
          | cons next rest =>
            rw [joinKeywords, List.intercalate_cons_cons] at blank
            simp at blank
        rw [splitKeywords, if_neg written, splitByte, joinKeywords,
          split_intercalate 44 _ (first :: rest) (List.cons_ne_nil _ _) free (Nat.lt_succ_self _)]
    · exact keywords_rejoined keywords free keyword nonempty

theorem to_lower_nil_iff (name : Bytes) : toLower name = [] ↔ name = [] := by
  constructor
  · intro empty
    cases name with
    | nil => rfl
    | cons first rest =>
      rw [toLower, mapRunes, List.flatMap_eq_nil_iff] at empty
      have blank := empty _ (by rw [runes, runesFrom]; exact List.mem_cons_self)
      exact absurd blank (encode_rune_nonempty _)
  · rintro rfl
    rfl

theorem mem_lower_cased (names : List Bytes) (keyword : Bytes) :
    keyword ∈ lowerCased names ↔ keyword ∈ names.map toLower := by
  rw [List.mem_map]
  rfl

theorem comma_to_lower (name : Bytes) : 44 ∈ toLower name ↔ 44 ∈ name := mem_to_lower (by decide)

theorem nil_mem_lower (names : List Bytes) : [] ∈ names.map toLower ↔ [] ∈ names := by
  rw [List.mem_map]
  constructor
  · rintro ⟨name, member, empty⟩
    rwa [← (to_lower_nil_iff name).mp empty]
  · intro member
    exact ⟨[], member, rfl⟩

theorem append_handed (names : List Bytes) :
    (Filing.append names).handed = (Filing.append names).supplied.map toLower := by
  simp only [Filing.handed, Filing.supplied, withoutSnoozedKeyword, keywordsFromNames]
  rw [List.filter_map, List.filter_filter]
  congr 1
  refine List.filter_congr fun name _ => ?_
  simp only [Function.comp_apply, Bool.and_comm]

theorem filed_keywords_iff (filing : Filing) (row : Membership)
    (written : row.keywordsCSV = joinKeywords filing.handed) :
    keywordSet row = lowerCased filing.supplied ↔ filing.Kept := by
  have read : keywordSet row = lowerCased filing.supplied ↔
      ∀ keyword, keyword ∈ splitKeywords (joinKeywords filing.handed) ↔
        keyword ∈ filing.supplied.map toLower := by
    rw [Set.ext_iff, ← written]
    exact forall_congr' fun keyword => by rw [mem_lower_cased]; rfl
  rw [read]
  cases filing with
  | append names =>
    rw [append_handed, rejoined_iff]
    constructor
    · rintro ⟨free, inhabited⟩
      refine ⟨fun name member => ?_, nofun, fun alone => ?_⟩
      · exact mt (comma_to_lower name).mpr (free _ (List.mem_map_of_mem member))
      · rw [alone] at inhabited
        exact inhabited rfl
    · intro kept
      constructor
      · intro keyword member
        obtain ⟨name, listed, rfl⟩ := List.mem_map.mp member
        exact mt (comma_to_lower name).mp (kept.separate name listed)
      · intro alone
        refine kept.nonempty ?_
        obtain ⟨name, single, empty⟩ := List.map_eq_singleton_iff.mp alone
        rw [single, (to_lower_nil_iff name).mp empty]
  | create entries until? =>
    have plain : (Filing.create entries until?).handed = (Filing.create entries until?).supplied := rfl
    rw [plain]
    constructor
    · intro same
      have free : ∀ name ∈ (Filing.create entries until?).supplied, 44 ∉ name := by
        intro name member
        exact mt (comma_to_lower name).mpr
          (split_keywords_free _ _ ((same _).mpr (List.mem_map_of_mem member)))
      have inhabited : (Filing.create entries until?).supplied ≠ [[]] := by
        intro alone
        rw [alone] at same
        cases (same []).mpr (List.mem_singleton.mpr rfl)
      refine ⟨free, fun _ _ _ name member => ?_, inhabited⟩
      have stored := ((rejoined_iff _).mpr ⟨free, inhabited⟩ name).mpr member
      obtain ⟨source, _, rfl⟩ := List.mem_map.mp ((same name).mp stored)
      exact to_lower_twice source
    · intro kept keyword
      rw [(rejoined_iff _).mpr ⟨kept.separate, kept.nonempty⟩ keyword]
      have same : (Filing.create entries until?).supplied.map toLower =
          (Filing.create entries until?).supplied := by
        calc (Filing.create entries until?).supplied.map toLower
            = (Filing.create entries until?).supplied.map id :=
              List.map_congr_left (kept.lower entries until? rfl)
          _ = (Filing.create entries until?).supplied := List.map_id _
      rw [same]

theorem file_target_row {tables after : Tables} {principal : PrincipalID} {message : MessageID}
    {target : MailStore.Target} (ran : tables.fileTarget principal message target = .ok after) :
    (∃ row, after.membership? message target.mailboxID = some row ∧
      row.keywordsCSV = joinKeywords target.keywords) ∧
    ∀ place row, tables.membership? message place = some row →
    after.membership? message place = some row := by
  obtain ⟨box, _, later⟩ := bind_ok ran
  obtain ⟨filed, inserted, ended⟩ := bind_ok later
  cases ended
  have found := Tables.membership_insert rfl inserted
  have new : tables.membership? message target.mailboxID = none := by
    by_contra present
    obtain ⟨old, here⟩ := Option.ne_none_iff_exists'.mp present
    obtain ⟨listed, sameMessage, sameMailbox⟩ := Tables.membership_found here
    exact ((Tables.insert_member_ok inserted).2 old listed sameMailbox).1 sameMessage
  constructor
  · have here := found target.mailboxID
    rw [new, if_pos rfl] at here
    exact ⟨_, here, rfl⟩
  · intro place row here
    refine (found place).trans ?_
    rw [here]
    rfl

theorem file_targets_rows {principal : PrincipalID} {message : MessageID}
    {targets : List MailStore.Target}
    {tables after : Tables} (ran : Tables.fileTargets principal message targets tables = .ok after) :
    (∀ target ∈ targets, ∃ row, after.membership? message target.mailboxID = some row ∧
      row.keywordsCSV = joinKeywords target.keywords) ∧
    ∀ place row, tables.membership? message place = some row →
    after.membership? message place = some row := by
  induction targets generalizing tables with
  | nil =>
    cases ran
    exact ⟨nofun, fun _ _ here => here⟩
  | cons target targets ih =>
    obtain ⟨middle, first, later⟩ := bind_ok ran
    obtain ⟨filed, kept⟩ := file_target_row first
    obtain ⟨rest, stays⟩ := ih later
    constructor
    · intro other member
      rcases List.mem_cons.mp member with rfl | further
      · obtain ⟨row, here, written⟩ := filed
        exact ⟨row, stays _ _ here, written⟩
      · exact rest other further
    · intro place row here
      exact stays place row (kept place row here)

theorem insert_message_rows {tables after : Tables} {filing : Filing} {parcel : Parcel}
    (ran : tables.insertMessage (filing.message parcel) = .ok after) :
    ∀ mailbox ∈ parcel.mailboxes, ∃ row, after.membership? tables.nextMessageID mailbox = some row ∧
      row.keywordsCSV = joinKeywords filing.handed := by
  obtain ⟨principal, _, later⟩ := bind_ok ran
  obtain ⟨charged, _, later⟩ := bind_ok later
  obtain ⟨account, _, later⟩ := bind_ok later
  obtain ⟨_, _, later⟩ := bind_ok later
  obtain ⟨filed, targets, ended⟩ := bind_ok later
  cases ended
  intro mailbox member
  have logged := (Tables.log_merged_tables ((filed.credit charged (filing.message parcel).size).incRef
    (filing.message parcel).blob.hash) principal (filing.message parcel).merged).1
  have listed : filing.target parcel mailbox ∈ (filing.message parcel).targets.map
      (MailStore.Target.inherit (filing.message parcel).flags (filing.message parcel).keywords) := by
    rw [List.mem_map]
    refine ⟨filing.target parcel mailbox, List.mem_map_of_mem member, ?_⟩
    unfold MailStore.Target.inherit
    split <;> rfl
  obtain ⟨row, here, written⟩ := (file_targets_rows targets).1 _ listed
  refine ⟨row, ?_, written⟩
  unfold Tables.membership? at here ⊢
  rw [logged]
  exact here

theorem new_keywords_nodup (current add clear : List Bytes) :
    (MailStore.newKeywords current add clear).Nodup := by
  rw [MailStore.newKeywords, (List.perm_insertionSort _ _).nodup_iff]
  exact List.nodup_dedup _

theorem only_empty {keywords : List Bytes} (distinct : keywords.Nodup) (inside : [] ∈ keywords)
    (blank : ∀ keyword ∈ keywords, keyword = []) : keywords = [[]] := by
  cases keywords with
  | nil => cases inside
  | cons first rest =>
    rw [blank first List.mem_cons_self] at distinct ⊢
    cases rest with
    | nil => rfl
    | cons next rest =>
      have second := blank next (List.mem_cons_of_mem _ List.mem_cons_self)
      rw [second] at distinct
      simp at distinct

theorem updated_keywords_iff (current add clear : List Bytes) (row : Membership)
    (written : row.keywordsCSV = joinKeywords (MailStore.newKeywords current add clear))
    (free : ∀ keyword ∈ current, 44 ∉ keyword) :
    keywordSet row = ({keyword | keyword ∈ current} ∪ lowerCased add) \ lowerCased clear ↔
      UpdateKept current add clear := by
  have wanted : ∀ keyword, keyword ∈
    ({keyword | keyword ∈ current} ∪ lowerCased add) \ lowerCased clear ↔
      keyword ∈ MailStore.newKeywords current add clear := by
    intro keyword
    rw [mem_new_keywords, ← mem_lower_cased, ← mem_lower_cased]
    rfl
  have read : keywordSet row = ({keyword | keyword ∈ current} ∪ lowerCased add) \ lowerCased clear ↔
      ∀ keyword, keyword ∈ splitKeywords (joinKeywords (MailStore.newKeywords current add clear)) ↔
        keyword ∈ MailStore.newKeywords current add clear := by
    rw [Set.ext_iff, ← written]
    exact forall_congr' fun keyword => by rw [wanted]; rfl
  rw [read, rejoined_iff]
  constructor
  · rintro ⟨separate, inhabited⟩
    constructor
    · intro name member comma
      by_contra stays
      refine separate (toLower name) ?_ ((comma_to_lower name).mpr comma)
      rw [mem_new_keywords]
      exact ⟨Or.inr (List.mem_map_of_mem member), mt (mem_lower_cased clear _).mpr stays⟩
    · intro empty stays
      by_contra others
      refine inhabited (only_empty (new_keywords_nodup current add clear) ?_ ?_)
      · rw [mem_new_keywords, nil_mem_lower, nil_mem_lower]
        exact ⟨List.mem_append.mp empty, stays⟩
      · intro keyword member
        rw [mem_new_keywords, ← List.mem_append] at member
        by_contra full
        exact others ⟨keyword, member.1, full, mt (mem_lower_cased clear keyword).mp member.2⟩
  · intro kept
    constructor
    · intro keyword member
      rw [mem_new_keywords] at member
      rcases member.1 with old | added
      · exact free keyword old
      · obtain ⟨name, listed, rfl⟩ := List.mem_map.mp added
        intro comma
        exact member.2 ((mem_lower_cased clear _).mp
          (kept.separate name listed ((comma_to_lower name).mp comma)))
    · intro alone
      have left : [] ∈ MailStore.newKeywords current add clear := by
        rw [alone]
        exact List.mem_singleton.mpr rfl
      rw [mem_new_keywords, nil_mem_lower, nil_mem_lower, ← List.mem_append] at left
      obtain ⟨keyword, member, full, stays⟩ := kept.company left.1 left.2
      have other : keyword ∈ MailStore.newKeywords current add clear := by
        rw [mem_new_keywords, ← List.mem_append]
        exact ⟨member, mt (mem_lower_cased clear keyword).mpr stays⟩
      rw [alone] at other
      exact full (List.mem_singleton.mp other)

theorem update_flags_row {tables after : Tables} {message : MessageID} {mailbox : MailboxID}
    {add clear : MessageFlags} {keywordAdd keywordClear : List Bytes} {unchangedSince : Nat}
    (ran : tables.updateMessageFlags message mailbox add clear keywordAdd keywordClear unchangedSince =
      .ok after) :
    ∃ old new, tables.membership? message mailbox = some old ∧
    after.membership? message mailbox = some new ∧
      new.keywordsCSV = joinKeywords
        (MailStore.newKeywords (splitKeywords old.keywordsCSV) keywordAdd keywordClear) := by
  obtain ⟨row, present, later⟩ := bind_ok ran
  obtain ⟨_, _, later⟩ := bind_ok later
  obtain ⟨box, _, ended⟩ := bind_ok later
  cases ended
  have here := Tables.require_ok present
  let change : Membership → Membership := fun row =>
    { row with
      flags := (row.flags ||| add) &&& ~~~clear
      keywordsCSV := joinKeywords
        (MailStore.newKeywords (splitKeywords row.keywordsCSV) keywordAdd keywordClear)
      modSeq := box.highestModSeq + 1 }
  have found : (tables.updateMember message mailbox change).membership? message mailbox =
      (tables.membership? message mailbox).map fun row =>
        if mailbox = mailbox then change row else row :=
    Tables.membership_update mailbox change (fun _ => ⟨rfl, rfl⟩) mailbox
  rw [here, Option.map_some, if_pos rfl] at found
  exact ⟨row, change row, here, found, rfl⟩

/-- The keywords of a new message are the names in lower case just when they are
kept, and an update adds and clears just the named keywords when it is. -/
theorem keywords_faithful_iff (tables : Tables) :
    (∀ (after : Tables) (filing : Filing) (parcel : Parcel),
      tables.insertMessages [filing.message parcel] = .ok after → ∀ mailbox ∈ parcel.mailboxes,
        ∃ row, after.membership? tables.nextMessageID mailbox = some row ∧
          (keywordSet row = lowerCased filing.supplied ↔ filing.Kept)) ∧
    ∀ (after : Tables) (message : MessageID) (mailbox : MailboxID) (add clear : MessageFlags)
      (keywordAdd keywordClear : List Bytes) (unchangedSince : Nat),
      tables.updateMessageFlags message mailbox add clear keywordAdd keywordClear
        unchangedSince = .ok after →
      ∃ old new, tables.membership? message mailbox = some old ∧
      after.membership? message mailbox = some new ∧
        (keywordSet new = (keywordSet old ∪ lowerCased keywordAdd) \ lowerCased keywordClear ↔
          UpdateKept (splitKeywords old.keywordsCSV) keywordAdd keywordClear) := by
  constructor
  · intro after filing parcel ran mailbox member
    unfold Tables.insertMessages at ran
    split at ran
    · cases ran
    · obtain ⟨inserted, first, ended⟩ := bind_ok ran
      cases ended
      obtain ⟨row, here, written⟩ := insert_message_rows first mailbox member
      exact ⟨row, here, filed_keywords_iff filing row written⟩
  · intro after message mailbox add clear keywordAdd keywordClear unchangedSince ran
    obtain ⟨old, new, was, here, written⟩ := update_flags_row ran
    exact ⟨old, new, was, here, updated_keywords_iff _ keywordAdd keywordClear new written
      (split_keywords_free old.keywordsCSV)⟩

def oneMailbox : Tables where
  principals := [{ id := 1 }]
  mailboxes := [{ id := 1, principalID := 1, name := [] }]

def oneParcel : Parcel where
  principalID := 1
  blob := byteBlob 1
  size := 1
  mailboxes := [1]

def filedIn (tables : Tables) (filing : Filing) : Tables :=
  (tables.insertMessages [filing.message oneParcel]).toOption.getD tables

/-- A plain keyword is kept, and stays when another takes its place. -/
theorem plain_keyword_kept :
    keywordSet ⟨1, 1, 1, 1, 0, [97], none, none⟩ = lowerCased (Filing.append [[97]]).supplied ∧
    keywordSet ⟨1, 1, 1, 2, 0, [98], none, none⟩ =
      (keywordSet ⟨1, 1, 1, 1, 0, [97], none, none⟩ ∪ lowerCased [[66]]) \ lowerCased [[97]] := by
  have kept : (Filing.append [[97]]).Kept := ⟨by decide, nofun, by decide⟩
  have changed : UpdateKept [[97]] [[66]] [[97]] := by
    refine ⟨fun name member comma => ?_, fun empty => absurd empty (by decide)⟩
    rw [List.mem_singleton.mp member] at comma
    exact absurd comma (by decide)
  obtain ⟨row, here, same⟩ := (keywords_faithful_iff oneMailbox).1 (filedIn oneMailbox (.append [[97]]))
    (.append [[97]]) oneParcel rfl 1 (List.mem_singleton.mpr rfl)
  cases here
  obtain ⟨old, new, was, here, updated⟩ :=
    (keywords_faithful_iff (filedIn oneMailbox (.append [[97]]))).2
    _ 1 1 0 0 [[66]] [[97]] 0 rfl
  cases was
  cases here
  exact ⟨same.mpr kept, updated.mpr changed⟩

/-- The one keyword `a,$snoozed`, as `APPEND` reads it, files a message that has the
keyword of a reminder instead. -/
theorem comma_keyword_reads_snoozed :
    parseFlagList { src := ascii "(a,$snoozed)" } = .ok ([ascii "a,$snoozed"], { src := [] }) ∧
    ∃ row, (filedIn oneMailbox (.append [ascii "a,$snoozed"])).membership? 1 1 = some row ∧
      snoozedKeyword ∈ keywordSet row ∧
      snoozedKeyword ∉ lowerCased (Filing.append [ascii "a,$snoozed"]).supplied := by
  refine ⟨by decide +kernel, ⟨1, 1, 1, 1, 0, ascii "a,$snoozed", none, none⟩, by decide +kernel, ?_, ?_⟩
  · change snoozedKeyword ∈ splitKeywords (ascii "a,$snoozed")
    decide +kernel
  · rw [mem_lower_cased]
    decide +kernel

end Herold.Keywords

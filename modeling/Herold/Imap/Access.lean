import Herold.Imap.System

/-!
# Changes to a mailbox and the rights they need

Each entry of the session's log compares the store before and after one command.
A changed row of the mailbox calls for the right of RFC 4314 that goes with the
change: `s` for the seen flag, `t` for the deleted flag, `w` for other flags and
for keywords, `e` for a row that is gone and `i` for a new one.
-/

namespace Herold.Imap

open Herold.Go Herold.Store Herold.Machine

def Holds (rights right : ACLRights) : Prop := rights &&& right = right

instance (rights right : ACLRights) : Decidable (Holds rights right) :=
  inferInstanceAs (Decidable (_ = _))

def flagRights : List (MessageFlags × ACLRights) :=
  [(MessageFlags.seen, ACLRights.seen), (MessageFlags.deleted, ACLRights.deleteMessage),
    (~~~(MessageFlags.seen ||| MessageFlags.deleted), ACLRights.write)]

/-- A change of one row that the rights cover. The empty keyword stands for none. -/
structure RowCovered (rights : ACLRights) (old new : MessageMailbox) : Prop where
  flags : ∀ pair ∈ flagRights, old.flags &&& pair.1 ≠ new.flags &&& pair.1 → Holds rights pair.2
  keywords : ∀ keyword, keyword ≠ [] → ¬(keyword ∈ old.keywords ↔ keyword ∈ new.keywords) →
    Holds rights ACLRights.write

def RowsCovered (rights : ACLRights) : Option MessageMailbox → Option MessageMailbox → Prop
  | none, none => True
  | none, some _ => Holds rights ACLRights.insert
  | some _, none => Holds rights ACLRights.expunge
  | some old, some new => RowCovered rights old new

def Covered (rights : ACLRights) (mailbox : MailboxID) (before after : MailStore) : Prop :=
  ∀ message, RowsCovered rights (before.member? message mailbox) (after.member? message mailbox)

theorem row_covered_refl (rights : ACLRights) (row : MessageMailbox) : RowCovered rights row row :=
  ⟨fun _ _ differ => absurd rfl differ, fun _ _ differ => absurd Iff.rfl differ⟩

theorem row_covered_trans (rights : ACLRights) (first second third : MessageMailbox)
    (early : RowCovered rights first second) (late : RowCovered rights second third) :
    RowCovered rights first third where
  flags pair member differ := by
    by_cases same : first.flags &&& pair.1 = second.flags &&& pair.1
    · exact late.flags pair member fun equal => differ (same.trans equal)
    · exact early.flags pair member same
  keywords keyword nonempty differ := by
    by_cases same : keyword ∈ first.keywords ↔ keyword ∈ second.keywords
    · exact late.keywords keyword nonempty fun equal => differ (same.trans equal)
    · exact early.keywords keyword nonempty same

theorem rows_covered_refl (rights : ACLRights) (row : Option MessageMailbox) :
    RowsCovered rights row row := by
  cases row with
  | none => trivial
  | some row => exact row_covered_refl rights row

theorem rows_covered_all (old new : Option MessageMailbox) : RowsCovered ACLRights.all old new := by
  have covers : flagRights.all (fun pair => decide (Holds ACLRights.all pair.2)) = true := by
    decide +kernel
  have write : Holds ACLRights.all ACLRights.write := by decide +kernel
  have insert : Holds ACLRights.all ACLRights.insert := by decide +kernel
  have expunge : Holds ACLRights.all ACLRights.expunge := by decide +kernel
  cases old with
  | none =>
    cases new with
    | none => trivial
    | some row => exact insert
  | some old =>
    cases new with
    | none => exact expunge
    | some new => exact ⟨fun pair member _ => of_decide_eq_true (List.all_eq_true.mp covers pair member),
        fun _ _ _ => write⟩

theorem covered_same (rights : ACLRights) (mailbox : MailboxID) (before after : MailStore)
    (same : ∀ message, after.member? message mailbox = before.member? message mailbox) :
    Covered rights mailbox before after := by
  intro message
  rw [same message]
  exact rows_covered_refl rights _

theorem holds_of_need (rights need right : ACLRights) (granted : rights &&& need = need)
    (part : need &&& right = right) : Holds rights right := by
  unfold Holds
  rw [← part, ← BitVec.and_assoc, granted]

theorem fold_or_contains (masks : List (BitVec 16)) (start mask : BitVec 16)
    (inside : start &&& mask = mask ∨ mask ∈ masks) :
    masks.foldl (· ||| ·) start &&& mask = mask := by
  induction masks generalizing start with
  | nil => simpa using inside
  | cons first masks ih =>
    rw [List.foldl_cons]
    refine ih (start ||| first) ?_
    rcases inside with already | listed
    · refine Or.inl ?_
      rw [BitVec.and_or_distrib_right, already]
      ext position
      simp only [BitVec.getElem_or, BitVec.getElem_and]
      cases mask[position] <;> simp
    · rcases List.mem_cons.mp listed with rfl | later
      · refine Or.inl ?_
        ext position
        simp only [BitVec.getElem_or, BitVec.getElem_and]
        cases mask[position] <;> simp
      · exact Or.inr later

theorem fold_or_meets (masks : List (BitVec 16)) (start mask : BitVec 16)
    (meets : masks.foldl (· ||| ·) start &&& mask ≠ 0) :
    start &&& mask ≠ 0 ∨ ∃ part ∈ masks, part &&& mask ≠ 0 := by
  induction masks generalizing start with
  | nil => exact Or.inl meets
  | cons first masks ih =>
    rcases ih (start ||| first) meets with here | ⟨part, member, hit⟩
    · by_cases before : start &&& mask = 0
      · refine Or.inr ⟨first, List.mem_cons_self, ?_⟩
        intro none
        refine here ?_
        rw [BitVec.and_or_distrib_right, before, none]
        rfl
      · exact Or.inl before
    · exact Or.inr ⟨part, List.mem_cons_of_mem _ member, hit⟩

theorem flags_unchanged (flags add clear mask : BitVec 16) (noneAdded : add &&& mask = 0)
    (noneCleared : flags &&& clear &&& mask = 0) :
    (flags ||| add) &&& ~~~clear &&& mask = flags &&& mask := by
  ext position inside
  have added := congrArg (fun value => value.getLsbD position) noneAdded
  have cleared := congrArg (fun value => value.getLsbD position) noneCleared
  simp only [BitVec.getLsbD_eq_getElem inside, BitVec.getElem_and, BitVec.getElem_or,
    BitVec.getElem_not, BitVec.ofNat_eq_ofNat, BitVec.getElem_zero] at added cleared ⊢
  revert added cleared
  cases flags[position] <;> cases add[position] <;> cases clear[position] <;> cases mask[position] <;>
    simp

theorem flag_name_right (name : Bytes) (pair : MessageFlags × ACLRights) (member : pair ∈ flagRights)
    (hit : flagOfName name &&& pair.1 ≠ 0) : rightOfName name = pair.2 := by
  have only : ∀ flag : MessageFlags, ∀ right : ACLRights,
      flagRights.all (fun pair => decide (flag &&& pair.1 ≠ 0 → right = pair.2)) = true →
      flagOfName name = flag → rightOfName name = right → rightOfName name = pair.2 := by
    intro flag right agree named asked
    rw [named] at hit
    rw [asked]
    exact of_decide_eq_true (List.all_eq_true.mp agree pair member) hit
  by_cases seen : toLower name = ascii "\\seen"
  · refine only .seen .seen (by decide +kernel) ?_ ?_
    · rw [flagOfName, if_pos seen]
    · rw [rightOfName, if_pos seen]
  · by_cases deleted : toLower name = ascii "\\deleted"
    · refine only .deleted .deleteMessage (by decide +kernel) ?_ ?_
      · rw [flagOfName, if_neg seen, deleted]
        decide +kernel
      · rw [rightOfName, if_neg seen, if_pos deleted]
    · have asked : rightOfName name = .write := by rw [rightOfName, if_neg seen, if_neg deleted]
      by_cases answered : toLower name = ascii "\\answered"
      · refine only .answered .write (by decide +kernel) ?_ asked
        rw [flagOfName, if_neg seen, if_pos answered]
      · by_cases flagged : toLower name = ascii "\\flagged"
        · refine only .flagged .write (by decide +kernel) ?_ asked
          rw [flagOfName, if_neg seen, if_neg answered, if_pos flagged]
        · by_cases draft : toLower name = ascii "\\draft"
          · refine only .draft .write (by decide +kernel) ?_ asked
            rw [flagOfName, if_neg seen, if_neg answered, if_neg flagged, if_neg deleted, if_pos draft]
          · by_cases recent : toLower name = ascii "\\recent"
            · refine only .recent .write (by decide +kernel) ?_ asked
              rw [flagOfName, if_neg seen, if_neg answered, if_neg flagged, if_neg deleted,
                if_neg draft, if_pos recent]
            · refine only 0 .write (by decide +kernel) ?_ asked
              rw [flagOfName, if_neg seen, if_neg answered, if_neg flagged, if_neg deleted,
                if_neg draft, if_neg recent]

theorem keyword_name_right (names : List Bytes) (named : keywordsFromNames names ≠ []) :
    ∃ name ∈ names, rightOfName name = ACLRights.write := by
  obtain ⟨keyword, member⟩ := List.exists_mem_of_ne_nil _ named
  obtain ⟨name, kept, _⟩ := List.mem_map.mp member
  obtain ⟨listed, plain⟩ := List.mem_filter.mp kept
  refine ⟨name, listed, ?_⟩
  have noBackslash : ∀ tail, toLower name ≠ 92 :: tail := by
    intro tail lowered
    obtain ⟨rest, rfl⟩ := to_lower_backslash name tail lowered
    simp [hasPrefix, ascii] at plain
  rw [rightOfName, if_neg, if_neg]
  · exact noBackslash (ascii "deleted")
  · exact noBackslash (ascii "seen")

structure PatchCovered (rights : ACLRights) (patch : Patch) (stored : MessageMailbox) : Prop where
  added : ∀ pair ∈ flagRights, patch.addFlags &&& pair.1 ≠ 0 → Holds rights pair.2
  cleared : ∀ pair ∈ flagRights, stored.flags &&& patch.clearFlags &&& pair.1 ≠ 0 → Holds rights pair.2
  addedKeywords : patch.addKeywords ≠ [] → Holds rights ACLRights.write
  clearedKeywords : ∀ keyword ∈ stored.keywords, keyword ≠ [] →
    keyword ∈ patch.clearKeywords.map toLower → Holds rights ACLRights.write

theorem keywords_free (row : MessageMailbox) : ∀ keyword ∈ row.keywords, 44 ∉ keyword :=
  split_keywords_free row.keywordsCSV

section

variable (rights : ACLRights) (patch : Patch) (mailbox : MailboxID)

theorem flag_update_covered (clear : List Bytes) (modSeq : Nat)
    (stored : MessageMailbox) (covered : PatchCovered rights patch stored)
    (fewer : ∀ keyword ∈ clear, keyword ∈ patch.clearKeywords) :
    RowCovered rights stored
      ((MailStore.flagUpdate patch.addFlags patch.clearFlags patch.addKeywords clear modSeq).apply
        stored) where
  flags pair member differ := by
    by_contra lacks
    refine differ (flags_unchanged stored.flags patch.addFlags patch.clearFlags pair.1 ?_ ?_).symm
    · by_contra adds
      exact lacks (covered.added pair member adds)
    · by_contra clears
      exact lacks (covered.cleared pair member clears)
  keywords keyword nonempty differ := by
    by_contra lacks
    have noneAdded : patch.addKeywords = [] := by
      by_contra adds
      exact lacks (covered.addedKeywords adds)
    refine differ ?_
    have free : ∀ other ∈ MailStore.newKeywords stored.keywords [] clear, 44 ∉ other := by
      intro other member
      rw [mem_new_keywords] at member
      exact keywords_free stored other (member.1.resolve_right (by simp))
    change _ ↔ keyword ∈ splitKeywords (joinKeywords
      (MailStore.newKeywords stored.keywords patch.addKeywords clear))
    rw [noneAdded, keywords_rejoined _ free keyword nonempty, mem_new_keywords]
    constructor
    · intro listed
      refine ⟨Or.inl listed, ?_⟩
      intro cleared
      obtain ⟨source, sourceMember, rfl⟩ := List.mem_map.mp cleared
      exact lacks (covered.clearedKeywords _ listed nonempty
        (List.mem_map_of_mem (fewer source sourceMember)))
    · intro listed
      exact listed.1.resolve_right (by simp)

theorem mem_unsnoozed (row : MessageMailbox) (modSeq : Nat) (keyword : Bytes)
    (nonempty : keyword ≠ []) :
    keyword ∈ ((MailStore.snoozeUpdate none none modSeq).apply row).keywords ↔
      keyword ∈ row.keywords ∧ keyword ≠ snoozedKeyword := by
  have inside : ∀ other, other ∈ MailStore.snoozeKeywords row.keywords false ↔
      other ∈ row.keywords ∧ other ≠ [] ∧ other ≠ snoozedKeyword := by
    intro other
    simp [MailStore.snoozeKeywords, List.mem_insertionSort]
  have free : ∀ other ∈ MailStore.snoozeKeywords row.keywords false, 44 ∉ other := by
    intro other member
    exact keywords_free row other ((inside other).mp member).1
  change keyword ∈ splitKeywords (joinKeywords (MailStore.snoozeKeywords row.keywords false)) ↔ _
  rw [keywords_rejoined _ free keyword nonempty, inside]
  exact ⟨fun listed => ⟨listed.1, listed.2.2⟩, fun listed => ⟨listed.1, nonempty, listed.2⟩⟩

theorem unsnooze_covered (modSeq : Nat) (stored : MessageMailbox)
    (covered : PatchCovered rights patch stored)
    (due : containsCI patch.clearKeywords snoozedKeyword = true) :
    RowCovered rights stored ((MailStore.snoozeUpdate none none modSeq).apply stored) where
  flags _ _ differ := absurd rfl differ
  keywords keyword nonempty differ := by
    by_cases own : keyword = snoozedKeyword
    · by_cases listed : keyword ∈ stored.keywords
      · refine covered.clearedKeywords keyword listed nonempty ?_
        obtain ⟨other, member, same⟩ := List.any_eq_true.mp due
        refine List.mem_map.mpr ⟨other, member, ?_⟩
        rw [own, of_decide_eq_true same]
        decide +kernel
      · refine absurd ?_ differ
        rw [mem_unsnoozed stored modSeq keyword nonempty]
        exact ⟨fun inside => absurd inside listed, fun inside => inside.1⟩
    · refine absurd ?_ differ
      rw [mem_unsnoozed stored modSeq keyword nonempty]
      exact ⟨fun inside => ⟨inside, own⟩, fun inside => inside.1⟩

theorem unsnoozed_patch_covered (modSeq : Nat)
    (stored : MessageMailbox) (covered : PatchCovered rights patch stored) :
    PatchCovered rights patch ((MailStore.snoozeUpdate none none modSeq).apply stored) where
  added := covered.added
  cleared := covered.cleared
  addedKeywords := covered.addedKeywords
  clearedKeywords keyword member nonempty := by
    rw [mem_unsnoozed stored modSeq keyword nonempty] at member
    exact covered.clearedKeywords keyword member.1 nonempty

def RowKept (rights : ACLRights) : Option MessageMailbox → Option MessageMailbox → Prop
  | none, none => True
  | some old, some new => RowCovered rights old new
  | _, _ => False

def Adjusted (rights : ACLRights) (mailbox : MailboxID) (before after : MailStore) : Prop :=
  ∀ message, RowKept rights (before.member? message mailbox) (after.member? message mailbox)

theorem row_kept_refl (row : Option MessageMailbox) : RowKept rights row row := by
  cases row with
  | none => trivial
  | some row => exact row_covered_refl rights row

theorem adjusted_refl (store : MailStore) :
    Adjusted rights mailbox store store := fun _ => row_kept_refl rights _

theorem adjusted_trans (first second third : MailStore)
    (early : Adjusted rights mailbox first second) (late : Adjusted rights mailbox second third) :
    Adjusted rights mailbox first third := by
  intro message
  have before := early message
  have after := late message
  cases old : first.member? message mailbox with
  | none =>
    cases middle : second.member? message mailbox with
    | none => rwa [middle] at after
    | some row => simp [old, middle, RowKept] at before
  | some oldRow =>
    cases middle : second.member? message mailbox with
    | none => simp [old, middle, RowKept] at before
    | some row =>
      cases new : third.member? message mailbox with
      | none => simp [middle, new, RowKept] at after
      | some newRow =>
        rw [old, middle] at before
        rw [middle, new] at after
        exact row_covered_trans rights oldRow row newRow before after

theorem adjusted_covered (before after : MailStore)
    (adjusted : Adjusted rights mailbox before after) : Covered rights mailbox before after := by
  intro message
  have kept := adjusted message
  cases old : before.member? message mailbox with
  | none =>
    cases new : after.member? message mailbox with
    | none => trivial
    | some row => simp [old, new, RowKept] at kept
  | some oldRow =>
    cases new : after.member? message mailbox with
    | none => simp [old, new, RowKept] at kept
    | some row => rwa [old, new] at kept

theorem flagged_adjusted (message : MessageID) (mailbox : MailboxID)
    (change : MemberUpdate) (before after : MailStore)
    (flagged : MailStore.Flagged message mailbox change before after)
    (covered : ∀ stored, before.member? message mailbox = some stored →
      RowCovered rights stored (change.apply stored)) : Adjusted rights mailbox before after := by
  intro other
  rw [flagged.member other mailbox]
  by_cases hit : other = message ∧ mailbox = mailbox
  · rw [if_pos hit, hit.1]
    cases found : before.member? message mailbox with
    | none => trivial
    | some stored => exact covered stored found
  · rw [if_neg hit]
    exact row_kept_refl rights _

end

section Round

variable {rights : ACLRights} {faults : Faults} {command : StoreCommand} {store : MailStore}
  {sel : Selected} {shared : List Bytes} {row : MessageMailbox} {cleared : Cleared}

theorem reminder_cleared_flagged (done : ReminderCleared faults command store sel shared row cleared) :
    cleared.store = store ∨ ∃ modSeq,
      containsCI (patchFor command shared row).clearKeywords snoozedKeyword = true ∧
      MailStore.Flagged row.messageID sel.id (MailStore.snoozeUpdate none none modSeq) store
        cleared.store := by
  rcases done.outcome with same | ⟨due, set, _⟩
  · exact Or.inl (by rw [same])
  · obtain ⟨modSeq, flagged⟩ := MailStore.set_snooze_flagged store cleared.store _ _ _ _ set
    exact Or.inr ⟨modSeq, due, flagged⟩

theorem cleared_keywords_fewer (done : ReminderCleared faults command store sel shared row cleared) :
    ∀ keyword ∈ cleared.clearKeywords, keyword ∈ (patchFor command shared row).clearKeywords := by
  intro keyword member
  rcases done.outcome with same | ⟨_, _, kept, _⟩
  · rwa [same] at member
  · rw [kept] at member
    exact (List.mem_filter.mp member).1

theorem reminder_cleared_elsewhere (done : ReminderCleared faults command store sel shared row cleared)
    (other : MessageID) (place : MailboxID) (away : ¬(other = row.messageID ∧ place = sel.id)) :
    cleared.store.member? other place = store.member? other place := by
  rcases reminder_cleared_flagged done with same | ⟨_, _, flagged⟩
  · rw [same]
  · rw [flagged.member, if_neg away]

theorem reminder_cleared_adjusted
    (done : ReminderCleared faults command store sel shared row cleared)
    (covered : ∀ stored, store.member? row.messageID sel.id = some stored →
      PatchCovered rights (patchFor command shared row) stored) :
    Adjusted rights sel.id store cleared.store ∧
      ∀ stored, cleared.store.member? row.messageID sel.id = some stored →
        PatchCovered rights (patchFor command shared row) stored := by
  rcases reminder_cleared_flagged done with same | ⟨modSeq, due, flagged⟩
  · rw [same]
    exact ⟨adjusted_refl rights sel.id store, covered⟩
  · constructor
    · refine flagged_adjusted rights row.messageID sel.id _ store cleared.store flagged ?_
      intro stored found
      exact unsnooze_covered rights _ modSeq stored (covered stored found) due
    · intro stored found
      rw [flagged.member, if_pos ⟨rfl, rfl⟩] at found
      obtain ⟨old, oldFound, rfl⟩ := Option.map_eq_some_iff.mp found
      exact unsnoozed_patch_covered rights _ modSeq old (covered old oldFound)

end Round

def StoreStep.left (store : MailStore) : StoreStep → MailStore
  | skipped => store
  | applied after _ _ _ => after
  | rejected after _ _ => after
  | stopped after _ => after

section

variable (rights : ACLRights) (faults : Faults) (command : StoreCommand) (store : MailStore)
  (sel : Selected) (shared : List Bytes)

theorem round_adjusted (seq : Nat) (step : StoreStep)
    (round : StoreRound faults command store sel shared seq step)
    (covered : ∀ row stored, sel.msgs[seq - 1]? = some row →
      store.member? row.messageID sel.id = some stored →
      PatchCovered rights (patchFor command shared row) stored) :
    Adjusted rights sel.id store (step.left store) := by
  cases step with
  | skipped => exact adjusted_refl rights sel.id store
  | rejected after shared' uid =>
    obtain ⟨row, here, cleared, done, same, _⟩ := round
    rw [StoreStep.left, same]
    exact (reminder_cleared_adjusted done fun stored => covered row stored here).1
  | stopped after response =>
    obtain ⟨row, here, same | ⟨cleared, done, same⟩⟩ := round
    · rw [StoreStep.left, same]
      exact adjusted_refl rights sel.id store
    · rw [StoreStep.left, same]
      exact (reminder_cleared_adjusted done fun stored => covered row stored here).1
  | applied after sel' shared' responses =>
    obtain ⟨row, here, cleared, modSeq, done, _, flagged, _⟩ := round
    obtain ⟨first, between⟩ := reminder_cleared_adjusted done fun stored => covered row stored here
    refine adjusted_trans rights sel.id store cleared.store after first ?_
    refine flagged_adjusted rights row.messageID sel.id _ cleared.store after flagged ?_
    intro stored found
    exact flag_update_covered rights _ cleared.clearKeywords modSeq stored (between stored found)
      (cleared_keywords_fewer done)

theorem round_elsewhere (seq : Nat) (step : StoreStep)
    (round : StoreRound faults command store sel shared seq step) (other : MessageID)
    (place : MailboxID)
    (away : ∀ row, sel.msgs[seq - 1]? = some row → ¬(other = row.messageID ∧ place = sel.id)) :
    (step.left store).member? other place = store.member? other place := by
  cases step with
  | skipped => rfl
  | rejected after shared' uid =>
    obtain ⟨row, here, cleared, done, same, _⟩ := round
    rw [StoreStep.left, same, reminder_cleared_elsewhere done other place (away row here)]
  | stopped after response =>
    obtain ⟨row, here, same | ⟨cleared, done, same⟩⟩ := round
    · rw [StoreStep.left, same]
    · rw [StoreStep.left, same, reminder_cleared_elsewhere done other place (away row here)]
  | applied after sel' shared' responses =>
    obtain ⟨row, here, cleared, modSeq, done, _, flagged, _⟩ := round
    rw [StoreStep.left, flagged.member, if_neg (away row here),
      reminder_cleared_elsewhere done other place (away row here)]

/-- What a replacing `STORE` would clear on a row of the mailbox is covered. -/
def ReplaceCovered (rights : ACLRights) (command : StoreCommand) (row stored : MessageMailbox) : Prop :=
  (∀ pair ∈ flagRights,
    stored.flags &&& (allKnownFlags &&& ~~~flagMaskFromNames command.flags) &&& pair.1 ≠ 0 →
      Holds rights pair.2) ∧
  ∀ keyword ∈ stored.keywords, keyword ≠ [] →
    keyword ∈ (replacedKeywords row command.flags).map toLower → Holds rights ACLRights.write

def Granted (rights : ACLRights) (names : List Bytes) : Prop :=
  ∀ name ∈ names, Holds rights (rightOfName name)

theorem granted_flags (names : List Bytes) (granted : Granted rights names)
    (pair : MessageFlags × ACLRights) (member : pair ∈ flagRights)
    (hit : flagMaskFromNames names &&& pair.1 ≠ 0) : Holds rights pair.2 := by
  rcases fold_or_meets _ _ _ hit with start | ⟨mask, listed, meets⟩
  · exact absurd (by simp) start
  · obtain ⟨name, named, rfl⟩ := List.mem_map.mp listed
    rw [← flag_name_right name pair member meets]
    exact granted name named

theorem granted_keywords (names : List Bytes) (granted : Granted rights names)
    (named : keywordsFromNames names ≠ []) : Holds rights ACLRights.write := by
  obtain ⟨name, member, right⟩ := keyword_name_right names named
  rw [← right]
  exact granted name member

theorem store_rights_granted (session : Session) (sel : Selected)
    (names : List Bytes) (box : Mailbox) (found : store.mailboxByID sel.id = some box)
    (foreign : box.principalID ≠ session.pid)
    (passed : requireStoreRights faults store session sel names = true) :
    Granted (effectiveRights store session.pid box) names := by
  have part : ∀ name ∈ names, storeNeed names &&& rightOfName name = rightOfName name :=
    fun name member =>
    fold_or_contains _ _ _ (Or.inr (List.mem_map_of_mem member))
  intro name member
  unfold requireStoreRights at passed
  split at passed
  · simp at passed
  · rw [found] at passed
    rcases of_decide_eq_true passed with nothing | permitted
    · have right := part name member
      rw [nothing] at right
      rw [← right]
      unfold Holds
      simp
    · rcases of_decide_eq_true permitted with own | ⟨_, covers⟩
      · exact absurd own foreign
      · exact holds_of_need _ _ _ covers (part name member)

theorem patch_covered (row stored : MessageMailbox) (granted : Granted rights command.flags)
    (clears : shared ≠ [] → Holds rights ACLRights.write)
    (replaces : command.op = .set → ReplaceCovered rights command row stored) :
    PatchCovered rights (patchFor command shared row) stored := by
  have nothing : ∀ mask : MessageFlags, ¬(0 : MessageFlags) &&& mask ≠ 0 := by
    intro mask hit
    exact hit (by simp)
  have sharedCleared : ∀ keyword ∈ stored.keywords, keyword ≠ [] → keyword ∈ shared.map toLower →
      Holds rights ACLRights.write := by
    intro keyword _ _ listed
    refine clears ?_
    rintro rfl
    simp at listed
  unfold patchFor
  cases operation : command.op with
  | set =>
    obtain ⟨flags, keywords⟩ := replaces operation
    exact ⟨granted_flags rights _ granted, flags, granted_keywords rights _ granted, keywords⟩
  | add =>
    refine ⟨granted_flags rights _ granted, ?_, granted_keywords rights _ granted, sharedCleared⟩
    intro pair _ hit
    refine absurd ?_ hit
    simp
  | del =>
    refine ⟨fun pair _ hit => absurd hit (nothing pair.1), ?_, fun named => absurd rfl named,
      sharedCleared⟩
    intro pair member hit
    refine granted_flags rights _ granted pair member ?_
    intro none
    rw [BitVec.and_assoc, none] at hit
    simp at hit

theorem shared_stays_empty (row : MessageMailbox) (cleared : Cleared)
    (done : ReminderCleared faults command store sel shared row cleared) (empty : shared = []) :
    cleared.shared = [] := by
  rcases done.outcome with same | ⟨due, _, _, slice⟩
  · rw [same, empty]
  · rw [slice]
    split
    · exact empty
    · rename_i operation
      -- without names to clear no reminder is due
      have none : (patchFor command shared row).clearKeywords = [] := by
        unfold patchFor
        cases found : command.op with
        | set => exact absurd found operation
        | add => exact empty
        | del => exact empty
      rw [none] at due
      simp [containsCI] at due

/-- What a `STORE` on the mailbox keeps while it works through its messages. -/
structure Storing (rights : ACLRights) (command : StoreCommand) (start : MailStore)
    (mailbox : MailboxID) (seqs : List Nat) (store : MailStore) (sel : Selected)
    (shared : List Bytes) : Prop where
  place : sel.id = mailbox
  adjusted : Adjusted rights mailbox start store
  distinct : seqs.Nodup
  clears : shared ≠ [] → Holds rights ACLRights.write
  replaces : command.op = .set → ∀ seq ∈ seqs, ∀ row, messageAt sel seq = some row →
    ∀ stored, store.member? row.messageID mailbox = some stored →
      ReplaceCovered rights command row stored

theorem read_back_elsewhere (sel after : Selected) (seq other : Nat) (row : MessageMailbox)
    (responses : List Response)
    (positive : 0 < seq) (differ : other ≠ seq)
    (done : ReadBackDone faults command store sel after seq row responses) :
    messageAt after other = messageAt sel other := by
  rcases done with ⟨rfl, _⟩ | ⟨updated, _, _, _, _, msgs, _⟩
  · rfl
  · unfold messageAt
    by_cases zero : other = 0
    · simp [zero]
    · rw [if_neg zero, if_neg zero, msgs, List.getElem?_set_ne (by omega)]

theorem storing_next (start store : MailStore) (mailbox : MailboxID) (seq : Nat) (seqs : List Nat)
    (sel sel' : Selected)
    (shared shared' : List Bytes) (step : StoreStep) (granted : Granted rights command.flags)
    (storing : Storing rights command start mailbox (seq :: seqs) store sel shared)
    (positive : 0 < seq)
    (round : StoreRound faults command store sel shared seq step) (place : sel'.id = sel.id)
    (list : ∀ other, other ≠ seq → messageAt sel' other = messageAt sel other)
    (slice : shared = [] → shared' = []) :
    Storing rights command start mailbox seqs (step.left store) sel' shared' where
  place := place.trans storing.place
  adjusted := by
    refine adjusted_trans rights mailbox start store _ storing.adjusted ?_
    rw [← storing.place]
    refine round_adjusted rights faults command store sel shared seq step round ?_
    intro row stored here found
    refine patch_covered rights command shared row stored granted storing.clears ?_
    intro operation
    refine storing.replaces operation seq List.mem_cons_self row ?_ stored ?_
    · rw [messageAt, if_neg (by omega)]
      exact here
    · rw [← storing.place]
      exact found
  distinct := (List.nodup_cons.mp storing.distinct).2
  clears named := by
    refine storing.clears fun empty => ?_
    exact named (slice empty)
  replaces operation other member row here stored found := by
    have differ : other ≠ seq := by
      rintro rfl
      exact (List.nodup_cons.mp storing.distinct).1 member
    rw [list other differ] at here
    refine storing.replaces operation other (List.mem_cons_of_mem _ member) row here stored ?_
    rw [← found]
    symm
    refine round_elsewhere faults command store sel shared seq step round row.messageID mailbox ?_
    rintro first firstHere ⟨same, _⟩
    refine differ (message_at_distinct sel other seq row first here ?_ same)
    rw [messageAt, if_neg (by omega)]
    exact firstHere

theorem storing_skip (start store : MailStore)
    (mailbox : MailboxID) (seq : Nat) (seqs : List Nat) (sel : Selected) (shared : List Bytes)
    (storing : Storing rights command start mailbox (seq :: seqs) store sel shared) :
    Storing rights command start mailbox seqs store sel shared where
  place := storing.place
  adjusted := storing.adjusted
  distinct := (List.nodup_cons.mp storing.distinct).2
  clears := storing.clears
  replaces operation other member := storing.replaces operation other (List.mem_cons_of_mem _ member)

end

theorem storing_round (rights : ACLRights) (faults : Faults) (command : StoreCommand)
    (start store : MailStore) (mailbox : MailboxID) (seq : Nat) (seqs : List Nat) (sel : Selected)
    (shared : List Bytes) (granted : Granted rights command.flags)
    (storing : Storing rights command start mailbox (seq :: seqs) store sel shared) :
    match storeMessage faults command store sel shared seq with
    | .skipped => Storing rights command start mailbox seqs store sel shared
    | .applied after sel' shared' _ => Storing rights command start mailbox seqs after sel' shared'
    | .rejected after shared' _ => Storing rights command start mailbox seqs after sel shared'
    | .stopped after _ => ∃ shared', Storing rights command start mailbox seqs after sel shared' := by
  by_cases zero : seq = 0
  · rw [storeMessage, if_pos zero]
    exact storing_skip rights command start store mailbox seq seqs sel shared storing
  · have positive : 0 < seq := Nat.pos_of_ne_zero zero
    have round := store_message_round faults command store sel shared seq
    cases step : storeMessage faults command store sel shared seq with
    | skipped => exact storing_skip rights command start store mailbox seq seqs sel shared storing
    | applied after sel' shared' responses =>
      rw [step] at round
      obtain ⟨row, here, cleared, _, done, slice, _, readBack⟩ := id round
      refine storing_next rights faults command start store mailbox seq seqs sel sel' shared shared' _
        granted storing positive round ?_ ?_ ?_
      · exact (store_message_same faults command store after sel sel' shared shared' seq responses
          step).1
      · intro other differ
        exact read_back_elsewhere faults command after sel sel' seq other row responses positive differ
          readBack
      · intro empty
        rw [slice]
        exact shared_stays_empty faults command store sel shared row cleared done empty
    | rejected after shared' uid =>
      rw [step] at round
      obtain ⟨row, here, cleared, done, _, slice⟩ := id round
      refine storing_next rights faults command start store mailbox seq seqs sel sel shared shared' _
        granted storing positive round rfl (fun _ _ => rfl) ?_
      intro empty
      rw [slice]
      exact shared_stays_empty faults command store sel shared row cleared done empty
    | stopped after response =>
      rw [step] at round
      exact ⟨shared, storing_next rights faults command start store mailbox seq seqs sel sel shared
        shared _ granted storing positive round rfl (fun _ _ => rfl) id⟩

section

variable (faults : Faults) (store : MailStore) (system : System) (pid : PrincipalID)
  (session : Session) (sel : Selected) (name : Bytes) (mailbox : MailboxID)

theorem store_covered (command : StoreCommand) (box : Mailbox) (selected : session.sel = some sel)
    (found : store.mailboxByID sel.id = some box) (foreign : box.principalID ≠ session.pid)
    (replaces : command.op = .set → ∀ seq ∈ expandSet sel command.set command.isUID, ∀ row,
      messageAt sel seq = some row → ∀ stored, store.member? row.messageID sel.id = some stored →
        ReplaceCovered (effectiveRights store session.pid box) command row stored) :
    Covered (effectiveRights store session.pid box) sel.id store
      (handleSTORE faults store session command).store := by
  simp only [handleSTORE, selected]
  split
  · exact covered_same _ _ _ _ fun _ => rfl
  · rename_i permitted
    let rights := effectiveRights store session.pid box
    have granted : Granted rights command.flags := store_rights_granted faults store session sel
      command.flags box found foreign (Bool.eq_true_of_not_eq_false permitted)
    have opening : Storing rights command store sel.id (expandSet sel command.set command.isUID) store
        sel (initialClear command) := by
      refine ⟨rfl, adjusted_refl rights sel.id store, expand_set_nodup sel command.set command.isUID,
        ?_, replaces⟩
      intro clears
      refine granted_keywords rights command.flags granted ?_
      unfold initialClear at clears
      split at clears
      · exact clears
      · exact absurd rfl clears
    obtain ⟨_, _, storing⟩ := store_loop_keeps faults command
      (Storing rights command store sel.id)
      (fun seq seqs between list shared storing =>
        storing_round rights faults command store between sel.id seq seqs list shared granted storing)
      _ [] _ store sel opening
    exact adjusted_covered rights sel.id store _ storing.adjusted

/-- A `STORE` leaves every other mailbox alone. -/
theorem store_elsewhere (command : StoreCommand) (place : MailboxID) (selected : session.sel = some sel)
    (away : place ≠ sel.id) (message : MessageID) :
    (handleSTORE faults store session command).store.member? message place =
      store.member? message place := by
  simp only [handleSTORE, selected]
  split
  · rfl
  · have round : ∀ (seq : Nat) (seqs : List Nat) (between : MailStore) (list : Selected)
        (shared : List Bytes),
        (list.id = sel.id ∧ between.member? message place = store.member? message place) →
        ((storeMessage faults command between list shared seq).left between).member? message place =
          store.member? message place := by
      intro seq seqs between list shared kept
      rw [round_elsewhere faults command between list shared seq _
        (store_message_round faults command between list shared seq) message place ?_, kept.2]
      rintro row _ ⟨_, here⟩
      exact away (here.trans kept.1)
    obtain ⟨_, _, kept⟩ := store_loop_keeps faults command
      (fun _ between list _ => list.id = sel.id ∧
        between.member? message place = store.member? message place) (by
        intro seq seqs between list shared kept
        have same := round seq seqs between list shared kept
        cases step : storeMessage faults command between list shared seq with
        | skipped => exact kept
        | applied after list' shared' responses =>
          rw [step] at same
          exact ⟨(store_message_same _ _ _ _ _ _ _ _ _ _ step).1.trans kept.1, same⟩
        | rejected after shared' uid =>
          rw [step] at same
          exact ⟨kept.1, same⟩
        | stopped after response =>
          rw [step] at same
          exact ⟨shared, kept.1, same⟩)
      (expandSet sel command.set command.isUID) [] (initialClear command) store sel ⟨rfl, rfl⟩
    exact kept.2

theorem expunged_covered (rights : ACLRights) (mailbox : MailboxID) (messages : List MessageID)
    (before after : MailStore) (expunged : MailStore.Expunged mailbox messages before after)
    (holds : Holds rights ACLRights.expunge) : Covered rights mailbox before after := by
  intro message
  by_cases listed : message ∈ messages
  · rw [expunged.gone message listed]
    cases before.member? message mailbox with
    | none => trivial
    | some row => exact holds
  · rw [expunged.others message mailbox listed]
    exact rows_covered_refl rights _

/-- The reminders of these messages are not handed over to the mailbox, or the
rights cover the keyword that marks them. -/
def RemindersApart (rights : ACLRights) (store : MailStore) (source mailbox : MailboxID)
    (messages : List MessageID) : Prop :=
  Holds rights ACLRights.write ∨
    ∀ message ∈ messages, ∀ row ∈ store.member? message source, row.snoozedUntil.isSome →
      store.member? message mailbox = none

theorem expunged_elsewhere_covered (rights : ACLRights) (source mailbox : MailboxID)
    (messages : List MessageID) (before after : MailStore)
    (expunged : MailStore.Expunged source messages before after) (away : mailbox ≠ source)
    (apart : RemindersApart rights before source mailbox messages) :
    Covered rights mailbox before after := by
  intro message
  rcases apart with write | apart
  · cases filed : before.member? message mailbox with
    | none =>
      have same := expunged.elsewhere message mailbox away (Or.inr filed)
      rw [same, filed]
      trivial
    | some old =>
      obtain ⟨new, newFiled, same⟩ := expunged.kept message mailbox away old filed
      rw [newFiled]
      refine ⟨?_, fun _ _ _ => write⟩
      intro pair _ differ
      have flags : new.flags = old.flags := congrArg MailStore.Mark.flags same
      rw [flags] at differ
      exact absurd rfl differ
  · by_cases listed : message ∈ messages
    · have same : after.member? message mailbox = before.member? message mailbox := by
        refine expunged.elsewhere message mailbox away ?_
        by_cases quiet : ∀ row, before.member? message source = some row → row.snoozedUntil = none
        · exact Or.inl quiet
        · simp only [not_forall] at quiet
          obtain ⟨row, filed, held⟩ := quiet
          exact Or.inr (apart message listed row filed (Option.isSome_iff_ne_none.mpr held))
      rw [same]
      exact rows_covered_refl rights _
    · rw [expunged.others message mailbox listed]
      exact rows_covered_refl rights _

theorem destination_own (dest : Mailbox)
    (found : lookupDestination faults store pid name = .found dest) :
    dest ∈ store.mailboxes ∧ dest.principalID = pid := by
  unfold lookupDestination at found
  split at found
  · simp at found
  · split at found
    · rename_i mailbox named
      rw [Destination.found.injEq] at found
      rw [← found]
      have matched := List.find?_some named
      exact ⟨List.mem_of_find?_eq_some named, (of_decide_eq_true matched).1⟩
    · simp at found

theorem lookup_known (mailbox : Mailbox)
    (found : lookupMailbox faults store pid name = .found mailbox) :
    mailbox ∈ store.mailboxes := by
  unfold lookupMailbox at found
  split at found
  · simp at found
  · split at found
    · rename_i own named
      rw [Lookup.found.injEq] at found
      rw [← found]
      exact List.mem_of_find?_eq_some named
    · split at found
      · simp at found
      · split at found
        · rename_i other shared
          rw [Lookup.found.injEq] at found
          rw [← found]
          exact (List.mem_filter.mp (List.mem_of_find?_eq_some shared)).1
        · simp at found

theorem box_unique (box other : Mailbox)
    (found : store.mailboxByID mailbox = some box) (member : other ∈ store.mailboxes)
    (same : other.id = mailbox) : other = box := by
  have matched := List.find?_some found
  exact store.mailbox_unique other box member (List.mem_of_find?_eq_some found)
    (same.trans (of_decide_eq_true matched).symm)

/-- The step does nothing to the mailbox of another principal without the right
the handler does not check. A replacing `STORE` clears only what the rights
cover; a `MOVE` out of the mailbox has the right to expunge; reminders are not
handed over to it; and a deleted mailbox shares no message with it. -/
def RightsSuffice (mailbox : MailboxID) (system : System) : Label → Prop
  | .change _ => True
  | .command faults command =>
    ∀ box ∈ system.store.mailboxByID mailbox, box.principalID ≠ system.session.pid →
      let rights := effectiveRights system.store system.session.pid box
      match command, system.session.sel with
      | .store storing, some sel =>
        sel.id = mailbox → storing.op = .set →
          ∀ seq ∈ expandSet sel storing.set storing.isUID, ∀ row ∈ messageAt sel seq,
            ∀ stored ∈ system.store.member? row.messageID sel.id,
              ReplaceCovered rights storing row stored
      | .expunge, some sel =>
        sel.id ≠ mailbox → RemindersApart rights system.store sel.id mailbox
          ((victims sel false none).map fun victim => victim.2.messageID)
      | .uidExpunge set, some sel =>
        sel.id ≠ mailbox → RemindersApart rights system.store sel.id mailbox
          ((victims sel true (some set)).map fun victim => victim.2.messageID)
      | .move set isUID name, some sel =>
        if sel.id = mailbox then
          Holds rights ACLRights.expunge ∨ expandSet sel set isUID = [] ∨
            (lookupDestination faults system.store system.session.pid name).satisfies
              (fun _ => true) = false
        else
          RemindersApart rights system.store sel.id mailbox
            (((expandSet sel set isUID).filterMap (messageAt sel)).map MessageMailbox.messageID)
      | .delete name, _ =>
        (lookupDestination faults system.store system.session.pid name).satisfies
          (fun dest => !(system.store.rows dest.id).all fun row =>
            (system.store.member? row.messageID mailbox).isNone) = false
      | _, _ => True

theorem expunge_covered (isUID : Bool) (set : Option NumSet) (mailbox : MailboxID) (box : Mailbox)
    (selected : session.sel = some sel) (found : store.mailboxByID mailbox = some box)
    (foreign : box.principalID ≠ session.pid)
    (apart : sel.id ≠ mailbox → RemindersApart (effectiveRights store session.pid box) store sel.id
      mailbox ((victims sel isUID set).map fun victim => victim.2.messageID)) :
    Covered (effectiveRights store session.pid box) mailbox store
      (handleEXPUNGE faults store session isUID set).store := by
  rcases handle_expunge_cases faults store session sel isUID set selected with
    ⟨_, same⟩ | ⟨⟨_, other, otherFound, permitted⟩, ok, _⟩
  · rw [same]
    exact covered_same _ _ _ _ fun _ => rfl
  · have expunged := MailStore.expunge_messages_expunged _ _ _ _ ok
    by_cases here : sel.id = mailbox
    · rw [here] at expunged otherFound
      rw [found, Option.some.injEq] at otherFound
      rw [← otherFound] at permitted
      refine expunged_covered _ mailbox _ store _ expunged ?_
      rcases of_decide_eq_true permitted with own | ⟨_, holds⟩
      · exact absurd own foreign
      · exact holds
    · exact expunged_elsewhere_covered _ sel.id mailbox _ store _ expunged (fun same => here same.symm)
        (apart here)

theorem move_covered (set : NumSet) (isUID : Bool) (name : Bytes) (mailbox : MailboxID) (box : Mailbox)
    (selected : session.sel = some sel) (found : store.mailboxByID mailbox = some box)
    (foreign : box.principalID ≠ session.pid)
    (leaving : sel.id = mailbox → Holds (effectiveRights store session.pid box) ACLRights.expunge ∨
      expandSet sel set isUID = [] ∨
      (lookupDestination faults store session.pid name).satisfies (fun _ => true) = false)
    (apart : sel.id ≠ mailbox → RemindersApart (effectiveRights store session.pid box) store sel.id
      mailbox (((expandSet sel set isUID).filterMap (messageAt sel)).map MessageMailbox.messageID)) :
    Covered (effectiveRights store session.pid box) mailbox store
      (handleMOVE faults store session set isUID name).store := by
  rcases handle_move_cases faults store session sel set isUID name selected with
    ⟨_, same⟩ | ⟨dest, destFound, named, moved⟩
  · rw [same]
    exact covered_same _ _ _ _ fun _ => rfl
  · obtain ⟨known, own⟩ := destination_own faults store session.pid name dest destFound
    have away : mailbox ≠ dest.id := by
      intro same
      rw [box_unique store mailbox box dest found known same.symm] at own
      exact foreign own
    let copied := (copyLoop faults session.pid sel.id dest true
      ((expandSet sel set isUID).filterMap (messageAt sel)) 0 store).1
    have grown : MailStore.Grown dest.id store copied := copy_loop_grown faults session.pid sel.id dest
      true ((expandSet sel set isUID).filterMap (messageAt sel)) 0 store
    have copiedSame : ∀ message, copied.member? message mailbox = store.member? message mailbox :=
      fun message => grown.elsewhere message mailbox away
    have fromCopied : ∀ rights after, Covered rights mailbox copied after →
        Covered rights mailbox store after := by
      intro rights after covered message
      have row := covered message
      rwa [copiedSame message] at row
    rcases moved with ⟨_, same⟩ | ⟨ok, _⟩
    · rw [same]
      exact covered_same _ _ _ _ copiedSame
    · have expunged := MailStore.expunge_messages_expunged _ _ _ _ ok
      by_cases here : sel.id = mailbox
      · rcases leaving here with holds | none | missing
        · subst here
          exact fromCopied _ _ (expunged_covered _ sel.id _ copied _ expunged holds)
        · exact absurd none named
        · rw [destFound] at missing
          simp [Destination.satisfies] at missing
      · refine fromCopied _ _ (expunged_elsewhere_covered _ sel.id mailbox _ copied _ expunged
          (fun same => here same.symm) ?_)
        rcases apart here with write | apart
        · exact Or.inl write
        · -- a message that is new among the copies is in no other mailbox
          refine Or.inr ?_
          intro message listed row rowFiled held
          rw [copiedSame message]
          by_cases old : message < store.nextMessageID
          · rw [Option.mem_def, grown.known message sel.id old] at rowFiled
            exact apart message listed row rowFiled held
          · exact MailStore.fresh_message_absent store message mailbox (Nat.not_lt.mp old)

theorem append_covered (items : List (Bytes × List Bytes)) (mailbox : MailboxID) (box : Mailbox)
    (found : store.mailboxByID mailbox = some box) (foreign : box.principalID ≠ session.pid) :
    Covered (effectiveRights store session.pid box) mailbox store
      (handleAPPEND faults store session name items).store := by
  rcases (handle_append_cases faults store session name items).2 with
    same | ⟨target, targetFound, permitted, appended⟩
  · rw [same]
    exact covered_same _ _ _ _ fun _ => rfl
  · rw [appended]
    have grown := append_loop_grown faults session.pid target.id items 0 store
    by_cases here : target.id = mailbox
    · have sameBox := box_unique store mailbox box target found
        (lookup_known faults store session.pid name target targetFound) here
      have holds : Holds (effectiveRights store session.pid box) ACLRights.insert := by
        rw [sameBox] at permitted
        rcases of_decide_eq_true permitted with own | ⟨_, holds⟩
        · exact absurd own foreign
        · exact holds
      intro message
      by_cases old : message < store.nextMessageID
      · rw [grown.known message mailbox old]
        exact rows_covered_refl _ _
      · rw [MailStore.fresh_message_absent store message mailbox (Nat.not_lt.mp old)]
        cases (appendLoop faults session.pid target.id items 0 store).1.member? message mailbox with
        | none => trivial
        | some row => exact holds
    · refine covered_same _ _ _ _ fun message => ?_
      exact grown.elsewhere message mailbox fun same => here same.symm

theorem copy_covered (set : NumSet) (isUID : Bool) (name : Bytes) (mailbox : MailboxID) (box : Mailbox)
    (selected : session.sel = some sel) (found : store.mailboxByID mailbox = some box)
    (foreign : box.principalID ≠ session.pid) :
    Covered (effectiveRights store session.pid box) mailbox store
      (handleCOPY faults store session set isUID name).store := by
  refine covered_same _ _ _ _ fun message => ?_
  rcases (handle_copy_cases faults store session sel set isUID name selected).2 with
    same | ⟨dest, destFound, copied⟩
  · rw [same]
  · rw [copied]
    refine (copy_loop_grown faults session.pid sel.id dest false _ 0 store).elsewhere message mailbox ?_
    intro same
    obtain ⟨known, own⟩ := destination_own faults store session.pid name dest destFound
    rw [box_unique store mailbox box dest found known same.symm] at own
    exact foreign own

theorem delete_covered (box : Mailbox) (found : store.mailboxByID mailbox = some box)
    (foreign : box.principalID ≠ session.pid)
    (apart : (lookupDestination faults store session.pid name).satisfies
      (fun dest => !(store.rows dest.id).all fun row =>
        (store.member? row.messageID mailbox).isNone) = false) :
    Covered (effectiveRights store session.pid box) mailbox store
      (handleDELETE faults store session name).store := by
  refine covered_same _ _ _ _ fun message => ?_
  rcases (handle_delete_cases faults store session name).2 with same | ⟨dest, destFound, deleted⟩
  · rw [same]
  · refine MailStore.delete_mailbox_elsewhere store _ dest.id mailbox ?_ ?_ deleted message
    · intro same
      obtain ⟨known, own⟩ := destination_own faults store session.pid name dest destFound
      rw [box_unique store mailbox box dest found known same.symm] at own
      exact foreign own
    · intro row member
      rw [destFound, Destination.satisfies, Bool.not_eq_false', List.all_eq_true] at apart
      exact Option.isNone_iff_eq_none.mp (apart row member)

theorem dispatch_append_covered (items : List (Bytes × List Bytes)) (outcome : Outcome)
    (mailbox : MailboxID) (box : Mailbox)
    (found : system.store.mailboxByID mailbox = some box)
    (foreign : box.principalID ≠ system.session.pid)
    (ran : dispatch faults system.store system.session (.append name items) = some outcome) :
    Covered (effectiveRights system.store system.session.pid box) mailbox system.store
      outcome.store := by
  cases idling : system.session.idle with
  | some cursor => simp [dispatch, idling] at ran
  | none =>
    simp only [dispatch, idling, Option.some.injEq] at ran
    subst ran
    exact append_covered faults system.store system.session name items mailbox box found foreign

theorem dispatch_delete_covered (outcome : Outcome)
    (mailbox : MailboxID) (box : Mailbox) (found : system.store.mailboxByID mailbox = some box)
    (foreign : box.principalID ≠ system.session.pid)
    (suffice : RightsSuffice mailbox system (.command faults (.delete name)))
    (ran : dispatch faults system.store system.session (.delete name) = some outcome) :
    Covered (effectiveRights system.store system.session.pid box) mailbox system.store
      outcome.store := by
  cases idling : system.session.idle with
  | some cursor => simp [dispatch, idling] at ran
  | none =>
    simp only [dispatch, idling, Option.some.injEq] at ran
    subst ran
    exact delete_covered faults system.store system.session name mailbox box found foreign
      (suffice box found foreign)

theorem dispatch_covered (command : Command) (outcome : Outcome)
    (mailbox : MailboxID) (box : Mailbox) (found : system.store.mailboxByID mailbox = some box)
    (suffice : RightsSuffice mailbox system (.command faults command))
    (ran : dispatch faults system.store system.session command = some outcome) :
    Covered (effectiveRights system.store system.session.pid box) mailbox system.store
      outcome.store := by
  by_cases own : box.principalID = system.session.pid
  · intro message
    rw [effectiveRights, if_pos own]
    exact rows_covered_all _ _
  have here := suffice box found own
  have untouched : outcome.store = system.store → Covered
      (effectiveRights system.store system.session.pid box) mailbox system.store outcome.store := by
    intro same
    rw [same]
    exact covered_same _ _ _ _ fun _ => rfl
  cases selected : system.session.sel with
  | none =>
    rcases (dispatch_unselected faults system.store system.session command outcome selected ran).2 with
      same | ⟨name, items, rfl⟩ | ⟨name, rfl⟩
    · exact untouched same
    · exact dispatch_append_covered faults system name items outcome mailbox box found own ran
    · exact dispatch_delete_covered faults system name outcome mailbox box found own suffice ran
  | some sel =>
    cases idling : system.session.idle with
    | some cursor =>
      cases command with
      | poll =>
        simp only [dispatch, idling, selected, Option.map_some, Option.some.injEq] at ran
        subst ran
        exact untouched (poll_store faults _ _ sel cursor)
      | done =>
        simp only [dispatch, idling, Option.some.injEq] at ran
        subst ran
        exact untouched rfl
      | _ => simp [dispatch, idling] at ran
    | none =>
      cases command with
      | append name items =>
        exact dispatch_append_covered faults system name items outcome mailbox box found own ran
      | delete name =>
        exact dispatch_delete_covered faults system name outcome mailbox box found own suffice ran
      | poll | done => simp [dispatch, idling] at ran
      | noop | enable =>
        simp only [dispatch, idling, Option.some.injEq] at ran
        subst ran
        exact untouched rfl
      | select name readOnly condstore qresync =>
        simp only [dispatch, idling, Option.some.injEq] at ran
        subst ran
        exact untouched (select_pid faults _ _ name readOnly condstore qresync).2
      | unselect =>
        simp only [dispatch, idling, handleUNSELECT, selected, Option.some.injEq] at ran
        subst ran
        exact untouched rfl
      | fetch fetching =>
        simp only [dispatch, idling, handleFETCH, selected, Option.some.injEq] at ran
        subst ran
        exact untouched rfl
      | search =>
        simp only [dispatch, idling, selected, Option.some.injEq] at ran
        subst ran
        exact untouched rfl
      | idle =>
        simp only [dispatch, idling, startIDLE, selected, Option.some.injEq] at ran
        subst ran
        exact untouched rfl
      | store storing =>
        simp only [dispatch, idling, Option.some.injEq] at ran
        simp only [selected] at here
        subst ran
        by_cases place : sel.id = mailbox
        · subst place
          exact store_covered faults system.store system.session sel storing box selected found own
            (here rfl)
        · refine covered_same _ _ _ _ fun message => ?_
          exact store_elsewhere faults system.store system.session sel storing mailbox selected
            (fun same => place same.symm) message
      | expunge =>
        simp only [dispatch, idling, Option.some.injEq] at ran
        simp only [selected] at here
        subst ran
        exact expunge_covered faults system.store system.session sel false none mailbox box selected
          found own here
      | uidExpunge set =>
        simp only [dispatch, idling, Option.some.injEq] at ran
        simp only [selected] at here
        subst ran
        exact expunge_covered faults system.store system.session sel true (some set) mailbox box
          selected found own here
      | copy set isUID name =>
        simp only [dispatch, idling, Option.some.injEq] at ran
        subst ran
        exact copy_covered faults system.store system.session sel set isUID name mailbox box selected
          found own
      | move set isUID name =>
        simp only [dispatch, idling, Option.some.injEq] at ran
        simp only [selected] at here
        subst ran
        refine move_covered faults system.store system.session sel set isUID name mailbox box
          selected found own ?_ ?_
        · intro place
          simpa only [place, if_true] using here
        · intro place
          simpa only [place, if_false] using here

structure Accounted (pid : PrincipalID) (mailbox : MailboxID) (system : System) : Prop where
  principal : system.session.pid = pid
  log : ∀ entry ∈ system.log, ∀ box, entry.before.mailboxByID mailbox = some box →
    Covered (effectiveRights entry.before pid box) mailbox entry.before entry.after

theorem accounted_step (system next : System)
    (label : Label) (accounted : Accounted pid mailbox system)
    (suffice : RightsSuffice mailbox system label) (stepped : system.step label = some next) :
    Accounted pid mailbox next := by
  cases label with
  | change after =>
    simp only [System.step, Option.some.injEq] at stepped
    rw [← stepped]
    exact ⟨accounted.principal, accounted.log⟩
  | command faults command =>
    simp only [System.step] at stepped
    obtain ⟨outcome, ran, rfl⟩ := Option.map_eq_some_iff.mp stepped
    refine ⟨(dispatch_pid faults _ _ command outcome ran).trans accounted.principal, ?_⟩
    intro entry member box found
    rcases List.mem_append.mp member with before | now
    · exact accounted.log entry before box found
    · rw [List.mem_singleton] at now
      rw [now] at found ⊢
      rw [← accounted.principal]
      exact dispatch_covered faults system command outcome mailbox box found suffice ran

end

/-- Where the rights suffice for what the handlers do not check, every change a
session makes to the messages of the mailbox is covered by its principal's
rights at that time. -/
theorem changes_covered_by_rights (start final : System) (mailbox : MailboxID) (labels : List Label)
    (fresh : start.log = []) (meets : systemMachine.Meets (RightsSuffice mailbox) start labels)
    (ran : systemMachine.execute start labels = some final) :
    ∀ entry ∈ final.log, ∀ box, entry.before.mailboxByID mailbox = some box →
      Covered (effectiveRights entry.before start.session.pid box) mailbox entry.before
        entry.after := by
  have opening : Accounted start.session.pid mailbox start := by
    refine ⟨rfl, ?_⟩
    rw [fresh]
    simp
  exact (Machine.meets_keeps systemMachine (RightsSuffice mailbox)
    (Accounted start.session.pid mailbox)
    (fun system label next accounted suffice stepped =>
      accounted_step start.session.pid mailbox system next label accounted suffice stepped)
    labels start final opening meets ran).log

def sharedStore (level : Bytes) : MailStore where
  mailboxes :=
    [{ id := 1, principalID := 7, name := ascii "Shared", uidNext := 3 },
      { id := 2, principalID := 9, name := ascii "Own" }]
  members := twoMessages.members
  grants := [{ mailboxID := 1, subject := some 9, level := level }]
  nextMessageID := 3
  mailboxesDistinct := by decide
  membersDistinct := twoMessages.membersDistinct
  uidsAscend := twoMessages.uidsAscend
  uidsIssued := by decide
  uidsPositive := twoMessages.uidsPositive
  countersPositive := by decide
  messagesIssued := twoMessages.messagesIssued

def sharing (level : Bytes) : System :=
  { store := sharedStore level
    session := (handleSELECT noFaults (sharedStore level) { pid := 9 } (ascii "Shared") false false
      false).session }

def clearFlags : StoreCommand := { set := [⟨1, 1⟩], op := .set, flags := [] }

def clearAndMove : Option System :=
  systemMachine.execute (sharing (ascii "lr"))
    [.command noFaults (.store clearFlags), .command noFaults (.move [⟨1, 1⟩] false (ascii "Own"))]

/-- With `l` and `r` alone, the first clears the flags of a message and the
second takes it away. -/
theorem reader_clears_flags_and_moves_away :
    (clearAndMove.map fun system => system.log.map fun entry =>
      (entry.before.mailboxByID 1).map (effectiveRights entry.before 9)) =
      some [some (ACLRights.lookup ||| ACLRights.read), some (ACLRights.lookup ||| ACLRights.read)] ∧
    (clearAndMove.map fun system => system.log.map fun entry => holding entry.before 1 1) =
      some [some (MessageFlags.deleted, []), some (0, [])] ∧
    (clearAndMove.map fun system => system.log.map fun entry => holding entry.after 1 1) =
      some [some (0, []), none] := by
  refine ⟨?_, ?_, ?_⟩
  · decide +kernel
  · decide +kernel
  · decide +kernel

def markSeen : StoreCommand := { set := [⟨1, 2⟩], op := .add, flags := [ascii "\\Seen"] }

theorem seen_marks_covered_by_rights :
    ∃ final, systemMachine.execute (sharing (ascii "lrs")) [.command noFaults (.store markSeen)] =
        some final ∧ final.log.length = 1 ∧
      ∀ entry ∈ final.log, ∀ box, entry.before.mailboxByID 1 = some box →
        Covered (effectiveRights entry.before 9 box) 1 entry.before entry.after := by
  have count : ((systemMachine.execute (sharing (ascii "lrs"))
      [.command noFaults (.store markSeen)]).map fun system => system.log.length) = some 1 := by
    decide +kernel
  obtain ⟨final, ran, one⟩ := Option.map_eq_some_iff.mp count
  refine ⟨final, ran, one, changes_covered_by_rights (sharing (ascii "lrs")) final 1 _ rfl ?_ ran⟩
  refine Machine.meets_always systemMachine _ _ _ ?_
  intro label member system
  rw [List.mem_singleton] at member
  subst member
  intro box _ _
  cases system.session.sel with
  | none => trivial
  | some sel =>
    intro _ _ replacing
    exact absurd replacing (by decide)

end Herold.Imap

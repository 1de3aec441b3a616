import Herold.Jmap.Groups

/-!
# What a refused update leaves

An update that is refused leaves the message as it was when no group of the patch
that was carried out stands before the group that is refused. A group that is
refused after one that was carried out leaves what that one did.
-/

namespace Herold.Jmap

open Herold.Go Herold.Store Herold.Store.Tables Herold.Machine

/-- The body, memberships, flags, keywords, reminder and reactions of a message. -/
def messageState (account : Account) (id : MessageID) :
    Option MessageRow × List (MailboxID × MessageFlags × Bytes × Option Micros × Option MailboxID)
      × List Reaction :=
  (account.tables.message? id,
    (account.tables.rowsOf id).map fun row =>
      (row.mailboxID, row.flags, row.keywordsCSV, row.snoozedUntil, row.wakeMailboxID),
    account.reactions.filter fun reaction => reaction.messageID = id)

section Whole

variable {around : Surroundings} {account : Account} {caller owner : PrincipalID} {id : MessageID}
  {loaded : Loaded} {patch : Patch} {error : SetError}

theorem refile_and_mark_refused {rebuilt : Account} (numbered : Numbered account.tables)
    (housed : Housed account.tables) (found : account.getMessage id = some loaded)
      (some_ : loaded.mailboxes ≠ [])
    (carried : ∀ mayGo, Carried id mayGo account rebuilt) (acl : rebuilt.acl = account.acl)
    (access : ∀ owner, hasOwnerAccess rebuilt.tables caller owner =
      hasOwnerAccess account.tables caller owner)
    (refused : ((refile around rebuilt caller owner loaded patch).andThen fun account =>
      reactAndMark around account caller owner id patch).outcome = .refused error) :
    (FilingRefused around account caller owner loaded patch ∧
      ((refile around rebuilt caller owner loaded patch).andThen fun account =>
        reactAndMark around account caller owner id patch).account = rebuilt) ∨
    (¬FilingRefused around account caller owner loaded patch ∧
      (ReactionsRefused caller patch ∨ MarksRefused around account owner patch
        (OnlyTrash account loaded patch)) ∧
      (ReactionsAsked caller patch ∨
        ((refile around rebuilt caller owner loaded patch).andThen fun account =>
        reactAndMark around account caller owner id patch).account =
          (refile around rebuilt caller owner loaded patch).account)) := by
  obtain ⟨_, sameId, _⟩ := loaded_message found
  have owners := (carried fun _ => False).keeping.owners
  cases wanted : desiredMailboxes loaded patch with
  | error problem =>
    refine Or.inl ⟨fun desired other => ?_, ?_⟩
    · rw [wanted] at other
      cases other
    · unfold refile
      rw [wanted]
      rfl
  | ok desired =>
    by_cases taken : ∀ id ∈ added around loaded desired, targetRefused account caller owner id = none
    · right
      have unrefused : ¬FilingRefused around account caller owner loaded patch := by
        intro refusal
        obtain ⟨target, member, some'⟩ := refusal desired wanted
        rw [taken target member] at some'
        cases some'
      have filed : ∀ place ∈ loaded.current, Filed rebuilt.tables loaded.row.id place := by
        intro place member
        rw [sameId]
        exact (carried fun _ => False).keeping.stays place (fun never => never)
          ((current_filed found some_ place).mp member)
      obtain ⟨stands, files⟩ := refile_carries around caller owner
        ((carried fun _ => False).numbered numbered) filed wanted fun target member =>
          (target_alike acl owners access target).trans (taken target member)
      rcases and_then_cases (refile around rebuilt caller owner loaded patch)
          (fun account => reactAndMark around account caller owner id patch) with ⟨updated,
            next⟩ | ⟨_, same⟩
      · rw [next] at refused ⊢
        obtain ⟨moved, there⟩ := files updated
        rw [sameId] at moved there
        have allOwners := same_owners_trans owners moved.keeping.owners
        -- a mailbox outside the trash that the message is to be in is not left
        have stays : ∀ place ∈ desired, account.tables.isTrash place = false →
            Filed (refile around rebuilt caller owner loaded patch).account.tables id place := by
          intro place member clean
          refine there place member ?_
          rintro (gone | ⟨trash, _⟩)
          · exact (mem_removed.mp gone).2 member
          · rw [trash_alike owners, clean] at trash
            cases trash
        have somewhere : ∃ place,
          Filed (refile around rebuilt caller owner loaded patch).account.tables id
          place := by
          obtain ⟨place, member⟩ := desired_somewhere wanted
          by_cases clean : ∃ other ∈ desired, account.tables.isTrash other = false
          · obtain ⟨other, otherMember, otherClean⟩ := clean
            exact ⟨other, stays other otherMember otherClean⟩
          · refine ⟨place, there place member ?_⟩
            rintro (gone | ⟨_, target, targetMember, targetClean⟩)
            · exact (mem_removed.mp gone).2 member
            · rw [trash_alike owners] at targetClean
              exact clean ⟨target, (mem_added.mp targetMember).1, targetClean⟩
        obtain ⟨why, left⟩ := react_and_mark_refused
          (moved.keeping.housed ((carried fun _ => False).keeping.housed housed)) somewhere refused
        refine ⟨unrefused, why.imp_right ?_, left⟩
        rintro ⟨later, laterFound, marks⟩ action intent marks' decoded
        refine (marks action ((snooze_intent_alike allOwners).trans intent) marks' decoded).imp_right ?_
        rintro ⟨isSet, missing⟩
        refine ⟨isSet, fun desired' wanted' place member => ?_⟩
        cases wanted.symm.trans wanted'
        by_contra clean
        obtain ⟨_, _, rows⟩ := loaded_message laterFound
        obtain ⟨row, rowMember, here, rfl⟩ := stays place member (by simpa using clean)
        have listed := (rows row).mpr ⟨rowMember, here⟩
        unfold snoozeTarget at missing
        rw [if_neg (by simpa using List.ne_nil_of_mem listed)] at missing
        have away := List.find?_eq_none.mp (Option.map_eq_none_iff.mp missing) row listed
        have house := moved.keeping.housed ((carried fun _ => False).keeping.housed housed)
          row rowMember
        obtain ⟨box, boxFound⟩ := Option.isSome_iff_exists.mp house
        have trash := trash_alike allOwners row.mailboxID
        unfold isTrash at trash clean
        rw [boxFound] at trash away
        rw [← trash] at clean
        simp at clean away
        rw [clean] at away
        cases away
      · rw [same] at refused
        exact absurd refused (stands error)
    · left
      obtain ⟨target, member, some'⟩ : ∃ id ∈ added around loaded desired,
          (targetRefused account caller owner id).isSome := by
        by_contra none_
        refine taken fun target member => ?_
        by_contra some'
        exact none_ ⟨target, member, Option.isSome_iff_ne_none.mpr some'⟩
      refine ⟨fun desired' wanted' => ?_, ?_⟩
      · cases wanted.symm.trans wanted'
        exact ⟨target, member, some'⟩
      · have stops : ((added around loaded desired).findSome?
          (targetRefused rebuilt caller owner)).isSome := by
          rw [List.findSome?_isSome_iff]
          refine ⟨target, member, ?_⟩
          rw [target_alike acl owners access]
          exact some'
        obtain ⟨problem, found'⟩ := Option.isSome_iff_exists.mp stops
        unfold refile
        rw [wanted]
        unfold applyMailboxDiff
        dsimp only
        rw [found']
        rfl

theorem refile_unasked (caller owner : PrincipalID)
    (unasked : ¬FilingAsked around account loaded patch) :
    (refile around account caller owner loaded patch).account = account := by
  cases wanted : desiredMailboxes loaded patch with
  | error problem =>
    unfold refile
    rw [wanted]
  | ok desired =>
    have quiet : added around loaded desired = [] ∧ removed around loaded desired = [] ∧
        account.tables.consolidateSnooze loaded.row.id = .ok account.tables := by
      by_contra asked
      refine unasked ⟨desired, wanted, ?_⟩
      by_contra none_
      exact asked (by simpa only [ne_eq, not_or, not_not] using none_)
    unfold refile
    rw [wanted]
    unfold applyMailboxDiff
    dsimp only
    rw [quiet.1, quiet.2.1]
    show (consolidate account loaded.row.id).account = account
    unfold consolidate
    rw [quiet.2.2]

end Whole

/-- A refused update leaves the message as it was, when no group that is carried out
stands before the one that is refused. -/
theorem refused_update_changes_nothing (around : Surroundings) (account : Account)
    (caller owner : PrincipalID)
    (id : MessageID) (raw : Option Patch) (error : SetError) (numbered : Numbered account.tables)
    (housed : Housed account.tables)
    (orderly : ∀ loaded patch, account.loadMessage caller id = some loaded → raw = some patch →
      Orderly around account caller owner loaded patch)
    (refused : (updateEmail around account caller owner id raw).outcome = .refused error) :
    messageState (updateEmail around account caller owner id raw).account id =
      messageState account id := by
  refine congrArg (messageState · id) ?_
  unfold updateEmail at refused ⊢
  cases loads : account.loadMessage caller id with
  | none => rfl
  | some loaded =>
    rw [loads] at refused
    dsimp only at refused ⊢
    by_cases own : loaded.row.principalID ≠ owner
    · rw [if_pos own]
    · rw [if_neg own] at refused ⊢
      cases guard : account.mutationRefused caller owner loaded with
      | some problem => rfl
      | none =>
        rw [guard] at refused
        cases raw with
        | none => rfl
        | some patch =>
          dsimp only at refused ⊢
          obtain ⟨found, some_⟩ := load_message loads
          obtain ⟨_, sameId, _⟩ := loaded_message found
          have inOrder := orderly loaded patch loads rfl
          cases needed : needsBodyRebuild patch with
          | true =>
            rcases rebuild_cases around account loaded caller needed with
              ⟨left, stopped⟩ | ⟨taken, updated, acl, carried, access⟩
            · rcases and_then_cases (rebuild around account loaded.row patch) _ with
                ⟨updated, _⟩ | ⟨_, same⟩
              · exact absurd updated stopped
              · rw [same]
                exact left
            · obtain ⟨filing, reactions, marks⟩ := inOrder.body needed taken
              rcases and_then_cases (rebuild around account loaded.row patch) (fun account =>
                (refile around account caller owner loaded patch).andThen fun account =>
                  reactAndMark around account caller owner id patch) with ⟨_, next⟩ | ⟨stopped, _⟩
              · rw [next] at refused
                rw [sameId] at carried
                rcases refile_and_mark_refused numbered housed found some_ carried acl
                  access refused with
                  ⟨refusal, _⟩ | ⟨_, why, _⟩
                · exact absurd refusal filing
                · exact absurd why (not_or.mpr ⟨reactions, marks⟩)
              · exact absurd updated stopped
          | false =>
            have untouched : rebuild around account loaded.row patch = ⟨.updated, account⟩ := by
              unfold rebuild
              rw [if_neg (by rw [needed]; decide)]
            rw [untouched] at refused ⊢
            change ((refile around account caller owner loaded patch).andThen fun account =>
              reactAndMark around account caller owner id patch).outcome = _ at refused
            change ((refile around account caller owner loaded patch).andThen fun account =>
              reactAndMark around account caller owner id patch).account = _
            rcases refile_and_mark_refused numbered housed found some_ (fun _ => carried_refl _) rfl
                (fun _ => rfl) refused with ⟨_, left⟩ | ⟨unrefused, why, left⟩
            · exact left
            · have unasked : ¬FilingAsked around account loaded patch := fun asked =>
                absurd why (not_or.mpr (inOrder.filing needed unrefused asked))
              rcases left with asked | left
              · have marks := inOrder.reactions needed unrefused asked
                obtain ⟨changes, decoded, _⟩ := asked
                exact absurd why (not_or.mpr ⟨fun refusal => refusal changes decoded, marks⟩)
              · rw [left]
                exact refile_unasked caller owner unasked

def oneOfTwo : Account where
  tables :=
    { principals := [{ id := 1 }]
      mailboxes := [{ id := 1, principalID := 1, name := ascii "INBOX",
                      uidNext := 2, highestModSeq := 1 },
        { id := 2, principalID := 1, name := ascii "Archive" }]
      messages := [⟨7, 1, byteBlob 1, 10⟩]
      members := [{ messageID := 7, mailboxID := 1, uid := 1, modSeq := 1 }]
      nextMessageID := 8 }

theorem one_of_two_numbered : Numbered oneOfTwo.tables where
  boxes := by decide
  uids := by decide
  issued := by decide
  stamped := by decide

theorem one_of_two_housed : Housed oneOfTwo.tables := by
  unfold Housed
  decide

/-- The message is filed in the second mailbox although its keywords are refused. -/
theorem refused_keywords_leave_new_membership :
    (updateEmail plainSurroundings oneOfTwo 1 1 7
        (some [(ascii "mailboxIds/2", .bool true), (ascii "keywords", .other)])).outcome =
      .refused (.invalid "keywords" none) ∧
    (messageState (updateEmail plainSurroundings oneOfTwo 1 1 7
        (some [(ascii "mailboxIds/2", .bool true), (ascii "keywords", .other)])).account 7).2.1.map
          Prod.fst = [1, 2] ∧
    (messageState oneOfTwo 7).2.1.map Prod.fst = [1] := by
  refine ⟨by decide +kernel, by decide +kernel, by decide +kernel⟩

/-- A mailbox that cannot be read is refused before anything is done. -/
theorem refused_mailbox_leaves_message :
    messageState (updateEmail plainSurroundings oneOfTwo 1 1 7
        (some [(ascii "mailboxIds/x", .bool true), (ascii "keywords/$seen", .bool true)])).account 7 =
      messageState oneOfTwo 7 := by
  refine refused_update_changes_nothing plainSurroundings oneOfTwo 1 1 7 _
    { type := .invalidProperties, properties := [ascii "mailboxIds/x"]
      description := some "unparseable mailboxId in patch key" }
    one_of_two_numbered one_of_two_housed ?_ (by decide +kernel)
  intro loaded patch _ given
  cases given
  have unneeded : needsBodyRebuild
    [(ascii "mailboxIds/x", .bool true), (ascii "keywords/$seen", .bool true)] = false := by
    decide +kernel
  have refusal : FilingRefused plainSurroundings oneOfTwo 1 1 loaded
      [(ascii "mailboxIds/x", .bool true), (ascii "keywords/$seen", .bool true)] := by
    intro desired wanted
    cases wanted
  refine ⟨fun needed => ?_, fun _ unrefused => absurd refusal unrefused,
    fun _ unrefused => absurd refusal unrefused⟩
  rw [unneeded] at needed
  cases needed

end Herold.Jmap

import Herold.Store.Removal

/-!
# The quota accounts

The bytes of a message are charged to the quota principal of the message's own
principal. They are given back by four transactions, and not all of them charge
the same account: an expunge and the deletion of a mailbox take the account of the
owner of the mailbox. This module follows the accounts through every transaction.
-/

namespace Herold.Store

open Herold.Go Herold.Machine

namespace Tables

def charge (tables : Tables) (row : MessageRow) : Option PrincipalID :=
  (tables.quotaPrincipalID row.principalID).toOption

def bytesOf (charge : MessageRow → Option PrincipalID) (account : PrincipalID)
    (rows : List MessageRow) : Nat :=
  ((rows.filter fun row => charge row = some account).map MessageRow.size).sum

def chargedBytes (tables : Tables) (account : PrincipalID) : Nat :=
  bytesOf tables.charge account tables.messages

structure Balanced (tables : Tables) : Prop where
  ids : tables.messages.Pairwise fun left right => left.id ≠ right.id
  fresh : ∀ row ∈ tables.messages, row.id < tables.nextMessageID
  used : ∀ principal ∈ tables.principals, principal.usedBytes = tables.chargedBytes principal.id

section Bytes

variable (charge : MessageRow → Option PrincipalID) (account : PrincipalID)

theorem bytes_append (left right : List MessageRow) :
    bytesOf charge account (left ++ right) = bytesOf charge account left +
      bytesOf charge account right := by
  unfold bytesOf
  rw [List.filter_append, List.map_append, List.sum_append]

theorem bytes_cons (row : MessageRow) (rows : List MessageRow) :
    bytesOf charge account (row :: rows) =
      (if charge row = some account then row.size else 0) + bytesOf charge account rows := by
  unfold bytesOf
  by_cases here : charge row = some account
  · rw [if_pos here, List.filter_cons_of_pos (by simpa using here), List.map_cons, List.sum_cons]
  · rw [if_neg here, List.filter_cons_of_neg (by simpa using here), Nat.zero_add]

theorem bytes_split (gone : MessageRow → Bool) (rows : List MessageRow) :
    bytesOf charge account (rows.filter gone) +
      bytesOf charge account (rows.filter fun row => !gone row) =
      bytesOf charge account rows := by
  induction rows with
  | nil => rfl
  | cons row rows ih =>
    cases here : gone row with
    | true =>
      rw [List.filter_cons_of_pos (by simpa using here), List.filter_cons_of_neg (by simp [here]),
        bytes_cons, bytes_cons, Nat.add_assoc, ih]
    | false =>
      rw [List.filter_cons_of_neg (by simp [here]), List.filter_cons_of_pos (by simp [here]),
        bytes_cons, bytes_cons, ← ih]
      omega

theorem bytes_same_charge (payer : PrincipalID) (rows : List MessageRow)
    (paid : ∀ row ∈ rows, charge row = some payer) :
    bytesOf charge account rows = if payer = account then (rows.map MessageRow.size).sum else 0 := by
  induction rows with
  | nil =>
    split
    · rfl
    · rfl
  | cons row rows ih =>
    rw [bytes_cons, ih fun other member => paid other (List.mem_cons_of_mem _ member),
      paid row List.mem_cons_self]
    by_cases same : payer = account
    · simp [same]
    · simp [same]

end Bytes

theorem credit_find (tables : Tables) (account principal : PrincipalID) (bytes : Int) :
    (tables.credit account bytes).principal? principal =
      (tables.principal? principal).map fun row =>
        if row.id = account then { row with usedBytes := row.usedBytes + bytes } else row := by
  unfold principal? credit
  dsimp only
  rw [List.find?_map]
  congr 2
  funext row
  simp only [Function.comp]
  split
  · rfl
  · rfl

theorem credit_quota (tables : Tables) (account principal : PrincipalID) (bytes : Int) :
    (tables.credit account bytes).quotaPrincipalID principal = tables.quotaPrincipalID principal := by
  unfold quotaPrincipalID
  rw [credit_find]
  cases tables.principal? principal with
  | none => rfl
  | some row =>
    show Except.ok _ = Except.ok _
    dsimp only [Option.map_some]
    split
    · rfl
    · rfl

theorem quota_of_principals {before after : Tables} (same : after.principals = before.principals)
    (principal : PrincipalID) :
      after.quotaPrincipalID principal = before.quotaPrincipalID principal := by
  unfold quotaPrincipalID principal?
  rw [same]

theorem charge_credited {before after : Tables} {account : PrincipalID} {bytes : Int}
    (credited : after.principals = (before.credit account bytes).principals) :
      after.charge = before.charge := by
  funext row
  unfold charge
  rw [quota_of_principals credited, credit_quota]

theorem balanced_credit {before after : Tables} (account : PrincipalID) (bytes : Int)
    (balanced : Balanced before)
    (ids : after.messages.Pairwise fun left right => left.id ≠ right.id)
    (fresh : ∀ row ∈ after.messages, row.id < after.nextMessageID)
    (credited : after.principals = (before.credit account bytes).principals)
    (gained : ∀ other, (bytesOf before.charge other after.messages : Int) =
      bytesOf before.charge other before.messages + if account = other then bytes else 0) :
    Balanced after := by
  refine ⟨ids, fresh, ?_⟩
  intro principal member
  rw [credited] at member
  obtain ⟨old, oldMember, made⟩ := List.mem_map.mp member
  unfold chargedBytes
  rw [charge_credited credited, gained]
  have was := balanced.used old oldMember
  unfold chargedBytes at was
  by_cases same : old.id = account
  · rw [if_pos same] at made
    subst made
    simp only [same, if_true, was]
  · rw [if_neg same] at made
    subst made
    rw [if_neg (Ne.symm same), was, Int.add_zero]

structure SameAccounts (before after : Tables) : Prop where
  principals : after.principals = before.principals
  messages : after.messages = before.messages
  nextMessageID : after.nextMessageID = before.nextMessageID

theorem same_accounts_refl (tables : Tables) : SameAccounts tables tables := ⟨rfl, rfl, rfl⟩

theorem same_accounts_trans {first second third : Tables} (earlier : SameAccounts first second)
    (later : SameAccounts second third) : SameAccounts first third where
  principals := later.principals.trans earlier.principals
  messages := later.messages.trans earlier.messages
  nextMessageID := later.nextMessageID.trans earlier.nextMessageID

theorem handed_accounts {message : MessageID} {before after : Tables}
    (handed : Handed message before after) :
    SameAccounts before after := ⟨handed.principals, handed.messages, handed.nextMessageID⟩

theorem balanced_same {before after : Tables} (balanced : Balanced before)
    (same : SameAccounts before after) : Balanced after := by
  have charges : after.charge = before.charge := by
    funext row
    unfold charge
    rw [quota_of_principals same.principals]
  refine ⟨?_, ?_, ?_⟩
  · rw [same.messages]
    exact balanced.ids
  · rw [same.messages, same.nextMessageID]
    exact balanced.fresh
  · unfold chargedBytes
    rw [same.principals, charges, same.messages]
    exact balanced.used

theorem balanced_logged {tables : Tables} (balanced : Balanced tables) (principal : PrincipalID)
    (kind : EntityKind) (entity parent : Nat) (op : ChangeOp) (cause : ChangeCause) :
    Balanced (tables.appendChange principal kind entity parent op cause) :=
  balanced_same balanced ⟨rfl, rfl, rfl⟩

section

variable {principal : PrincipalID} {message : MessageID} {tables after : Tables}

section

variable {message : MessageID} {mailbox : MailboxID}

theorem delete_membership_accounts {handOver : Bool}
    (ran : tables.deleteMembership message mailbox handOver = .ok after) :
    SameAccounts tables after := by
  have handed := handed_accounts (delete_membership_handed ran)
  exact ⟨handed.principals, handed.messages, handed.nextMessageID⟩

theorem insert_member_accounts {tables filed : Tables} {row : Membership}
    (inserted : tables.insertMember row = .ok filed) : SameAccounts tables filed := by
  unfold insertMember at inserted
  split at inserted
  · cases inserted
  · cases inserted
    exact ⟨rfl, rfl, rfl⟩

theorem replay_into_accounts (ran : tables.replayInto message mailbox = .ok after) :
    SameAccounts tables after := by
  unfold replayInto at ran
  split at ran
  · cases ran
    exact same_accounts_refl _
  · split at ran
    · cases ran
      exact same_accounts_refl _
    · obtain ⟨filed, inserted, ended⟩ := bind_ok ran
      cases ended
      exact same_accounts_trans (insert_member_accounts inserted) ⟨rfl, rfl, rfl⟩

theorem replay_all_accounts {mailboxes : List MailboxID} {tables after : Tables}
    (ran : replayAll message mailboxes tables = .ok after) : SameAccounts tables after := by
  induction mailboxes generalizing tables with
  | nil =>
    cases ran
    exact same_accounts_refl _
  | cons mailbox mailboxes ih =>
    obtain ⟨middle, first, later⟩ := bind_ok ran
    exact same_accounts_trans (replay_into_accounts first) (ih later)

theorem replay_pretrash_accounts (ran : tables.replayPretrash message = .ok after) :
    SameAccounts tables after := by
  obtain ⟨replayed, first, ended⟩ := bind_ok ran
  cases ended
  exact same_accounts_trans (replay_all_accounts first) ⟨rfl, rfl, rfl⟩

theorem restored_accounts {left restored : Tables} {message : MessageID} {trash : Bool}
    (ran : (if trash then left.replayPretrash message else .ok left) = .ok restored) :
    SameAccounts left restored := by
  cases trash with
  | true => exact replay_pretrash_accounts ran
  | false =>
    cases ran
    exact same_accounts_refl _

theorem file_targets_accounts {targets : List MailStore.Target} {tables after : Tables}
    (ran : fileTargets principal message targets tables = .ok after) : SameAccounts tables after := by
  induction targets generalizing tables with
  | nil =>
    cases ran
    exact same_accounts_refl _
  | cons target targets ih =>
    obtain ⟨middle, first, later⟩ := bind_ok ran
    refine same_accounts_trans ?_ (ih later)
    obtain ⟨box, _, placed⟩ := bind_ok first
    obtain ⟨filed, inserted, ended⟩ := bind_ok placed
    cases ended
    exact same_accounts_trans (insert_member_accounts inserted) ⟨rfl, rfl, rfl⟩

theorem touch_members_accounts {mailboxes : List MailboxID} {tables after : Tables}
    (ran : touchMembers principal message mailboxes tables = .ok after) :
      SameAccounts tables after := by
  induction mailboxes generalizing tables with
  | nil =>
    cases ran
    exact same_accounts_refl _
  | cons mailbox mailboxes ih =>
    obtain ⟨middle, first, later⟩ := bind_ok ran
    refine same_accounts_trans ?_ (ih later)
    obtain ⟨box, _, ended⟩ := bind_ok first
    cases ended
    exact ⟨rfl, rfl, rfl⟩

theorem leave_trash_accounts {trash : List MailboxID}
    {tables after : Tables} (ran : leaveTrash principal message trash tables = .ok after) :
    SameAccounts tables after := by
  induction trash generalizing tables with
  | nil =>
    cases ran
    exact same_accounts_refl _
  | cons place trash ih =>
    obtain ⟨middle, first, later⟩ := bind_ok ran
    refine same_accounts_trans (delete_membership_accounts first) (same_accounts_trans ?_ (ih later))
    exact ⟨rfl, rfl, rfl⟩

theorem snapped_accounts (tables : Tables) (message : MessageID) (mailbox : MailboxID) (trash : Bool) :
    SameAccounts tables (if trash then tables.snapshotPretrash message mailbox else tables) := by
  cases trash with
  | true => exact ⟨rfl, rfl, rfl⟩
  | false => exact same_accounts_refl tables

theorem add_message_accounts (ran : tables.addMessageToMailbox message mailbox = .ok after) :
    SameAccounts tables after := by
  obtain ⟨row, _, later⟩ := bind_ok ran
  obtain ⟨_, _, later⟩ := bind_ok later
  obtain ⟨box, _, later⟩ := bind_ok later
  obtain ⟨filed, inserted, ended⟩ := bind_ok later
  refine same_accounts_trans (snapped_accounts tables message mailbox box.trash)
    (same_accounts_trans (insert_member_accounts inserted) ?_)
  split at ended
  · cases ended
    exact ⟨rfl, rfl, rfl⟩
  · unfold removeTrashAndReplay at ended
    dsimp only at ended
    split at ended
    · cases ended
      exact ⟨rfl, rfl, rfl⟩
    · obtain ⟨left, first, replayed⟩ := bind_ok ended
      have tail := same_accounts_trans (leave_trash_accounts first) (replay_pretrash_accounts replayed)
      exact ⟨tail.principals, tail.messages, tail.nextMessageID⟩

theorem move_accounts {source target : MailboxID}
    (ran : tables.moveMessage message source target = .ok after) : SameAccounts tables after := by
  obtain ⟨row, _, later⟩ := bind_ok ran
  obtain ⟨box, _, later⟩ := bind_ok later
  obtain ⟨filed, inserted, later⟩ := bind_ok later
  obtain ⟨left, deleted, later⟩ := bind_ok later
  obtain ⟨restored, replayed, ended⟩ := bind_ok later
  cases ended
  refine same_accounts_trans (snapped_accounts tables message target box.trash)
    (same_accounts_trans (insert_member_accounts inserted) ?_)
  refine same_accounts_trans (delete_membership_accounts deleted)
    (same_accounts_trans (restored_accounts replayed) ?_)
  exact ⟨rfl, rfl, rfl⟩

theorem update_flags_accounts {set clear : MessageFlags} {keywordAdd keywordClear : List Bytes}
    {unchangedSince : Nat}
    (ran : tables.updateMessageFlags message mailbox set clear keywordAdd keywordClear unchangedSince =
      .ok after) : SameAccounts tables after := by
  obtain ⟨row, _, later⟩ := bind_ok ran
  obtain ⟨_, _, later⟩ := bind_ok later
  obtain ⟨box, _, ended⟩ := bind_ok later
  cases ended
  exact ⟨rfl, rfl, rfl⟩

theorem record_arrival_accounts (ran : tables.recordMailboxArrival message mailbox = .ok after) :
    SameAccounts tables after := by
  obtain ⟨row, _, later⟩ := bind_ok ran
  obtain ⟨_, _, later⟩ := bind_ok later
  obtain ⟨box, _, ended⟩ := bind_ok later
  cases ended
  exact ⟨rfl, rfl, rfl⟩

end

end

theorem log_merged_accounts (tables : Tables) (principal : PrincipalID) (merged : List MessageID) :
    SameAccounts tables (tables.logMerged principal merged) := by
  unfold logMerged
  generalize (merged.flatMap fun message =>
    (tables.members.filter fun row => row.messageID = message).map
      fun row => (message, row.mailboxID)) = keys
  induction keys generalizing tables with
  | nil => exact same_accounts_refl tables
  | cons key keys ih =>
    have tail := ih (tables.appendEmailChange principal key.1 key.2 .updated)
    exact ⟨tail.principals, tail.messages, tail.nextMessageID⟩

section

variable {tables after : Tables}

theorem insert_message_balanced {message : NewMessage}
    (ran : tables.insertMessage message = .ok after) (balanced : Balanced tables) : Balanced after := by
  obtain ⟨principal, _, later⟩ := bind_ok ran
  obtain ⟨charged, quota, later⟩ := bind_ok later
  obtain ⟨account, _, later⟩ := bind_ok later
  obtain ⟨_, _, later⟩ := bind_ok later
  obtain ⟨filed, targets, ended⟩ := bind_ok later
  cases ended
  refine balanced_same ?_ (log_merged_accounts _ principal message.merged)
  have same := file_targets_accounts targets
  have rows : filed.messages = tables.messages ++
      [⟨tables.nextMessageID, principal, message.blob, message.size⟩] := same.messages
  have next : filed.nextMessageID = tables.nextMessageID + 1 := same.nextMessageID
  have paid : tables.charge ⟨tables.nextMessageID, principal, message.blob, message.size⟩ =
    some charged := by
    show (tables.quotaPrincipalID principal).toOption = some charged
    rw [quota]
    rfl
  refine balanced_credit charged message.size balanced ?_ ?_ ?_ ?_
  · show filed.messages.Pairwise _
    rw [rows, List.pairwise_append]
    refine ⟨balanced.ids, List.pairwise_singleton _ _, ?_⟩
    intro old member new newMember
    rw [List.mem_singleton.mp newMember]
    exact Nat.ne_of_lt (balanced.fresh old member)
  · show ∀ row ∈ filed.messages, row.id < filed.nextMessageID
    rw [rows, next]
    intro row member
    rcases List.mem_append.mp member with old | new
    · exact Nat.lt_succ_of_lt (balanced.fresh row old)
    · rw [List.mem_singleton.mp new]
      exact Nat.lt_succ_self _
  · show (filed.credit charged message.size).principals =
      (tables.credit charged message.size).principals
    unfold credit
    dsimp only
    rw [same.principals]
  · intro other
    show (bytesOf tables.charge other filed.messages : Int) = _
    rw [rows, bytes_append, bytes_cons, paid]
    by_cases here : charged = other
    · simp [here, bytesOf]
    · simp [here, bytesOf]

theorem insert_all_balanced {messages : List NewMessage} {tables after : Tables}
    (ran : insertAll messages tables = .ok after) (balanced : Balanced tables) : Balanced after := by
  induction messages generalizing tables with
  | nil =>
    cases ran
    exact balanced
  | cons message messages ih =>
    obtain ⟨middle, first, later⟩ := bind_ok ran
    exact ih later (insert_message_balanced first balanced)

theorem message_found {tables : Tables} {id : MessageID} {row : MessageRow}
    (found : tables.message? id = some row) : row ∈ tables.messages ∧ row.id = id :=
  ⟨List.mem_of_find?_eq_some found, by simpa using List.find?_some found⟩

theorem only_message {rows : List MessageRow} {row : MessageRow}
    (ids : rows.Pairwise fun left right => left.id ≠ right.id) (member : row ∈ rows) :
    (rows.filter fun other => decide (other.id = row.id)) = [row] := by
  induction rows with
  | nil => cases member
  | cons first others ih =>
    obtain ⟨apart, distinct⟩ := List.pairwise_cons.mp ids
    rcases List.mem_cons.mp member with rfl | later
    · rw [List.filter_cons_of_pos (by simp), List.filter_eq_nil_iff.mpr]
      intro other otherMember
      simpa using Ne.symm (apart other otherMember)
    · rw [List.filter_cons_of_neg (by simpa using apart row later)]
      exact ih distinct later

theorem bytes_rewritten {charge : MessageRow → Option PrincipalID} {payer : PrincipalID}
    {rows : List MessageRow} {row : MessageRow} {rewrite : MessageRow → MessageRow}
    (ids : rows.Pairwise fun left right => left.id ≠ right.id) (member : row ∈ rows)
    (paid : charge (rewrite row) = some payer) (was : charge row = some payer)
    (others : ∀ other, other.id ≠ row.id → rewrite other = other) (account : PrincipalID) :
    (bytesOf charge account (rows.map rewrite) : Int) =
      bytesOf charge account rows + if payer = account then ((rewrite row).size : Int) - row.size
        else 0 := by
  induction rows with
  | nil => cases member
  | cons first rest ih =>
    obtain ⟨apart, distinct⟩ := List.pairwise_cons.mp ids
    rw [List.map_cons, bytes_cons, bytes_cons]
    rcases List.mem_cons.mp member with rfl | later
    · have same : rest.map rewrite = rest := by
        refine (List.map_congr_left fun other otherMember => ?_).trans (List.map_id rest)
        exact others other (Ne.symm (apart other otherMember))
      rw [same, paid, was]
      by_cases here : payer = account
      · simp only [here, if_true]
        omega
      · simp [here]
    · rw [others first (apart row later)]
      push_cast
      rw [ih distinct later]
      omega

theorem replace_body_balanced {id : MessageID} {blob : BlobName} {size : Nat}
    (ran : tables.replaceMessageBody id blob size = .ok after) (balanced : Balanced tables) :
    Balanced after := by
  obtain ⟨row, present, later⟩ := bind_ok ran
  obtain ⟨charged, quota, later⟩ := bind_ok later
  obtain ⟨_, _, touched⟩ := bind_ok later
  refine balanced_same ?_ (touch_members_accounts touched)
  obtain ⟨rowMember, rowId⟩ := message_found (require_ok present)
  set rewrite : MessageRow → MessageRow := fun other =>
    if other.id = id then { other with blob, size } else other
    with rewriteIs
  have keptId : ∀ other, (rewrite other).id = other.id := by
    intro other
    rw [rewriteIs]
    dsimp only
    split
    · rfl
    · rfl
  have accounted : ∀ counted : Tables, counted.messages = tables.messages.map rewrite →
      counted.nextMessageID = tables.nextMessageID →
      counted.principals = (tables.credit charged ((size : Int) - row.size)).principals →
      Balanced counted := by
    intro counted rows next principals
    refine balanced_credit charged _ balanced ?_ ?_ principals ?_
    · rw [rows]
      refine List.Pairwise.map _ ?_ balanced.ids
      intro left right differ
      rwa [keptId, keptId]
    · rw [rows, next]
      intro other member
      obtain ⟨old, oldMember, rfl⟩ := List.mem_map.mp member
      rw [keptId]
      exact balanced.fresh old oldMember
    · intro other
      have sameCharge : tables.charge (rewrite row) = tables.charge row := by
        rw [rewriteIs]
        dsimp only
        rw [if_pos rowId]
        rfl
      have paid : tables.charge row = some charged := by
        show (tables.quotaPrincipalID row.principalID).toOption = some charged
        rw [quota]
        rfl
      have newSize : (rewrite row).size = size := by
        rw [rewriteIs]
        dsimp only
        rw [if_pos rowId]
      rw [rows, bytes_rewritten balanced.ids rowMember (sameCharge.trans paid) paid ?_ other, newSize]
      intro another differ
      exact if_neg fun same => differ (same.trans rowId.symm)
  split
  · exact accounted _ rfl rfl rfl
  · exact accounted _ rfl rfl rfl

/-- A message that loses its last membership gives its bytes back; the account must
be the one it was charged to. -/
theorem release_balanced {tables : Tables} {message : MessageID} {charged : PrincipalID}
    (balanced : Balanced tables)
    (fair : ∀ row ∈ tables.messages, row.id = message →
      (∀ member ∈ tables.members, member.messageID ≠ message) → tables.charge row = some charged) :
    Balanced (tables.releaseIfUnfiled message charged) := by
  unfold releaseIfUnfiled
  split
  · exact balanced
  · rename_i unfiled
    have alone : ∀ member ∈ tables.members, member.messageID ≠ message := by
      simpa using unfiled
    dsimp only
    split
    · rename_i missing
      have nothing : tables.messages.filter (fun row => !decide (row.id = message)) =
        tables.messages := by
        refine List.filter_eq_self.mpr fun row member => ?_
        have absent := List.find?_eq_none.mp missing row member
        simpa using absent
      exact balanced_same balanced ⟨rfl, nothing, rfl⟩
    · rename_i row found
      obtain ⟨rowMember, rowId⟩ := message_found found
      have paid := fair row rowMember rowId alone
      refine balanced_credit charged (-(row.size : Int)) balanced ?_ ?_ rfl ?_
      · exact balanced.ids.sublist List.filter_sublist
      · exact fun other member => balanced.fresh other (List.mem_filter.mp member).1
      · intro other
        have split := bytes_split tables.charge other (fun other => decide (other.id = message))
          tables.messages
        have gone : (tables.messages.filter fun other => decide (other.id = message)) = [row] := by
          rw [← rowId]
          exact only_message balanced.ids rowMember
        rw [gone, bytes_same_charge tables.charge other charged [row] (by simpa using paid)] at split
        show (bytesOf tables.charge other
          (tables.messages.filter fun row => !decide (row.id = message)) :
          Int) = _
        by_cases here : charged = other
        · simp only [here, if_true, List.map_cons, List.map_nil, List.sum_cons, List.sum_nil] at split ⊢
          omega
        · simp only [here, if_false] at split ⊢
          omega

theorem remove_message_balanced {message : MessageID} {mailbox : MailboxID}
    (ran : tables.removeMessageFromMailbox message mailbox = .ok after) (balanced : Balanced tables) :
    Balanced after := by
  obtain ⟨_, _, later⟩ := bind_ok ran
  obtain ⟨row, present, later⟩ := bind_ok later
  obtain ⟨left, deleted, later⟩ := bind_ok later
  obtain ⟨restored, replayed, later⟩ := bind_ok later
  obtain ⟨charged, quota, ended⟩ := bind_ok later
  cases ended
  obtain ⟨rowMember, rowId⟩ := message_found (require_ok present)
  have same := same_accounts_trans (delete_membership_accounts deleted) (restored_accounts replayed)
  refine balanced_logged ?_ _ _ _ _ _ _
  refine release_balanced (balanced_same balanced
    ⟨same.principals, same.messages, same.nextMessageID⟩) ?_
  intro other otherMember otherId _
  have otherRow : other ∈ tables.messages := by
    rw [← same.messages]
    exact otherMember
  have equal : other = row := by
    have single := only_message balanced.ids rowMember
    have found : other ∈ tables.messages.filter fun other => decide (other.id = row.id) :=
      List.mem_filter.mpr ⟨otherRow, by simpa using otherId.trans rowId.symm⟩
    rw [single] at found
    exact List.mem_singleton.mp found
  show (restored.quotaPrincipalID other.principalID).toOption = _
  rw [quota_of_principals same.principals, equal, quota]
  rfl

theorem delete_mailbox_balanced {mailbox : MailboxID} {box : Mailbox}
    (ran : tables.deleteMailbox mailbox = .ok after) (balanced : Balanced tables)
    (found : tables.mailbox? mailbox = some box)
    (paid : ∀ sole ∈ tables.soleMessages mailbox,
      tables.quotaPrincipalID sole.principalID = tables.quotaPrincipalID box.principalID)
    (only : ∀ row ∈ tables.messages, tables.doomed mailbox (tables.soleMessages mailbox) row = true →
      row ∈ tables.soleMessages mailbox) : Balanced after := by
  obtain ⟨messages, _, _, owner, charged, ownerFound, quota, principals, next⟩ :=
    delete_mailbox_amounts balanced.ids ran
  have sameBox : owner = box := Option.some.inj (ownerFound.symm.trans found)
  subst sameBox
  have doomed : tables.messages.filter (tables.doomed mailbox (tables.soleMessages mailbox)) =
      tables.soleMessages mailbox := by
    refine List.filter_congr fun row member => ?_
    rw [Bool.eq_iff_iff]
    constructor
    · intro gone
      exact (List.mem_filter.mp (only row member gone)).2
    · intro sole
      have listed : row ∈ tables.soleMessages mailbox := List.mem_filter.mpr ⟨member, sole⟩
      have place : mailbox ∈ (tables.members.filter fun filing =>
        decide (filing.messageID = row.id)).map
          Membership.mailboxID := by
        rw [of_decide_eq_true sole]
        exact List.mem_singleton_self mailbox
      obtain ⟨filing, filed, here⟩ := List.mem_map.mp place
      obtain ⟨filingMember, filingHere⟩ := List.mem_filter.mp filed
      simp only [Tables.doomed, Bool.and_eq_true, List.any_eq_true, decide_eq_true_eq]
      exact ⟨⟨row, listed, rfl⟩, filing, filingMember, by simpa using filingHere, here⟩
  refine balanced_credit charged _ balanced ?_ ?_ principals ?_
  · rw [messages]
    exact balanced.ids.sublist List.filter_sublist
  · rw [messages, next]
    exact fun row member => balanced.fresh row (List.mem_filter.mp member).1
  · intro other
    have split := bytes_split tables.charge other (tables.doomed mailbox (tables.soleMessages mailbox))
      tables.messages
    have charges : ∀ sole ∈ tables.soleMessages mailbox, tables.charge sole = some charged := by
      intro sole member
      unfold charge
      rw [paid sole member, quota]
      rfl
    rw [doomed, bytes_same_charge tables.charge other charged _ charges] at split
    rw [messages]
    by_cases here : charged = other
    · simp only [here, if_true] at split ⊢
      omega
    · simp only [here, if_false] at split ⊢
      omega

/-- A message that is in the mailbox alone is charged to this account. -/
def Payer (tables : Tables) (mailbox : MailboxID) (charged : PrincipalID)
    (message : MessageID) : Prop :=
  ∀ row ∈ tables.messages, row.id = message →
    (∀ filing ∈ tables.members, filing.messageID = message → filing.mailboxID = mailbox) →
      tables.charge row = some charged

theorem release_charge (tables : Tables) (message : MessageID) (charged : PrincipalID) :
    (tables.releaseIfUnfiled message charged).charge = tables.charge := by
  unfold releaseIfUnfiled
  split
  · rfl
  · dsimp only
    split
    · rfl
    · exact charge_credited rfl

theorem release_rows (tables : Tables) (message : MessageID) (charged : PrincipalID) :
    (∀ row ∈ (tables.releaseIfUnfiled message charged).messages, row ∈ tables.messages) ∧
      (∀ row ∈ (tables.releaseIfUnfiled message charged).members, row ∈ tables.members) ∧
      ∀ row ∈ tables.members, row.messageID ≠ message →
        row ∈ (tables.releaseIfUnfiled message charged).members := by
  have kept : ∀ row ∈ tables.members, row.messageID ≠ message →
      row ∈ (tables.deleteMessages fun row => decide (row.id = message)).members := by
    intro row member differ
    refine List.mem_filter.mpr ⟨member, ?_⟩
    simp only [Bool.not_eq_true', List.contains_eq_mem, decide_eq_false_iff_not, List.mem_map,
      List.mem_filter, decide_eq_true_eq, not_exists, not_and]
    intro other here same
    exact differ (same.symm.trans here.2)
  unfold releaseIfUnfiled
  split
  · exact ⟨fun _ member => member, fun _ member => member, fun _ member _ => member⟩
  · dsimp only
    split
    · exact ⟨fun _ member => (List.mem_filter.mp member).1, fun _ member =>
        (List.mem_filter.mp member).1, kept⟩
    · exact ⟨fun _ member => (List.mem_filter.mp member).1, fun _ member =>
        (List.mem_filter.mp member).1, kept⟩

theorem expunge_loop_balanced {owner charged : PrincipalID} {mailbox : MailboxID}
    {messages : List MessageID} {highest removed : Nat} {tables : Tables} {result : Nat × Tables}
    (ran : expungeLoop owner charged mailbox messages highest removed tables = .ok result)
    (balanced : Balanced tables)
    (fair : ∀ message ∈ messages, (∃ filing ∈ tables.members, filing.messageID = message ∧
      filing.mailboxID = mailbox) → Payer tables mailbox charged message) : Balanced result.2 := by
  induction messages generalizing highest removed tables with
  | nil =>
    cases ran
    exact balanced
  | cons message messages ih =>
    have fairLater := fun other member => fair other (List.mem_cons_of_mem message member)
    unfold expungeLoop at ran
    split at ran
    · exact ih ran balanced fairLater
    · rename_i filed
      obtain ⟨deleted, first, later⟩ := bind_ok ran
      have handed := delete_membership_handed first
      have accounts := delete_membership_accounts first
      obtain ⟨row, found⟩ := Option.isSome_iff_exists.mp
        (Option.isSome_iff_ne_none.mpr (by simpa using filed))
      obtain ⟨rowMember, rowMessage, rowPlace⟩ := membership_found found
      have sameCharge : deleted.charge = tables.charge := by
        funext other
        unfold charge
        rw [quota_of_principals accounts.principals]
      obtain ⟨messagesKept, membersKept, othersKept⟩ := release_rows deleted message charged
      have released : Balanced (deleted.releaseIfUnfiled message charged) := by
        refine release_balanced (balanced_same balanced accounts) ?_
        intro other otherMember otherId unfiled
        rw [accounts.messages] at otherMember
        rw [sameCharge]
        refine fair message List.mem_cons_self ⟨row, rowMember, rowMessage, rowPlace⟩ other
          otherMember otherId ?_
        -- a filing elsewhere would still be there after the deletion
        intro filing filingMember here
        by_contra away
        obtain ⟨new, newMember, reminded⟩ := forall_across_left handed.members
          (List.mem_filter.mpr ⟨filingMember, by simpa using Or.inr away⟩)
        exact unfiled new newMember ((reminded_key reminded).1.trans here)
      refine ih later (balanced_same released ⟨rfl, rfl, rfl⟩) ?_
      rintro other otherMember ⟨filing, filingMember, here, place⟩
      obtain ⟨old, oldMember, reminded⟩ :=
        forall_across handed.members (membersKept filing filingMember)
      obtain ⟨sameMessage, samePlace, _⟩ := reminded_key reminded
      obtain ⟨oldRow, differs⟩ := List.mem_filter.mp oldMember
      have apart : other ≠ message := by
        intro same
        simp [sameMessage.symm.trans (here.trans same), samePlace.symm.trans place] at differs
      have payer := fairLater other otherMember
        ⟨old, oldRow, sameMessage.symm.trans here, samePlace.symm.trans place⟩
      intro otherRow otherRowMember otherId only
      show (deleted.releaseIfUnfiled message charged).charge otherRow = _
      rw [release_charge, sameCharge]
      refine payer otherRow ?_ otherId ?_
      · rw [← accounts.messages]
        exact messagesKept otherRow otherRowMember
      · intro filing' filingMember' here'
        have stays : filing' ∈ (tables.deleteMember message mailbox).members :=
          List.mem_filter.mpr ⟨filingMember', by simp [here', apart]⟩
        obtain ⟨new, newMember, reminded'⟩ := forall_across_left handed.members stays
        obtain ⟨newMessage, newPlace, _⟩ := reminded_key reminded'
        rw [← newPlace]
        refine only new (othersKept new newMember ?_) (newMessage.trans here')
        rw [newMessage, here']
        exact apart

/-- A transaction that gives bytes back gives them to the account they were charged
to, and gives back those of every row it deletes. -/
def SettlesFairly (tables : Tables) : Operation → Prop
  | .write (.expunge mailbox messages) =>
    ∀ box, tables.mailbox? mailbox = some box → ∀ row ∈ tables.messages, row.id ∈ messages →
      (∀ filing ∈ tables.members, filing.messageID = row.id → filing.mailboxID = mailbox) →
        tables.quotaPrincipalID row.principalID = tables.quotaPrincipalID box.principalID
  | .deleteMailbox mailbox =>
    ∀ box, tables.mailbox? mailbox = some box →
      (∀ sole ∈ tables.soleMessages mailbox,
        tables.quotaPrincipalID sole.principalID = tables.quotaPrincipalID box.principalID) ∧
      ∀ row ∈ tables.messages, tables.doomed mailbox (tables.soleMessages mailbox) row = true →
        row ∈ tables.soleMessages mailbox
  | _ => True

theorem expunge_balanced {mailbox : MailboxID} {messages : List MessageID}
    (ran : tables.expungeMessages mailbox messages = .ok after) (balanced : Balanced tables)
    (fair : SettlesFairly tables (.write (.expunge mailbox messages))) : Balanced after := by
  unfold expungeMessages at ran
  split at ran
  · cases ran
    exact balanced
  · obtain ⟨box, housed, later⟩ := bind_ok ran
    obtain ⟨charged, quota, later⟩ := bind_ok later
    obtain ⟨⟨removed, left⟩, looped, ended⟩ := bind_ok later
    dsimp only at ended
    split at ended
    · cases ended
    · cases ended
      refine expunge_loop_balanced looped balanced ?_
      intro message member _ row rowMember rowId only
      unfold charge
      rw [fair box (require_ok housed) row rowMember (rowId ▸ member) (rowId ▸ only), quota]
      rfl

theorem operation_balanced {operation : Operation}
    (ran : operation.apply tables = .ok after) (balanced : Balanced tables)
    (fair : SettlesFairly tables operation) : Balanced after := by
  cases operation with
  | deleteMailbox mailbox =>
    obtain ⟨box, housed, _⟩ := bind_ok (show tables.deleteMailbox mailbox = .ok after from ran)
    obtain ⟨paid, only⟩ := fair box (require_ok housed)
    exact delete_mailbox_balanced ran balanced (require_ok housed) paid only
  | write change =>
    cases change with
    | insert messages =>
      have inserted : tables.insertMessages messages = .ok after := ran
      unfold insertMessages at inserted
      split at inserted
      · cases inserted
      · exact insert_all_balanced inserted balanced
    | replaceBody message blob size => exact replace_body_balanced ran balanced
    | add message mailbox => exact balanced_same balanced (add_message_accounts ran)
    | remove message mailbox => exact remove_message_balanced ran balanced
    | move message source target => exact balanced_same balanced (move_accounts ran)
    | expunge mailbox messages => exact expunge_balanced ran balanced fair
    | updateFlags message mailbox set clear keywordAdd keywordClear unchangedSince =>
      exact balanced_same balanced (update_flags_accounts ran)
    | setSnooze message mailbox until? wake =>
      exact balanced_same balanced (handed_accounts (set_snooze_handed ran))
    | releaseSnooze message mailbox =>
      exact balanced_same balanced (handed_accounts (set_snooze_handed ran))
    | consolidateSnooze message =>
      exact balanced_same balanced (handed_accounts (transfer_snooze_handed ran))
    | recordArrival message mailbox => exact balanced_same balanced (record_arrival_accounts ran)

end

/-- In every run whose transactions settle fairly, every account holds the bytes of
the messages that are charged to it, and none is ever negative. -/
theorem accounts_stay_balanced (start final : Tables) (operations : List Operation)
    (balanced : Balanced start) (fair : Operation.machine.Meets SettlesFairly start operations)
    (ran : Operation.machine.execute start operations = some final) :
    ∀ principal ∈ final.principals,
      principal.usedBytes = final.chargedBytes principal.id ∧ 0 ≤ principal.usedBytes := by
  have reached : Balanced final := by
    refine Operation.machine.meets_keeps SettlesFairly Balanced ?_ operations start final
      balanced fair ran
    intro tables operation next before settles stepped
    cases stepped
    cases outcome : operation.apply tables with
    | ok after => exact operation_balanced outcome before settles
    | error _ => exact before
  intro principal member
  have used := reached.used principal member
  exact ⟨used, by rw [used]; exact Int.natCast_nonneg _⟩

def sharedMailbox : Tables where
  principals := [{ id := 1 }, { id := 2 }]
  mailboxes := [{ id := 1, principalID := 1, name := [97] }]

def appendedBy (principal : PrincipalID) : Operation :=
  .write (.insert [{ principalID := principal, blob := byteBlob 7, size := 5, targets :=
    [{ mailboxID := 1 }] }])

theorem shared_mailbox_balanced : Balanced sharedMailbox where
  ids := List.Pairwise.nil
  fresh := fun _ member => by cases member
  used := by decide

/-- The grantee appends five bytes and the owner expunges the message: the owner is
left with less than nothing, the grantee with bytes of no message. -/
theorem expunge_of_granted_append :
    ∃ final, Operation.machine.execute sharedMailbox [appendedBy 2, .write (.expunge 1 [1])] =
      some final ∧
      final.messages = [] ∧ final.principals.map Principal.usedBytes = [-5, 5] ∧
      ¬∀ principal ∈ final.principals,
        principal.usedBytes = final.chargedBytes principal.id ∧ 0 ≤ principal.usedBytes := by
  refine ⟨_, rfl, rfl, rfl, ?_⟩
  decide

theorem expunge_of_own_append :
    ∃ final, Operation.machine.execute sharedMailbox [appendedBy 1, .write (.expunge 1 [1])] =
      some final ∧
      ∀ principal ∈ final.principals,
        principal.usedBytes = final.chargedBytes principal.id ∧ 0 ≤ principal.usedBytes := by
  refine ⟨_, rfl, accounts_stay_balanced sharedMailbox _ [appendedBy 1, .write (.expunge 1 [1])]
    shared_mailbox_balanced ⟨trivial, ?_, trivial⟩ rfl⟩
  intro box found
  cases found
  decide

end Tables

end Herold.Store

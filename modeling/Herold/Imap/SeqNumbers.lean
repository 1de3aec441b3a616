import Herold.Imap.System
import Mathlib.Data.List.Forall2

/-!
# Sequence numbers on both sides

The client keeps a list of the messages it has been told of, each with its UID
where it has seen one. Server and client are in step when the two lists have the
same length and every UID the client knows stands at the place where the session
has it. Each response moves the client's list; the session's list moves when a
handler reloads it.
-/

namespace Herold.Imap

open Herold.Go Herold.Store Herold.Machine

abbrev Client := List (Option Nat)

def hear (client : Client) : Response → Client
  | .expunge 0 => client
  | .expunge (position + 1) => client.eraseIdx position
  | .vanished uids => client.filter fun entry => entry.all fun uid => uid ∉ uids
  | .existsCount count => client ++ List.replicate (count - client.length) none
  | .fetch seq (some uid) _ => client.set (seq - 1) (some uid)
  | _ => client

/-- The client's list is as long as the session's, and what it knows is right. -/
def InStep (client : Client) (uids : List Nat) : Prop :=
  client.length = uids.length ∧ ∀ pair ∈ client.zip uids, ∀ known ∈ pair.1, known = pair.2

instance (client : Client) (uids : List Nat) : Decidable (InStep client uids) :=
  inferInstanceAs (Decidable (_ ∧ _))

def Shows (entry : Option Nat) (uid : Nat) : Prop := ∀ known ∈ entry, known = uid

theorem in_step_iff (client : Client) (uids : List Nat) :
    InStep client uids ↔ List.Forall₂ Shows client uids := by
  rw [List.forall₂_iff_zip]
  constructor
  · rintro ⟨length, shows⟩
    exact ⟨length, fun member => shows _ member⟩
  · rintro ⟨length, shows⟩
    exact ⟨length, fun pair member => shows member⟩

section Positions

variable {Left Right : Type*}

section

variable (Related : Left → Right → Prop) (seqs : List Nat) (left : List Left) (right : List Right)

theorem forall_erase (position : Nat) (related : List.Forall₂ Related left right) :
    List.Forall₂ Related (left.eraseIdx position) (right.eraseIdx position) := by
  induction related generalizing position with
  | nil => exact List.Forall₂.nil
  | cons head tail ih =>
    cases position with
    | zero => exact tail
    | succ position => exact List.Forall₂.cons head (ih position)

theorem forall_erase_all (related : List.Forall₂ Related left right) :
    List.Forall₂ Related (seqs.foldl (fun items seq => items.eraseIdx (seq - 1)) left)
      (seqs.foldl (fun items seq => items.eraseIdx (seq - 1)) right) := by
  induction seqs generalizing left right with
  | nil => exact related
  | cons seq seqs ih => exact ih _ _ (forall_erase Related left right (seq - 1) related)

theorem forall_set (position : Nat) (new : Left) (old : Right)
    (related : List.Forall₂ Related left right)
    (here : right[position]? = some old) (fits : Related new old) :
    List.Forall₂ Related (left.set position new) right := by
  induction related generalizing position with
  | nil => exact List.Forall₂.nil
  | cons head tail ih =>
    cases position with
    | zero =>
      rw [List.getElem?_cons_zero, Option.some.injEq] at here
      rw [← here] at fits
      exact List.Forall₂.cons fits tail
    | succ position =>
      rw [List.getElem?_cons_succ] at here
      exact List.Forall₂.cons head (ih position here)

/-- The list without the places of these numbers, the first place having the
number `start`. -/
def withoutPlaces (seqs : List Nat) (start : Nat) (items : List Left) : List Left :=
  ((items.zipIdx start).filter fun item => item.2 ∉ seqs).map Prod.fst

theorem without_cons (start : Nat) (first : Left) (items : List Left) :
    withoutPlaces seqs start (first :: items) =
      if start ∈ seqs then withoutPlaces seqs (start + 1) items
      else first :: withoutPlaces seqs (start + 1) items := by
  unfold withoutPlaces
  rw [List.zipIdx_cons]
  by_cases taken : start ∈ seqs
  · rw [if_pos taken, List.filter_cons_of_neg (by simpa using taken)]
  · rw [if_neg taken, List.filter_cons_of_pos (by simpa using taken), List.map_cons]

theorem without_earlier (seq start : Nat) (items : List Left)
    (past : seq < start) : withoutPlaces
      (seq :: seqs) start items = withoutPlaces seqs start items := by
  induction items generalizing start with
  | nil => rfl
  | cons first items ih =>
    rw [without_cons, without_cons, ih (start + 1) (by omega)]
    have same : start ∈ seq :: seqs ↔ start ∈ seqs := by
      rw [List.mem_cons]
      exact ⟨fun member => member.resolve_left (by omega), Or.inr⟩
    simp only [same]

theorem erase_before (seq start : Nat) (items : List Left) (inside : start ≤ seq)
    (before : ∀ other ∈ seqs, seq < other) :
    (withoutPlaces seqs start items).eraseIdx (seq - start) = withoutPlaces
      (seq :: seqs) start items := by
  induction items generalizing start with
  | nil => rfl
  | cons first items ih =>
    have kept : start ∉ seqs := fun member => absurd (before start member) (by omega)
    rw [without_cons, if_neg kept, without_cons]
    by_cases here : start = seq
    · rw [if_pos (by simp [here]), here, Nat.sub_self, List.eraseIdx_cons_zero,
        without_earlier seqs seq (seq + 1) items (Nat.lt_succ_self seq)]
    · have apart : start ∉ seq :: seqs := by
        rw [List.mem_cons, not_or]
        exact ⟨here, kept⟩
      obtain ⟨less, step⟩ : ∃ less, seq - start = less + 1 := ⟨seq - start - 1, by omega⟩
      rw [if_neg apart, step, List.eraseIdx_cons_succ, ← ih (start + 1) (by omega)]
      congr 2
      omega

theorem erase_descending (items : List Left) (ascend : seqs.Pairwise (· < ·))
    (positive : ∀ seq ∈ seqs, 0 < seq) :
    seqs.reverse.foldl (fun left seq => left.eraseIdx (seq - 1)) items =
      withoutPlaces seqs 1 items := by
  induction seqs with
  | nil => simp [withoutPlaces]
  | cons seq seqs ih =>
    obtain ⟨before, later⟩ := List.pairwise_cons.mp ascend
    rw [List.reverse_cons, List.foldl_append,
      ih later fun other member => positive other (List.mem_cons_of_mem _ member)]
    exact erase_before seqs seq 1 items (positive seq List.mem_cons_self) before

end

end Positions

section

variable (client : Client) (sel : Selected) (uids : List Nat) (response : Response)

theorem hear_plain (plain : response.plain = true) : hear client response = client := by
  cases response with
  | existsCount | expunge | vanished | fetch => simp [Response.plain] at plain
  | untaggedOK | taggedOK | taggedNO | taggedBAD => rfl

theorem hear_all_plain (responses : List Response)
    (plain : ∀ response ∈ responses, response.plain = true) : responses.foldl hear client = client := by
  induction responses with
  | nil => rfl
  | cons response responses ih =>
    rw [List.foldl_cons, hear_plain client response (plain response List.mem_cons_self)]
    exact ih fun other member => plain other (List.mem_cons_of_mem _ member)

/-- A response that leaves the length alone and shows UIDs as the session has them. -/
def Truthful (uids : List Nat) : Response → Prop
  | .fetch seq (some uid) _ => uids[seq - 1]? = some uid
  | .fetch _ none _ => True
  | response => response.plain = true

theorem truthful_of_plain (plain : response.plain = true) : Truthful uids response := by
  cases response with
  | existsCount | expunge | vanished | fetch => simp [Response.plain] at plain
  | untaggedOK | taggedOK | taggedNO | taggedBAD => rfl

theorem hear_truthful (related : List.Forall₂ Shows client uids) (truthful : Truthful uids response) :
    List.Forall₂ Shows (hear client response) uids := by
  cases response with
  | fetch seq uid flags =>
    cases uid with
    | none => exact related
    | some uid =>
      refine forall_set Shows client uids (seq - 1) (some uid) uid related truthful ?_
      intro known same
      exact (Option.mem_some_iff.mp same).symm
  | existsCount | expunge | vanished => simp [Truthful, Response.plain] at truthful
  | untaggedOK | taggedOK | taggedNO | taggedBAD => exact related

theorem hear_all_truthful (responses : List Response) (related : List.Forall₂ Shows client uids)
    (truthful : ∀ response ∈ responses, Truthful uids response) :
    List.Forall₂ Shows (responses.foldl hear client) uids := by
  induction responses generalizing client with
  | nil => exact related
  | cons response responses ih =>
    rw [List.foldl_cons]
    refine ih _ (hear_truthful client uids response related (truthful response List.mem_cons_self)) ?_
    intro other member
    exact truthful other (List.mem_cons_of_mem _ member)

theorem hear_expunges (seqs : List Nat) (positive : ∀ seq ∈ seqs, 0 < seq) :
    (seqs.map .expunge).foldl hear client =
      seqs.foldl (fun left seq => left.eraseIdx (seq - 1)) client := by
  induction seqs generalizing client with
  | nil => rfl
  | cons seq seqs ih =>
    obtain ⟨position, rfl⟩ := Nat.exists_eq_succ_of_ne_zero
      (Nat.pos_iff_ne_zero.mp (positive seq List.mem_cons_self))
    rw [List.map_cons, List.foldl_cons, List.foldl_cons,
      ih _ fun other member => positive other (List.mem_cons_of_mem _ member)]
    rfl

theorem hear_exists (uids more : List Nat) (related : List.Forall₂ Shows client uids) :
    List.Forall₂ Shows (hear client (.existsCount (uids ++ more).length)) (uids ++ more) := by
  have length : client.length = uids.length := related.length_eq
  have rest : (uids ++ more).length - client.length = more.length := by
    rw [List.length_append, length]
    omega
  rw [hear, rest]
  refine List.rel_append related ?_
  clear related length rest
  induction more with
  | nil => exact List.Forall₂.nil
  | cons uid more ih => exact List.Forall₂.cons (by intro known absent; simp at absent) ih

def idsAt (sel : Selected) (seqs : List Nat) : List MessageID :=
  (seqs.filterMap (messageAt sel)).map MessageMailbox.messageID

theorem without_places_map {Left Right : Type*} (map : Left → Right) (seqs : List Nat) (start : Nat)
    (items : List Left) :
    withoutPlaces seqs start (items.map map) = (withoutPlaces seqs start items).map map := by
  induction items generalizing start with
  | nil => rfl
  | cons first items ih =>
    rw [List.map_cons, without_cons, without_cons, ih (start + 1)]
    split
    · rfl
    · rw [List.map_cons]

theorem message_at_indexed (row : MessageMailbox) (seq : Nat)
    (member : (row, seq) ∈ sel.msgs.zipIdx 1) : messageAt sel seq = some row := by
  have at_ := List.mk_mem_zipIdx_iff_le_and_getElem?_sub.mp member
  rw [messageAt, if_neg (by omega)]
  exact at_.2

theorem without_places_rows (seqs : List Nat) :
    withoutPlaces seqs 1 sel.msgs = sel.msgs.filter fun row => row.messageID ∉ idsAt sel seqs := by
  have unindexed : sel.msgs.filter (fun row => decide (row.messageID ∉ idsAt sel seqs)) =
      ((sel.msgs.zipIdx 1).filter fun item => decide (item.1.messageID ∉ idsAt sel seqs)).map
        Prod.fst := by
    conv_lhs => rw [← List.zipIdx_map_fst 1 sel.msgs, List.filter_map]
    rfl
  rw [unindexed, withoutPlaces]
  congr 1
  refine List.filter_congr ?_
  rintro ⟨row, seq⟩ member
  have here := message_at_indexed sel row seq member
  rw [decide_eq_decide, not_iff_not, idsAt, List.mem_map]
  constructor
  · intro listed
    exact ⟨row, List.mem_filterMap.mpr ⟨seq, listed, here⟩, rfl⟩
  · rintro ⟨other, otherMember, same⟩
    obtain ⟨place, placeMember, there⟩ := List.mem_filterMap.mp otherMember
    rw [message_at_distinct sel seq place row other here there same.symm]
    exact placeMember

def KnowsGone (client : Client) (msgs : List MessageMailbox) (ids : List MessageID) : Prop :=
  ∀ pair ∈ client.zip msgs, pair.2.messageID ∈ ids → pair.1 = some pair.2.uid

instance (client : Client) (msgs : List MessageMailbox) (ids : List MessageID) :
    Decidable (KnowsGone client msgs ids) :=
  inferInstanceAs (Decidable (∀ pair ∈ client.zip msgs, pair.2.messageID ∈ ids → _ = _))

theorem vanish_in_step (msgs : List MessageMailbox) (ids : List MessageID)
    (gone : List Nat) (related : List.Forall₂ Shows client (msgs.map MessageMailbox.uid))
    (knows : KnowsGone client msgs ids)
    (named : ∀ row ∈ msgs, row.uid ∈ gone ↔ row.messageID ∈ ids) :
    List.Forall₂ Shows (client.filter fun entry => entry.all fun uid => uid ∉ gone)
      ((msgs.filter fun row => row.messageID ∉ ids).map MessageMailbox.uid) := by
  induction msgs generalizing client with
  | nil =>
    rw [List.map_nil, List.forall₂_nil_right_iff] at related
    rw [related]
    exact List.Forall₂.nil
  | cons row msgs ih =>
    cases client with
    | nil =>
      rw [List.map_cons] at related
      exact absurd related.length_eq (by simp)
    | cons entry client =>
      rw [List.map_cons, List.forall₂_cons] at related
      obtain ⟨shows, later⟩ := related
      have rest := ih client later
        (fun pair member => knows pair
          (by rw [List.zip_cons_cons]; exact List.mem_cons_of_mem _ member))
        (fun other member => named other (List.mem_cons_of_mem _ member))
      have here := named row List.mem_cons_self
      by_cases goes : row.messageID ∈ ids
      · have known : entry = some row.uid :=
          knows (entry, row) (by rw [List.zip_cons_cons]; exact List.mem_cons_self) goes
        rw [List.filter_cons_of_neg (by simp [known, here.mpr goes]),
          List.filter_cons_of_neg (by simpa using goes)]
        exact rest
      · have kept : (entry.all fun uid => decide (uid ∉ gone)) = true := by
          cases entry with
          | none => rfl
          | some uid =>
            rw [Option.all_some, decide_eq_true_eq, shows uid rfl]
            exact fun listed => goes (here.mp listed)
        rw [List.filter_cons_of_pos kept, List.filter_cons_of_pos (by simpa using goes), List.map_cons]
        exact List.Forall₂.cons shows rest

/-- The client can follow the report: the sequence numbers come in ascending
order, or it knows the UIDs. -/
def CanFollow (client : Client) (session : Session) (sel : Selected) (seqs : List Nat) : Prop :=
  if session.qresync then KnowsGone client sel.msgs (idsAt sel seqs) else seqs.Pairwise (· < ·)

instance (client : Client) (session : Session) (sel : Selected) (seqs : List Nat) :
    Decidable (CanFollow client session sel seqs) :=
  inferInstanceAs (Decidable (if session.qresync then KnowsGone client sel.msgs (idsAt sel seqs)
    else seqs.Pairwise (· < ·)))

/-- After the report the client is in step with the list without the messages
that went. -/
theorem gone_in_step (session : Session) (sel : Selected) (seqs : List Nat)
    (ascend : (sel.msgs.map MessageMailbox.uid).Pairwise (· < ·))
    (named : ∀ seq ∈ seqs, ∃ row, messageAt sel seq = some row)
    (related : List.Forall₂ Shows client (sel.msgs.map MessageMailbox.uid))
    (follows : CanFollow client session sel seqs) :
    List.Forall₂ Shows
      ((emitGone session seqs ((seqs.filterMap (messageAt sel)).map MessageMailbox.uid)).foldl
        hear client)
      ((sel.msgs.filter fun row => row.messageID ∉ idsAt sel seqs).map MessageMailbox.uid) := by
  have positive : ∀ seq ∈ seqs, 0 < seq := by
    intro seq member
    obtain ⟨row, here⟩ := named seq member
    exact (message_at_pos sel seq row here).1
  unfold CanFollow at follows
  unfold emitGone
  split
  case isTrue qresync =>
    rw [if_pos qresync] at follows
    have uidsNamed : ∀ row ∈ sel.msgs,
        row.uid ∈ (seqs.filterMap (messageAt sel)).map MessageMailbox.uid ↔
          row.messageID ∈ idsAt sel seqs := by
      have nodup : (sel.msgs.map MessageMailbox.uid).Nodup := ascend.imp Nat.ne_of_lt
      have listed : ∀ other ∈ seqs.filterMap (messageAt sel), other ∈ sel.msgs := by
        intro other member
        obtain ⟨seq, _, here⟩ := List.mem_filterMap.mp member
        exact List.mem_of_getElem? (message_at_pos sel seq other here).2
      have idNodup : (sel.msgs.map MessageMailbox.messageID).Nodup := by
        rw [List.Nodup, List.pairwise_map]
        exact sel.distinct
      intro row member
      rw [idsAt, List.mem_map, List.mem_map]
      constructor
      · rintro ⟨other, otherMember, same⟩
        refine ⟨other, otherMember, ?_⟩
        rw [List.inj_on_of_nodup_map nodup (listed other otherMember) member same]
      · rintro ⟨other, otherMember, same⟩
        refine ⟨other, otherMember, ?_⟩
        rw [List.inj_on_of_nodup_map idNodup (listed other otherMember) member same]
    split
    case isTrue none =>
      -- nothing to report, and nothing went
      have nobody : sel.msgs.filter (fun row => decide (row.messageID ∉ idsAt sel seqs)) =
        sel.msgs := by
        rw [List.filter_eq_self]
        intro row member
        rw [decide_eq_true_eq, ← uidsNamed row member, none]
        simp
      rw [nobody]
      exact related
    case isFalse =>
      refine vanish_in_step client sel.msgs (idsAt sel seqs) _ related follows ?_
      intro row member
      rw [List.mem_insertionSort]
      exact uidsNamed row member
  case isFalse plain =>
    rw [if_neg plain] at follows
    rw [hear_expunges client seqs.reverse fun seq member => positive seq (List.mem_reverse.mp member),
      ← without_places_rows, ← without_places_map,
      ← erase_descending seqs (sel.msgs.map MessageMailbox.uid) follows positive]
    exact forall_erase_all Shows seqs.reverse client _ related

/-- The client is in step with the session's list, which is in the order of its UIDs. -/
structure Tracked (client : Client) (sel : Selected) : Prop where
  related : List.Forall₂ Shows client (sel.msgs.map MessageMailbox.uid)
  ascend : (sel.msgs.map MessageMailbox.uid).Pairwise (· < ·)

theorem tracked_of_uids (related : List.Forall₂ Shows client uids) (ascend : uids.Pairwise (· < ·))
    (same : sel.msgs.map MessageMailbox.uid = uids) : Tracked client sel :=
  ⟨same ▸ related, same ▸ ascend⟩

theorem quiet_tracked (session : Session) (sel : Selected) (outcome : Outcome)
    (tracked : Tracked client sel) (selected : session.sel = some sel) (quiet : Quiet session outcome) :
    ∃ sel', outcome.session.sel = some sel' ∧ Tracked (outcome.responses.foldl hear client) sel' := by
  refine ⟨sel, by rw [quiet.session, selected], ?_⟩
  rw [hear_all_plain client outcome.responses quiet.plain]
  exact tracked

end

def keys (sel : Selected) : List (MessageID × Nat) := sel.msgs.map fun row => (row.messageID, row.uid)

theorem keys_uids (sel : Selected) : (keys sel).map Prod.snd = sel.msgs.map MessageMailbox.uid := by
  rw [keys, List.map_map]
  rfl

theorem keys_row (left right : Selected) (same : keys left = keys right) (position : Nat)
    (row : MessageMailbox) (here : left.msgs[position]? = some row) :
    ∃ other, right.msgs[position]? = some other ∧ other.messageID = row.messageID ∧
      other.uid = row.uid := by
  have listed : (keys right)[position]? = some (row.messageID, row.uid) := by
    rw [← same, keys, List.getElem?_map, here]
    rfl
  rw [keys, List.getElem?_map] at listed
  obtain ⟨other, there, equal⟩ := Option.map_eq_some_iff.mp listed
  rw [Prod.mk.injEq] at equal
  exact ⟨other, there, equal.1, equal.2⟩

theorem set_keys (sel : Selected) (position : Nat) (row new : MessageMailbox)
    (here : sel.msgs[position]? = some row) (sameMessage : new.messageID = row.messageID)
    (sameUID : new.uid = row.uid) :
    (sel.msgs.set position new).map (fun row => (row.messageID, row.uid)) = keys sel := by
  rw [List.map_set, sameMessage, sameUID, keys]
  obtain ⟨inside, at_⟩ := List.getElem?_eq_some_iff.mp here
  refine List.ext_getElem? fun index => ?_
  by_cases same : position = index
  · subst same
    simp [inside, at_]
  · simp [same]

/-- The read-back shows the message under the UID the session's list has. -/
def ReadsBackInPlace (store : MailStore) (sel : Selected) (seqs : List Nat) : Prop :=
  ∀ seq ∈ seqs, ∀ row ∈ messageAt sel seq, ∀ found ∈ store.getMessage row.messageID,
    (store.member? row.messageID sel.id).isSome → found.uid = row.uid

instance (store : MailStore) (sel : Selected) (seqs : List Nat) :
    Decidable (ReadsBackInPlace store sel seqs) :=
  inferInstanceAs (Decidable (∀ seq ∈ seqs, ∀ row ∈ messageAt sel seq,
    ∀ found ∈ store.getMessage row.messageID,
      (store.member? row.messageID sel.id).isSome → found.uid = row.uid))

structure KeepsKeys (start store : MailStore) (sel list : Selected) : Prop where
  rows : store.marks.map MailStore.bare = start.marks.map MailStore.bare
  place : list.id = sel.id
  keys : keys list = keys sel

section

variable (faults : Faults) (command : StoreCommand)

theorem reminder_cleared_bare (store : MailStore)
    (sel : Selected) (shared : List Bytes) (row : MessageMailbox) (cleared : Cleared)
    (done : ReminderCleared faults command store sel shared row cleared) :
    cleared.store.marks.map MailStore.bare = store.marks.map MailStore.bare := by
  rw [done.reminded.marks]

def RoundKeepsKeys (start : MailStore) (sel list : Selected) : StoreStep → Prop
  | .skipped => True
  | .applied after list' _ responses => KeepsKeys start after sel list' ∧
      ∀ response ∈ responses, Truthful (sel.msgs.map MessageMailbox.uid) response
  | .rejected after _ _ => KeepsKeys start after sel list
  | .stopped after _ => KeepsKeys start after sel list

theorem store_message_answer (store after : MailStore)
    (sel : Selected) (shared : List Bytes) (seq : Nat) (response : Response)
    (step : storeMessage faults command store sel shared seq = .stopped after response) :
    response.plain = true := by
  unfold storeMessage at step
  split at step
  · simp at step
  · split at step
    · simp at step
    · simp only at step
      split at step
      · rw [StoreStep.stopped.injEq] at step
        rw [← step.2]
        rfl
      · split at step
        · rw [StoreStep.stopped.injEq] at step
          rw [← step.2]
          rfl
        · split at step
          · rw [StoreStep.stopped.injEq] at step
            rw [← step.2]
            rfl
          · split at step
            · simp at step
            · rw [StoreStep.stopped.injEq] at step
              rw [← step.2]
              rfl
            · rename_i row here _ _ cleared _ _ _ updated _
              obtain ⟨list, responses, same, _⟩ :=
                read_back_done faults command updated sel cleared.shared seq row here
              rw [same] at step
              simp at step

theorem round_keeps_keys (start store : MailStore)
    (sel list : Selected) (shared : List Bytes) (seq : Nat) (seqs : List Nat)
    (inPlace : ReadsBackInPlace start sel seqs) (listed : seq ∈ seqs) (positive : 0 < seq)
    (kept : KeepsKeys start store sel list) (step : StoreStep)
    (round : StoreRound faults command store list shared seq step) :
    RoundKeepsKeys start sel list step := by
  cases step with
  | skipped => trivial
  | rejected after shared' uid =>
    obtain ⟨row, _, cleared, done, same, _⟩ := round
    refine ⟨?_, kept.place, kept.keys⟩
    rw [same, reminder_cleared_bare faults command store list shared row cleared done, kept.rows]
  | stopped after response =>
    obtain ⟨row, _, same | ⟨cleared, done, same⟩⟩ := round
    · exact ⟨by rw [same, kept.rows], kept.place, kept.keys⟩
    · refine ⟨?_, kept.place, kept.keys⟩
      rw [same, reminder_cleared_bare faults command store list shared row cleared done, kept.rows]
  | applied after list' shared' responses =>
    obtain ⟨row, here, cleared, modSeq, done, _, flagged, readBack⟩ := round
    have rows : after.marks.map MailStore.bare = start.marks.map MailStore.bare := by
      rw [flagged.marks, reminder_cleared_bare faults command store list shared row cleared done,
        kept.rows]
    rcases readBack with ⟨rfl, rfl, _⟩ | ⟨updated, read, sameID, _, _, msgs, rfl⟩
    · exact ⟨⟨rows, kept.place, kept.keys⟩, by simp⟩
    · -- the row read back has the UID of the first membership, which is the session's
      obtain ⟨original, there, sameMessage, sameUID⟩ := keys_row list sel kept.keys (seq - 1) row here
      have updatedMessage : updated.messageID = row.messageID :=
        (MailStore.get_message_first after _ updated read).2.1
      have updatedUID : updated.uid = row.uid := by
        have keyed := MailStore.get_message_bare after row.messageID
        rw [rows, ← MailStore.get_message_bare start, read, Option.map_some] at keyed
        obtain ⟨found, foundRead, equal⟩ := Option.map_eq_some_iff.mp keyed.symm
        obtain ⟨held, heldFiled⟩ := flagged.found
        obtain ⟨old, oldFiled, _⟩ := MailStore.member_of_bare start cleared.store row.messageID list.id
          held (by rw [reminder_cleared_bare faults command store list shared row cleared done,
            kept.rows])
          heldFiled
        have uid := inPlace seq listed original
          (by rw [messageAt, if_neg (by omega)]; exact there) found
          (by rw [sameMessage]; exact foundRead) (by rw [sameMessage, ← kept.place, oldFiled]; rfl)
        simp only [MailStore.bare, MailStore.mark, Prod.mk.injEq] at equal
        rw [← equal.2.2, uid, sameUID]
      refine ⟨⟨rows, sameID.trans kept.place, ?_⟩, ?_⟩
      · rw [keys, msgs, set_keys list (seq - 1) row updated here updatedMessage updatedUID, kept.keys]
      · intro response member
        split at member
        · simp at member
        · rw [List.mem_singleton] at member
          rw [member]
          split
          · rw [Truthful, List.getElem?_map, there, Option.map_some, sameUID, updatedUID]
          · trivial

theorem store_loop_in_step (start store : MailStore)
    (sel list : Selected) (all seqs : List Nat) (rejected : List (Nat × Nat)) (shared : List Bytes)
    (inPlace : ReadsBackInPlace start sel all) (listed : ∀ seq ∈ seqs, seq ∈ all)
    (kept : KeepsKeys start store sel list) :
    keys (storeLoop faults command seqs rejected shared store list).2.1 = keys sel ∧
      ∀ response ∈ (storeLoop faults command seqs rejected shared store list).2.2,
        Truthful (sel.msgs.map MessageMailbox.uid) response := by
  induction seqs generalizing rejected shared store list with
  | nil =>
    refine ⟨kept.keys, ?_⟩
    intro response member
    rw [storeLoop] at member
    simp only [List.mem_singleton] at member
    rw [member]
    split <;> exact truthful_of_plain _ _ rfl
  | cons seq seqs ih =>
    have later : ∀ other ∈ seqs, other ∈ all := fun other member =>
      listed other (List.mem_cons_of_mem _ member)
    by_cases zero : seq = 0
    · rw [storeLoop, storeMessage, if_pos zero]
      exact ih store list rejected shared later kept
    · have round := round_keeps_keys faults command start store sel list shared seq all inPlace
        (listed seq List.mem_cons_self) (Nat.pos_of_ne_zero zero) kept _
        (store_message_round faults command store list shared seq)
      rw [storeLoop]
      cases step : storeMessage faults command store list shared seq with
      | skipped => exact ih store list rejected shared later kept
      | applied after list' shared' responses =>
        rw [step] at round
        obtain ⟨sameKeys, truthful⟩ := ih after list' rejected shared' later round.1
        refine ⟨sameKeys, ?_⟩
        intro response member
        rcases List.mem_append.mp member with now | rest
        · exact round.2 response now
        · exact truthful response rest
      | rejected after shared' uid =>
        rw [step] at round
        exact ih after list _ shared' later round
      | stopped after response =>
        rw [step] at round
        refine ⟨round.keys, ?_⟩
        intro other member
        rw [List.mem_singleton] at member
        rw [member]
        exact truthful_of_plain _ _ (store_message_answer faults command store after list shared seq
          response step)

theorem store_tracked (client : Client) (faults : Faults) (store : MailStore) (session : Session)
    (sel : Selected) (command : StoreCommand) (tracked : Tracked client sel)
    (selected : session.sel = some sel)
    (inPlace : ReadsBackInPlace store sel (expandSet sel command.set command.isUID)) :
    ∃ sel', (handleSTORE faults store session command).session.sel = some sel' ∧
      Tracked ((handleSTORE faults store session command).responses.foldl hear client) sel' := by
  simp only [handleSTORE, selected]
  split
  · exact ⟨sel, selected, tracked⟩
  · obtain ⟨same, truthful⟩ := store_loop_in_step faults command store store sel sel
      (expandSet sel command.set command.isUID) (expandSet sel command.set command.isUID) []
      (initialClear command) inPlace (fun _ member => member) ⟨rfl, rfl, rfl⟩
    refine ⟨_, rfl, tracked_of_uids _ _ _ (hear_all_truthful client _ _ tracked.related truthful)
      tracked.ascend ?_⟩
    rw [← keys_uids, same, keys_uids]

theorem fetch_loop_truthful (command : FetchCommand) (sel : Selected) (seqs : List Nat) :
    ∀ response ∈ fetchLoop faults command sel seqs,
      Truthful (sel.msgs.map MessageMailbox.uid) response := by
  induction seqs with
  | nil =>
    intro response member
    rw [fetchLoop, List.mem_singleton] at member
    rw [member]
    exact truthful_of_plain _ _ rfl
  | cons seq seqs ih =>
    rw [fetchLoop]
    split
    · exact ih
    · rename_i row here
      split
      · exact ih
      · split
        · intro response member
          rw [List.mem_singleton] at member
          rw [member]
          exact truthful_of_plain _ _ rfl
        · intro response member
          rcases List.mem_cons.mp member with rfl | later
          · split
            · rw [Truthful, List.getElem?_map, (message_at_pos sel seq row here).2]
              rfl
            · trivial
          · exact ih response later

end

theorem filter_map_found {Key Item : Type*} (find : Key → Option Item) (pairs : List (Key × Item))
    (found : ∀ pair ∈ pairs, find pair.1 = some pair.2) :
    (pairs.map Prod.fst).filterMap find = pairs.map Prod.snd := by
  induction pairs with
  | nil => rfl
  | cons pair pairs ih =>
    rw [List.map_cons, List.filterMap_cons_some (found pair List.mem_cons_self), List.map_cons,
      ih fun other member => found other (List.mem_cons_of_mem _ member)]

section

variable (client : Client) (faults : Faults) (before after : MailStore) (sel : Selected)

theorem victims_found (isUID : Bool) (set : Option NumSet) :
    ∀ victim ∈ victims sel isUID set, messageAt sel victim.1 = some victim.2 := by
  rintro ⟨seq, row⟩ member
  rw [victims, messagesWhere, List.mem_filterMap] at member
  obtain ⟨⟨other, place⟩, indexed, chosen⟩ := member
  simp only [Option.ite_none_right_eq_some, Option.some.injEq, Prod.mk.injEq] at chosen
  obtain ⟨_, rfl, rfl⟩ := chosen
  exact message_at_indexed sel other place indexed

theorem mem_expand_ranges (positions : NumRange → List Nat) (set : NumSet) (out : List Nat) (seq : Nat)
    (member : seq ∈ expandRanges positions set out) :
    seq ∈ out ∨ ∃ range ∈ set, seq ∈ positions range := by
  induction set generalizing out with
  | nil => exact Or.inl member
  | cons range set ih =>
    rcases ih _ member with now | ⟨other, listed, inside⟩
    · rcases List.mem_append.mp now with before | new
      · exact Or.inl before
      · exact Or.inr ⟨range, List.mem_cons_self, (List.mem_filter.mp new).1⟩
    · exact Or.inr ⟨other, List.mem_cons_of_mem _ listed, inside⟩

theorem expand_set_named (set : NumSet) (byUID : Bool) :
    ∀ seq ∈ expandSet sel set byUID, ∃ row, messageAt sel seq = some row := by
  intro seq member
  unfold expandSet at member
  split at member
  · rcases mem_expand_ranges _ set [] seq member with none | ⟨range, _, inside⟩
    · simp at none
    · rw [positionsWhere, List.mem_filterMap] at inside
      obtain ⟨⟨row, place⟩, indexed, chosen⟩ := inside
      simp only [Option.ite_none_right_eq_some, Option.some.injEq] at chosen
      rw [← chosen.2]
      exact ⟨row, message_at_indexed sel row place indexed⟩
  · rcases mem_expand_ranges _ set [] seq member with none | ⟨range, _, inside⟩
    · simp at none
    · rw [seqsInRange, List.mem_range'_1] at inside
      have bounds : 0 < seq ∧ seq ≤ sel.msgs.length := by
        split at inside <;> split at inside <;> omega
      refine ⟨sel.msgs[seq - 1], ?_⟩
      rw [messageAt, if_neg (by omega)]
      exact List.getElem?_eq_getElem (by omega)

/-- Apart from the messages that go, the session's list shows the mailbox as it is. -/
def ShowsRest (store : MailStore) (sel : Selected) (ids : List MessageID) : Prop :=
  ((store.rows sel.id).filter fun row => row.messageID ∉ ids).map MessageMailbox.uid =
    (sel.msgs.filter fun row => row.messageID ∉ ids).map MessageMailbox.uid

instance (store : MailStore) (sel : Selected) (ids : List MessageID) :
    Decidable (ShowsRest store sel ids) := inferInstanceAs (Decidable (_ = _))

/-- The reload after a removal brings no news, and does not fail where something went. -/
def ReloadsQuietly (faults : Faults) (store : MailStore) (sel : Selected)
    (ids : List MessageID) : Prop :=
  if faults .reload then ids = [] else ShowsRest store sel ids

instance (faults : Faults) (store : MailStore) (sel : Selected) (ids : List MessageID) :
    Decidable (ReloadsQuietly faults store sel ids) :=
  inferInstanceAs (Decidable (if faults .reload then ids = [] else ShowsRest store sel ids))

theorem mailbox_by_id_kept (id : MailboxID) (box : Mailbox)
    (same : after.mailboxes.map Mailbox.id = before.mailboxes.map Mailbox.id)
    (found : before.mailboxByID id = some box) : ∃ kept, after.mailboxByID id = some kept := by
  have listed : id ∈ before.mailboxes.map Mailbox.id := by
    refine List.mem_map.mpr ⟨box, List.mem_of_find?_eq_some found, ?_⟩
    have matched := List.find?_some found
    exact of_decide_eq_true matched
  rw [← same] at listed
  obtain ⟨kept, member, rfl⟩ := List.mem_map.mp listed
  cases search : after.mailboxByID kept.id with
  | some other => exact ⟨other, rfl⟩
  | none =>
    rw [MailStore.mailboxByID, List.find?_eq_none] at search
    exact absurd (search kept member) (by simp)

theorem mark_uids (left right : List MessageMailbox)
    (same : left.map MailStore.mark = right.map MailStore.mark) :
    left.map MessageMailbox.uid = right.map MessageMailbox.uid := by
  have uids := congrArg (List.map MailStore.Mark.uid) same
  rw [List.map_map, List.map_map] at uids
  exact uids

theorem reload_shows_rest (ids : List MessageID)
    (expunged : MailStore.Expunged sel.id ids before after) (box : Mailbox)
    (found : before.mailboxByID sel.id = some box) (quietly : ReloadsQuietly faults before sel ids) :
    (reloaded faults after sel).msgs.map MessageMailbox.uid =
      (sel.msgs.filter fun row => row.messageID ∉ ids).map MessageMailbox.uid := by
  unfold ReloadsQuietly at quietly
  unfold reloaded reloadSelected
  split at quietly
  case isTrue fails =>
    simp only [fails, if_true, Option.getD_none, quietly, List.not_mem_nil, not_false_eq_true,
      decide_true, List.filter_true]
  case isFalse works =>
    obtain ⟨kept, keptFound⟩ := mailbox_by_id_kept before after sel.id box expunged.mailboxes found
    rw [if_neg works, keptFound, Option.map_some, Option.getD_some]
    change (after.listAllMessages sel.id).map MessageMailbox.uid = _
    rw [after.list_all_messages_eq, mark_uids _ _ expunged.rows]
    exact quietly

theorem removal_tracked (session : Session)
    (before after : MailStore) (sel : Selected) (seqs : List Nat) (box : Mailbox)
    (tracked : Tracked client sel) (named : ∀ seq ∈ seqs, ∃ row, messageAt sel seq = some row)
    (expunged : MailStore.Expunged sel.id (idsAt sel seqs) before after)
    (found : before.mailboxByID sel.id = some box) (follows : CanFollow client session sel seqs)
    (quietly : ReloadsQuietly faults before sel (idsAt sel seqs)) :
    Tracked ((emitGone session seqs
      ((seqs.filterMap (messageAt sel)).map MessageMailbox.uid)).foldl hear client)
      (reloaded faults after sel) := by
  refine tracked_of_uids _ _ _
    (gone_in_step client session sel seqs tracked.ascend named tracked.related follows) ?_
    (reload_shows_rest faults before after sel (idsAt sel seqs) expunged box found quietly)
  exact tracked.ascend.sublist (List.filter_sublist.map _)

def ExpungeInStep (client : Client) (faults : Faults) (store : MailStore) (session : Session)
    (sel : Selected) (isUID : Bool) (set : Option NumSet) : Prop :=
  let seqs := (victims sel isUID set).map Prod.fst
  MayExpunge faults store session sel →
    CanFollow client session sel seqs ∧ ReloadsQuietly faults store sel (idsAt sel seqs)

instance (client : Client) (faults : Faults) (store : MailStore) (session : Session) (sel : Selected)
    (isUID : Bool) (set : Option NumSet) :
    Decidable (ExpungeInStep client faults store session sel isUID set) :=
  inferInstanceAs (Decidable (MayExpunge faults store session sel →
    CanFollow client session sel ((victims sel isUID set).map Prod.fst) ∧
      ReloadsQuietly faults store sel (idsAt sel ((victims sel isUID set).map Prod.fst))))

theorem expunge_tracked (store : MailStore) (session : Session)
    (sel : Selected) (isUID : Bool) (set : Option NumSet) (tracked : Tracked client sel)
    (selected : session.sel = some sel)
    (inStep : ExpungeInStep client faults store session sel isUID set) :
    ∃ sel', (handleEXPUNGE faults store session isUID set).session.sel = some sel' ∧
      Tracked ((handleEXPUNGE faults store session isUID set).responses.foldl hear client) sel' := by
  rcases handle_expunge_cases faults store session sel isUID set selected with
    ⟨quiet, _⟩ | ⟨may, ok, session', responses⟩
  · exact quiet_tracked client session sel _ tracked selected quiet
  · obtain ⟨follows, quietly⟩ := inStep may
    obtain ⟨_, box, found, _⟩ := may
    have rows := filter_map_found (messageAt sel) (victims sel isUID set) (victims_found sel isUID set)
    have ids : (victims sel isUID set).map (fun victim => victim.2.messageID) =
        idsAt sel ((victims sel isUID set).map Prod.fst) := by
      rw [idsAt, rows, List.map_map]
      rfl
    have uids : (victims sel isUID set).map (fun victim => victim.2.uid) =
        (((victims sel isUID set).map Prod.fst).filterMap (messageAt sel)).map MessageMailbox.uid := by
      rw [rows, List.map_map]
      rfl
    rw [ids] at ok
    refine ⟨_, by rw [session'], ?_⟩
    rw [responses, List.foldl_append, uids]
    refine removal_tracked client faults session store _ sel _ box tracked ?_
      (MailStore.expunge_messages_expunged _ _ _ _ ok) found follows quietly
    intro seq member
    obtain ⟨victim, listed, rfl⟩ := List.mem_map.mp member
    exact ⟨victim.2, victims_found sel isUID set victim listed⟩

def MoveInStep (client : Client) (faults : Faults) (store : MailStore) (session : Session)
    (sel : Selected) (set : NumSet) (isUID : Bool) (name : Bytes) : Prop :=
  let seqs := expandSet sel set isUID
  let destination := lookupDestination faults store session.pid name
  seqs = [] ∨ destination.satisfies (fun _ => true) = false ∨
    (destination.satisfies (fun dest => dest.id ≠ sel.id) = true ∧ CanFollow client session sel seqs ∧
      ReloadsQuietly faults store sel (idsAt sel seqs))

instance (client : Client) (faults : Faults) (store : MailStore) (session : Session) (sel : Selected)
    (set : NumSet) (isUID : Bool) (name : Bytes) :
    Decidable (MoveInStep client faults store session sel set isUID name) :=
  inferInstanceAs (Decidable (_ = _ ∨ _ = false ∨ (_ = true ∧
    CanFollow client session sel (expandSet sel set isUID) ∧
      ReloadsQuietly faults store sel (idsAt sel (expandSet sel set isUID)))))

theorem reloads_quietly_marks (ids : List MessageID)
    (same : (after.rows sel.id).map MailStore.mark = (before.rows sel.id).map MailStore.mark)
    (quietly : ReloadsQuietly faults before sel ids) : ReloadsQuietly faults after sel ids := by
  have rest : ((after.rows sel.id).filter fun row => row.messageID ∉ ids).map MessageMailbox.uid =
      ((before.rows sel.id).filter fun row => row.messageID ∉ ids).map MessageMailbox.uid := by
    refine mark_uids _ _ ?_
    have filtered : ∀ rows : List MessageMailbox,
        (rows.filter fun row => row.messageID ∉ ids).map MailStore.mark =
          (rows.map MailStore.mark).filter fun row => row.messageID ∉ ids := by
      intro rows
      rw [List.filter_map]
      rfl
    rw [filtered, filtered, same]
  unfold ReloadsQuietly ShowsRest at quietly ⊢
  rw [rest]
  exact quietly

theorem expunge_finds_mailbox (store after : MailStore) (mailbox : MailboxID) (ids : List MessageID)
    (some_ : ids ≠ []) (ok : store.expungeMessages mailbox ids = .ok after) :
    ∃ box, store.mailboxByID mailbox = some box := by
  rw [MailStore.expungeMessages, if_neg some_] at ok
  split at ok
  · simp at ok
  · rename_i box found
    exact ⟨box, found⟩

theorem move_tracked (store : MailStore) (session : Session)
    (sel : Selected) (set : NumSet) (isUID : Bool) (name : Bytes) (tracked : Tracked client sel)
    (selected : session.sel = some sel)
    (inStep : MoveInStep client faults store session sel set isUID name) :
    ∃ sel', (handleMOVE faults store session set isUID name).session.sel = some sel' ∧
      Tracked ((handleMOVE faults store session set isUID name).responses.foldl hear client) sel' := by
  rcases handle_move_cases faults store session sel set isUID name selected with
    ⟨quiet, _⟩ | ⟨dest, found, some_, ⟨quiet, _⟩ | ⟨ok, session', staged, plain, responses⟩⟩
  · exact quiet_tracked client session sel _ tracked selected quiet
  · exact quiet_tracked client session sel _ tracked selected quiet
  · rcases inStep with none | missing | ⟨away, follows, quietly⟩
    · exact absurd none some_
    · rw [found] at missing
      simp [Destination.satisfies] at missing
    · rw [found] at away
      have apart : sel.id ≠ dest.id := fun same => of_decide_eq_true away same.symm
      let copied := (copyLoop faults session.pid sel.id dest true
        ((expandSet sel set isUID).filterMap (messageAt sel)) 0 store).1
      have grown : MailStore.Grown dest.id store copied := copy_loop_grown faults session.pid sel.id
        dest true ((expandSet sel set isUID).filterMap (messageAt sel)) 0 store
      have named := expand_set_named sel set isUID
      have ids : idsAt sel (expandSet sel set isUID) ≠ [] := by
        obtain ⟨seq, member⟩ := List.exists_mem_of_ne_nil _ some_
        obtain ⟨row, here⟩ := named seq member
        refine List.ne_nil_of_mem (List.mem_map_of_mem (List.mem_filterMap.mpr ⟨seq, member, here⟩))
      obtain ⟨box, boxFound⟩ := expunge_finds_mailbox copied _ sel.id _ ids ok
      refine ⟨_, by rw [session'], ?_⟩
      rw [responses, List.foldl_cons, hear_plain client staged plain, List.foldl_append]
      exact removal_tracked client faults session copied _ sel _ box tracked named
        (MailStore.expunge_messages_expunged _ _ _ _ ok) boxFound follows
        (reloads_quietly_marks faults store copied sel _ (grown.rows sel.id apart) quietly)

end

def OnlyGrew (store : MailStore) (sel : Selected) : Prop :=
  sel.msgs.map MessageMailbox.uid <+: (store.rows sel.id).map MessageMailbox.uid

/-- Messages of the list that are filed in the mailbox are so under the same UID. -/
def SameUIDs (store : MailStore) (sel : Selected) : Prop :=
  ∀ row ∈ sel.msgs, ∀ stored ∈ store.member? row.messageID sel.id, stored.uid = row.uid

instance (store : MailStore) (sel : Selected) : Decidable (SameUIDs store sel) :=
  inferInstanceAs (Decidable (∀ row ∈ sel.msgs, ∀ stored ∈ store.member? row.messageID sel.id,
    stored.uid = row.uid))

instance (store : MailStore) (sel : Selected) : Decidable (OnlyGrew store sel) :=
  inferInstanceAs (Decidable (_ <+: _))

section

variable (client : Client) (faults : Faults) (store : MailStore)

theorem reload_tracked (due : Bool)
    (sel : Selected) (tracked : Tracked client sel) (sameUIDs : SameUIDs store sel)
    (grew : due = true → faults .reload = false → OnlyGrew store sel) :
    let result := reloadAndCount faults store due sel
    Tracked (result.2.foldl hear client) result.1 ∧ SameUIDs store result.1 ∧
      (result.1 = sel ∨ OnlyGrew store result.1) := by
  unfold reloadAndCount
  split
  · exact ⟨tracked, sameUIDs, Or.inl rfl⟩
  · rename_i isDue
    unfold reloadSelected
    split
    · rename_i absent
      exact ⟨tracked, sameUIDs, Or.inl rfl⟩
    · rename_i fresh loaded
      split at loaded
      · simp at loaded
      · rename_i works
        obtain ⟨box, _, rfl⟩ := Option.map_eq_some_iff.mp loaded
        obtain ⟨more, rows⟩ := grew (Bool.eq_true_of_not_eq_false isDue) (Bool.eq_false_iff.mpr works)
        have msgs : store.listAllMessages sel.id = store.rows sel.id :=
          store.list_all_messages_eq sel.id
        refine ⟨tracked_of_uids _ _ ((store.rows sel.id).map MessageMailbox.uid) ?_ ?_ ?_, ?_, ?_⟩
        · have heard := hear_exists client _ more tracked.related
          rw [rows, List.length_map] at heard
          change List.Forall₂ Shows (hear client (.existsCount (store.listAllMessages sel.id).length)) _
          rw [msgs]
          exact heard
        · rw [List.pairwise_map]
          exact store.rows_ascend sel.id
        · change (store.listAllMessages sel.id).map MessageMailbox.uid = _
          rw [msgs]
        · intro row member stored filed
          change row ∈ store.listAllMessages sel.id at member
          rw [msgs] at member
          rw [Option.mem_def, MailStore.rows_member store sel.id row member, Option.some.injEq] at filed
          rw [filed]
        · refine Or.inr ?_
          change (store.listAllMessages sel.id).map MessageMailbox.uid <+:
            (store.rows sel.id).map MessageMailbox.uid
          exact (congrArg (List.map MessageMailbox.uid) msgs) ▸ List.prefix_refl _

theorem report_changed_tracked (faults : Faults) (store : MailStore)
    (sel : Selected) (message : MessageID) (tracked : Tracked client sel)
    (sameUIDs : SameUIDs store sel) :
    let result := reportChanged faults store sel message
    Tracked (result.2.foldl hear client) result.1 ∧ SameUIDs store result.1 := by
  unfold reportChanged
  split
  · exact ⟨tracked, sameUIDs⟩
  · split
    · exact ⟨tracked, sameUIDs⟩
    · rename_i row read
      split
      · exact ⟨tracked, sameUIDs⟩
      · rename_i place
        split
        · exact ⟨tracked, sameUIDs⟩
        · rename_i position found
          obtain ⟨filed, same, _⟩ := MailStore.get_message_first store message row read
          have rowFiled : store.member? message sel.id = some row :=
            (MailStore.member_some_iff store message sel.id row).mpr ⟨filed, same, not_not.mp place⟩
          obtain ⟨inside, matched, _⟩ := List.findIdx?_eq_some_iff_getElem.mp found
          have here : sel.msgs[position]? = some sel.msgs[position] := List.getElem?_eq_getElem inside
          have listed : sel.msgs[position].messageID = message := of_decide_eq_true matched
          have uid : row.uid = sel.msgs[position].uid :=
            sameUIDs sel.msgs[position] (List.getElem_mem inside) row (by rw [listed]; exact rowFiled)
          have kept := set_keys sel position sel.msgs[position] row here (same.trans listed.symm) uid
          have uids : (sel.msgs.set position row).map MessageMailbox.uid =
              sel.msgs.map MessageMailbox.uid := by
            have seconds := congrArg (List.map Prod.snd) kept
            rw [keys_uids, List.map_map] at seconds
            exact seconds
          constructor
          · refine tracked_of_uids _ _ _ ?_ tracked.ascend uids
            refine hear_truthful client _ (.fetch (position + 1) (some row.uid)
              (some (row.flags, row.keywords))) tracked.related ?_
            rw [Truthful, Nat.add_sub_cancel, List.getElem?_map, here, Option.map_some, uid]
          · intro other member stored storedFiled
            change other ∈ sel.msgs.set position row at member
            rcases List.mem_or_eq_of_mem_set member with before | rfl
            · exact sameUIDs other before stored storedFiled
            · have again : store.member? other.messageID sel.id = some stored := storedFiled
              rw [same, rowFiled, Option.some.injEq] at again
              rw [again]

theorem report_all_tracked (messages : List MessageID) (sel : Selected) (tracked : Tracked client sel)
    (sameUIDs : SameUIDs store sel) :
    Tracked ((reportAll faults store messages sel).2.foldl hear client)
      (reportAll faults store messages sel).1 := by
  induction messages generalizing client sel with
  | nil => exact tracked
  | cons message messages ih =>
    obtain ⟨first, kept⟩ := report_changed_tracked client faults store sel message tracked sameUIDs
    rw [reportAll, List.foldl_append]
    exact ih _ _ first kept

def PollInStep (faults : Faults) (store : MailStore) (session : Session) (sel : Selected)
    (cursor : Nat) : Prop :=
  let changes := store.readChangeFeedAll session.pid cursor 1024
  faults .readChangeFeed = false →
    SameUIDs store sel ∧
      (changes.any (fun change =>
        relevant sel.id .created change || relevant sel.id .destroyed change) →
        faults .reload = false → OnlyGrew store sel)

instance (faults : Faults) (store : MailStore) (session : Session) (sel : Selected) (cursor : Nat) :
    Decidable (PollInStep faults store session sel cursor) :=
  inferInstanceAs (Decidable (_ = false → SameUIDs store sel ∧ (_ → _ = false → OnlyGrew store sel)))

theorem poll_tracked (session : Session)
    (sel : Selected) (cursor : Nat) (tracked : Tracked client sel) (selected : session.sel = some sel)
    (inStep : PollInStep faults store session sel cursor) :
    ∃ sel', (pollIDLE faults store session sel cursor).session.sel = some sel' ∧
      Tracked ((pollIDLE faults store session sel cursor).responses.foldl hear client) sel' := by
  unfold pollIDLE
  split
  · exact ⟨sel, selected, tracked⟩
  · rename_i readable
    obtain ⟨sameUIDs, grew⟩ := inStep (Bool.eq_false_iff.mpr readable)
    refine ⟨_, rfl, ?_⟩
    rw [List.foldl_append, List.foldl_append]
    let changes := store.readChangeFeedAll session.pid cursor 1024
    have either : ∀ op, (op = .created ∨ op = .destroyed) → changes.any (relevant sel.id op) = true →
        faults .reload = false → OnlyGrew store sel := by
      intro op which due works
      refine grew ?_ works
      obtain ⟨change, member, hit⟩ := List.any_eq_true.mp due
      refine List.any_eq_true.mpr ⟨change, member, ?_⟩
      rcases which with rfl | rfl
      · rw [hit, Bool.true_or]
      · rw [hit, Bool.or_true]
    obtain ⟨grown, grownUIDs, list⟩ := reload_tracked client faults store
      (changes.any (relevant sel.id .created)) sel tracked sameUIDs (either .created (Or.inl rfl))
    obtain ⟨shrunk, shrunkUIDs, _⟩ := reload_tracked _ faults store
      (changes.any (relevant sel.id .destroyed)) _ grown grownUIDs (by
        intro due works
        rcases list with same | fresh
        · rw [same]
          exact either .destroyed (Or.inr rfl) due works
        · exact fresh)
    exact report_all_tracked _ faults store _ _ shrunk shrunkUIDs

end

structure Dialogue where
  store : MailStore
  session : Session
  client : Client

def Dialogue.step (dialogue : Dialogue) : Label → Option Dialogue
  | .command faults command =>
    (dispatch faults dialogue.store dialogue.session command).map fun outcome =>
      { store := outcome.store, session := outcome.session
        client := outcome.responses.foldl hear dialogue.client }
  | .change after => some { dialogue with store := after }

def dialogueMachine : Machine Dialogue Label where
  step := Dialogue.step

/-- The step keeps the two sides in step: a reload shows the client nothing but
what it is told, and the client can follow what it is told. -/
def StaysInStep (dialogue : Dialogue) : Label → Prop
  | .change _ => True
  | .command faults command =>
    ∀ sel ∈ dialogue.session.sel,
      match command with
      | .store storing =>
        ReadsBackInPlace dialogue.store sel (expandSet sel storing.set storing.isUID)
      | .expunge => ExpungeInStep dialogue.client faults dialogue.store dialogue.session sel false none
      | .uidExpunge set =>
        ExpungeInStep dialogue.client faults dialogue.store dialogue.session sel true (some set)
      | .move set isUID name =>
        MoveInStep dialogue.client faults dialogue.store dialogue.session sel set isUID name
      | .poll =>
        ∀ cursor ∈ dialogue.session.idle,
          PollInStep faults dialogue.store dialogue.session sel cursor
      | _ => True

instance (dialogue : Dialogue) : (label : Label) → Decidable (StaysInStep dialogue label)
  | .change _ => isTrue trivial
  | .command _ (.store storing) =>
    inferInstanceAs (Decidable (∀ sel ∈ dialogue.session.sel,
      ReadsBackInPlace dialogue.store sel (expandSet sel storing.set storing.isUID)))
  | .command faults .expunge =>
    inferInstanceAs (Decidable (∀ sel ∈ dialogue.session.sel,
      ExpungeInStep dialogue.client faults dialogue.store dialogue.session sel false none))
  | .command faults (.uidExpunge set) =>
    inferInstanceAs (Decidable (∀ sel ∈ dialogue.session.sel,
      ExpungeInStep dialogue.client faults dialogue.store dialogue.session sel true (some set)))
  | .command faults (.move set isUID name) =>
    inferInstanceAs (Decidable (∀ sel ∈ dialogue.session.sel,
      MoveInStep dialogue.client faults dialogue.store dialogue.session sel set isUID name))
  | .command faults .poll =>
    inferInstanceAs (Decidable (∀ sel ∈ dialogue.session.sel, ∀ cursor ∈ dialogue.session.idle,
      PollInStep faults dialogue.store dialogue.session sel cursor))
  | .command _ .noop | .command _ (.select _ _ _ _) | .command _ .unselect | .command _ (.enable _ _)
  | .command _ (.fetch _) | .command _ .search | .command _ (.copy _ _ _) | .command _ (.append _ _)
  | .command _ (.delete _) | .command _ .idle | .command _ .done => isTrue fun _ _ => trivial

theorem dispatch_tracked (dialogue : Dialogue) (faults : Faults) (command : Command)
    (outcome : Outcome) (sel : Selected) (selected : dialogue.session.sel = some sel)
    (tracked : Tracked dialogue.client sel) (stays : command.leaves = false)
    (inStep : StaysInStep dialogue (.command faults command))
    (ran : dispatch faults dialogue.store dialogue.session command = some outcome) :
    ∃ sel', outcome.session.sel = some sel' ∧
      Tracked (outcome.responses.foldl hear dialogue.client) sel' := by
  have here := inStep sel selected
  cases idling : dialogue.session.idle with
  | some cursor =>
    cases command with
    | poll =>
      simp only [dispatch, idling, selected, Option.map_some, Option.some.injEq] at ran
      subst ran
      exact poll_tracked dialogue.client faults dialogue.store dialogue.session sel cursor tracked
        selected (here cursor idling)
    | done =>
      simp only [dispatch, idling, Option.some.injEq] at ran
      subst ran
      exact ⟨sel, selected, tracked⟩
    | _ => simp [dispatch, idling] at ran
  | none =>
    cases command with
    | select | unselect => simp [Command.leaves] at stays
    | poll | done => simp [dispatch, idling] at ran
    | noop | enable =>
      simp only [dispatch, idling, Option.some.injEq] at ran
      subst ran
      exact ⟨sel, selected, tracked⟩
    | search =>
      simp only [dispatch, idling, selected, Option.some.injEq] at ran
      subst ran
      exact ⟨sel, selected, tracked⟩
    | idle =>
      simp only [dispatch, idling, startIDLE, selected, Option.some.injEq] at ran
      subst ran
      exact ⟨sel, rfl, tracked⟩
    | fetch fetching =>
      simp only [dispatch, idling, handleFETCH, selected, Option.some.injEq] at ran
      subst ran
      refine ⟨sel, rfl, ⟨?_, tracked.ascend⟩⟩
      exact hear_all_truthful _ _ _ tracked.related (fetch_loop_truthful faults fetching sel _)
    | append name items =>
      simp only [dispatch, idling, Option.some.injEq] at ran
      subst ran
      exact quiet_tracked _ _ sel _ tracked selected (handle_append_cases faults _ _ name items).1
    | delete name =>
      simp only [dispatch, idling, Option.some.injEq] at ran
      subst ran
      exact quiet_tracked _ _ sel _ tracked selected (handle_delete_cases faults _ _ name).1
    | copy set isUID name =>
      simp only [dispatch, idling, Option.some.injEq] at ran
      subst ran
      exact quiet_tracked _ _ sel _ tracked selected
        (handle_copy_cases faults _ _ sel set isUID name selected).1
    | expunge =>
      simp only [dispatch, idling, Option.some.injEq] at ran
      subst ran
      exact expunge_tracked _ faults _ _ sel false none tracked selected here
    | uidExpunge set =>
      simp only [dispatch, idling, Option.some.injEq] at ran
      subst ran
      exact expunge_tracked _ faults _ _ sel true (some set) tracked selected here
    | move set isUID name =>
      simp only [dispatch, idling, Option.some.injEq] at ran
      subst ran
      exact move_tracked _ faults _ _ sel set isUID name tracked selected here
    | store storing =>
      simp only [dispatch, idling, Option.some.injEq] at ran
      subst ran
      exact store_tracked _ faults _ _ sel storing tracked selected here

def Following (dialogue : Dialogue) : Prop :=
  ∃ sel, dialogue.session.sel = some sel ∧ Tracked dialogue.client sel

theorem following_step (dialogue next : Dialogue) (label : Label) (following : Following dialogue)
    (allowed : label.stays = true ∧ StaysInStep dialogue label)
    (stepped : dialogue.step label = some next) : Following next := by
  obtain ⟨sel, selected, tracked⟩ := following
  cases label with
  | change after =>
    simp only [Dialogue.step, Option.some.injEq] at stepped
    rw [← stepped]
    exact ⟨sel, selected, tracked⟩
  | command faults command =>
    simp only [Dialogue.step] at stepped
    obtain ⟨outcome, ran, rfl⟩ := Option.map_eq_some_iff.mp stepped
    exact dispatch_tracked dialogue faults command outcome sel selected tracked
      (by simpa [Label.stays] using allowed.1) allowed.2 ran

/-- A client that starts in step with the list `SELECT` has loaded is in step
after every step of a run in which each reload shows only what is told. -/
theorem sequence_numbers_stay_in_step (start final : Dialogue) (sel : Selected) (labels : List Label)
    (selected : start.session.sel = some sel) (loaded : sel.msgs = start.store.rows sel.id)
    (opening : InStep start.client (sel.msgs.map MessageMailbox.uid))
    (staying : ∀ label ∈ labels, label.stays = true)
    (meets : dialogueMachine.Meets StaysInStep start labels)
    (ran : dialogueMachine.execute start labels = some final) :
    ∃ sel', final.session.sel = some sel' ∧
      InStep final.client (sel'.msgs.map MessageMailbox.uid) := by
  have following : Following start := by
    refine ⟨sel, selected, (in_step_iff _ _).mp opening, ?_⟩
    rw [loaded, List.pairwise_map]
    exact start.store.rows_ascend sel.id
  obtain ⟨sel', selected', tracked⟩ := Machine.meets_keeps dialogueMachine _ Following
    (fun dialogue label next following allowed stepped =>
      following_step dialogue next label following allowed stepped)
    labels start final following
    (Machine.meets_labels dialogueMachine StaysInStep (fun label => label.stays = true) labels start
      meets staying) ran
  exact ⟨sel', selected', (in_step_iff _ _).mpr tracked.related⟩

def twoMailboxes : MailStore where
  mailboxes := { id := 2, principalID := 7, name := ascii "Archive" } :: twoMessages.mailboxes
  members := twoMessages.members
  nextMessageID := 3
  mailboxesDistinct := by decide
  membersDistinct := twoMessages.membersDistinct
  uidsAscend := twoMessages.uidsAscend
  uidsIssued := by decide
  uidsPositive := twoMessages.uidsPositive
  countersPositive := by decide
  messagesIssued := twoMessages.messagesIssued

def opened : Dialogue :=
  { store := twoMailboxes
    session := (handleSELECT noFaults twoMailboxes { pid := 7 } (ascii "INBOX") false false
      false).session
    client := [some 1, some 2] }

def committed (store : MailStore) : Except MailError MailStore → MailStore
  | .ok after => after
  | .error _ => store

def removedElsewhere : MailStore := committed twoMailboxes (twoMailboxes.expungeMessages 1 [1])

def bothSides (dialogue : Dialogue) : Client × Option (List Nat) :=
  (dialogue.client, dialogue.session.sel.map fun sel => sel.msgs.map MessageMailbox.uid)

/-- A `MOVE` that names the messages out of order reports the wrong numbers, and
a removal by another session is never reported in `IDLE`. -/
theorem client_falls_out_of_step :
    (dialogueMachine.execute opened
      [.command noFaults (.move [⟨2, 2⟩, ⟨1, 1⟩] false (ascii "Archive"))]).map bothSides =
        some ([some 2], some []) ∧
    (dialogueMachine.execute opened
      [.command noFaults .idle, .change removedElsewhere, .command noFaults .poll,
        .command noFaults .done]).map bothSides =
      some ([some 1, some 2], some [2]) := by
  decide +kernel

def deliveredElsewhere (store : MailStore) : MailStore :=
  committed store ((store.insertMessage 7 0 [] [] [{ mailboxID := 1 }]).map Prod.snd)

def expungeAndIdle : List Label :=
  [.command noFaults .expunge, .command noFaults .idle,
    .change (deliveredElsewhere removedElsewhere), .command noFaults .poll, .command noFaults .done]

theorem sequence_numbers_stay_in_step_over_expunge_and_delivery :
    ∃ final, dialogueMachine.execute opened expungeAndIdle = some final ∧
      bothSides final = ([some 2, none], some [2, 3]) ∧
      ∃ sel, final.session.sel = some sel ∧ InStep final.client (sel.msgs.map MessageMailbox.uid) := by
  have sides : (dialogueMachine.execute opened expungeAndIdle).map bothSides =
      some ([some 2, none], some [2, 3]) := by decide +kernel
  obtain ⟨final, ran, both⟩ := Option.map_eq_some_iff.mp sides
  refine ⟨final, ran, both, sequence_numbers_stay_in_step opened final
    (selectMailbox twoMailboxes
      { id := 1, principalID := 7, name := ascii "INBOX", uidNext := 3 } false)
    expungeAndIdle ?_ ?_ ?_ ?_ ?_ ran⟩
  · rfl
  · exact twoMailboxes.list_all_messages_eq 1
  · decide +kernel
  · decide
  · decide +kernel

end Herold.Imap

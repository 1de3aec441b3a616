import Herold.Imap.Search

/-!
# Narrowing a SEARCH by the index

`handleSEARCH` collects the text keys of the whole criteria, those under `NOT` and
`OR` included, into one query and looks only at the messages that satisfy all of
them. What it would find without the index is stated with a text key that holds
when the index or the check in memory says so. `TreeSuits` is what the narrowing
asks of the criteria, whatever the mailbox, and `IndexSuits` what it asks of the
index over a mailbox, whatever the criteria.
-/

namespace Herold.Imap

open Herold.Go Herold.Store

variable (index : Index) (fails : Bool) (mailbox : List SearchMessage) (criteria : SearchCriteria)

def heldOrIndexed (message : SearchMessage) (key : TextKey) : Bool :=
  heldInMemory message key || key.term.any fun term => index term message.id

/-- What `SEARCH` finds among all messages of the mailbox. -/
def searchUnnarrowed : List Nat :=
  ((mailbox.zipIdx 1).filter fun (message, seq) =>
    evalBy (heldOrIndexed index) message seq criteria).map Prod.snd

mutual

/-- The text keys of every branch. -/
def SearchCriteria.keys : SearchCriteria → List TextKey
  | .mk own not or => own.textKeys ++ keysOfAll not ++ keysOfPairs or

def keysOfAll : List SearchCriteria → List TextKey
  | [] => []
  | criteria :: others => criteria.keys ++ keysOfAll others

def keysOfPairs : List (SearchCriteria × SearchCriteria) → List TextKey
  | [] => []
  | (left, right) :: others => left.keys ++ right.keys ++ keysOfPairs others

end

mutual

/-- What the criteria mean: every key given is met, no negated branch, and one
branch of each `OR`. -/
def Meets (message : SearchMessage) (seq : Nat) : SearchCriteria → Prop
  | .mk own not or => own.holds heldInMemory message seq = true ∧ MeetsNone message seq not ∧
      MeetsEach message seq or

def MeetsNone (message : SearchMessage) (seq : Nat) : List SearchCriteria → Prop
  | [] => True
  | criteria :: others => ¬Meets message seq criteria ∧ MeetsNone message seq others

def MeetsEach (message : SearchMessage) (seq : Nat) :
    List (SearchCriteria × SearchCriteria) → Prop
  | [] => True
  | (left, right) :: others =>
    (Meets message seq left ∨ Meets message seq right) ∧ MeetsEach message seq others

end

/-- The message holds every text key of the tree that the index knows. -/
def HoldsKeys (message : SearchMessage) : Prop :=
  ∀ key ∈ criteria.keys, ∀ term, key.term = some term → heldInMemory message key = true

/-- Keys that share a term of the tree, such as `TO x` and `CC x`, are held alike. -/
def KeysAlike (message : SearchMessage) : Prop :=
  ∀ key ∈ criteria.keys, ∀ other term, key.term = some term → other.term = some term →
    heldInMemory message other = heldInMemory message key

/-- To meet the criteria takes all text keys of the tree, or no message holds them
all. -/
def TreeSuits : Prop :=
  (∀ message seq, 0 < seq → KeysAlike criteria message → Meets message seq criteria →
    HoldsKeys criteria message) ∨
  ∀ message, KeysAlike criteria message → ¬HoldsKeys criteria message

/-- The index names only messages whose text keys hold in memory, and all of those,
unless it fails or names none at all for the term. -/
def IndexSuits : Prop :=
  ∀ message ∈ mailbox, ∀ key term, key.term = some term →
    (index term message.id = true → heldInMemory message key = true) ∧
    (heldInMemory message key = true →
      index term message.id = true ∨ fails = true ∨ ∀ other ∈ mailbox, index term other.id = false)

def IsHit (message : SearchMessage) : Prop :=
  ∀ term ∈ collectText criteria, index term message.id = true

def Narrowed : Prop :=
  hasTextPredicate criteria = true ∧ fails = false ∧ ∃ message ∈ mailbox, IsHit index criteria message

/-- Each message that satisfies the criteria is a hit, and the check in memory
decides the messages that are looked at as the index does. -/
def NarrowsSafely : Prop :=
  ∀ message seq, (message, seq) ∈ mailbox.zipIdx 1 →
    (Narrowed index fails mailbox criteria → evalBy (heldOrIndexed index) message seq criteria = true →
      IsHit index criteria message) ∧
    ((Narrowed index fails mailbox criteria → IsHit index criteria message) →
      evalSearch criteria message seq = evalBy (heldOrIndexed index) message seq criteria)

theorem mem_query_hits (message : SearchMessage) (member : message ∈ mailbox) :
    message.id ∈ ((mailbox.filter fun message =>
        (collectText criteria).all fun term => index term message.id).map (·.id)) ↔
      IsHit index criteria message := by
  rw [List.mem_map]
  constructor
  · rintro ⟨other, found, same⟩
    have all := (List.mem_filter.mp found).2
    rw [same, List.all_eq_true] at all
    exact all
  · intro hit
    refine ⟨message, List.mem_filter.mpr ⟨member, ?_⟩, rfl⟩
    rw [List.all_eq_true]
    exact hit

/-- A message is looked at unless the index has hits and it is none of them. -/
theorem looked_at_iff (message : SearchMessage) (member : message ∈ mailbox) :
    (candidates index fails mailbox criteria).all (fun hits => hits.contains message.id) = true ↔
      (Narrowed index fails mailbox criteria → IsHit index criteria message) := by
  have found := mem_query_hits index mailbox criteria
  unfold candidates Narrowed
  by_cases text : hasTextPredicate criteria = true
  · rw [if_pos text]
    unfold query
    cases fails with
    | true => simp
    | false =>
      rw [if_neg Bool.false_ne_true]
      generalize hits : ((mailbox.filter fun message =>
        (collectText criteria).all fun term => index term message.id).map (·.id)) = ids at found
      cases ids with
      | nil =>
        have none : ∀ other ∈ mailbox, ¬IsHit index criteria other := by
          intro other listed hit
          exact List.not_mem_nil ((found other listed).mpr hit)
        simp only [Option.all_none, true_iff]
        rintro ⟨_, _, other, listed, hit⟩
        exact absurd hit (none other listed)
      | cons first rest =>
        have some : ∃ other ∈ mailbox, IsHit index criteria other := by
          have here : first ∈ ((mailbox.filter fun message =>
              (collectText criteria).all fun term => index term message.id).map (·.id)) := by
            rw [hits]
            exact List.mem_cons_self
          obtain ⟨other, filtered, _⟩ := List.mem_map.mp here
          obtain ⟨listed, all⟩ := List.mem_filter.mp filtered
          exact ⟨other, listed, List.all_eq_true.mp all⟩
        simp only [Option.all_some, List.contains_iff_mem, found message member, text, some,
          true_and, true_implies]
  · rw [if_neg text]
    simp [text]

theorem zip_index_unique (message other : SearchMessage) (seq : Nat)
    (first : (message, seq) ∈ mailbox.zipIdx 1) (second : (other, seq) ∈ mailbox.zipIdx 1) :
    message = other := by
  have here := (List.mk_mem_zipIdx_iff_le_and_getElem?_sub.mp first).2
  have there := (List.mk_mem_zipIdx_iff_le_and_getElem?_sub.mp second).2
  rw [here, Option.some.injEq] at there
  exact there

/-- Two filters keep the same sequence numbers exactly when they agree on every
message. -/
theorem kept_seqs_eq_iff (left right : SearchMessage × Nat → Bool) :
    ((mailbox.zipIdx 1).filter left).map Prod.snd = ((mailbox.zipIdx 1).filter right).map Prod.snd ↔
      ∀ message seq, (message, seq) ∈ mailbox.zipIdx 1 →
      left (message, seq) = right (message, seq) := by
  constructor
  · intro same message seq member
    have kept : ∀ keep : SearchMessage × Nat → Bool,
        seq ∈ ((mailbox.zipIdx 1).filter keep).map Prod.snd ↔ keep (message, seq) = true := by
      intro keep
      rw [List.mem_map]
      constructor
      · rintro ⟨⟨other, place⟩, listed, rfl⟩
        obtain ⟨inside, holds⟩ := List.mem_filter.mp listed
        rwa [zip_index_unique mailbox message other place member inside]
      · intro holds
        exact ⟨(message, seq), List.mem_filter.mpr ⟨member, holds⟩, rfl⟩
    rw [Bool.eq_iff_iff, ← kept left, ← kept right, same]
  · intro agree
    congr 1
    apply List.filter_congr
    rintro ⟨message, seq⟩ member
    exact agree message seq member

theorem narrows_safely_iff :
    handleSEARCH index fails mailbox criteria = searchUnnarrowed index mailbox criteria ↔
      NarrowsSafely index fails mailbox criteria := by
  unfold handleSEARCH searchUnnarrowed NarrowsSafely
  rw [kept_seqs_eq_iff]
  apply forall_congr'
  intro message
  apply forall_congr'
  intro seq
  apply forall_congr'
  intro member
  have inside : message ∈ mailbox := by
    have here := (List.mk_mem_zipIdx_iff_le_and_getElem?_sub.mp member).2
    exact List.mem_of_getElem? here
  have looked := looked_at_iff index fails mailbox criteria message inside
  by_cases chosen : Narrowed index fails mailbox criteria → IsHit index criteria message
  · simp only [looked.mpr chosen, Bool.true_and]
    constructor
    · intro same
      exact ⟨fun narrowed _ => chosen narrowed, fun _ => same⟩
    · exact fun both => both.2 chosen
  · have passed : (candidates index fails mailbox criteria).all
        (fun hits => hits.contains message.id) = false := by
      rw [Bool.eq_false_iff]
      exact fun all => chosen (looked.mp all)
    obtain ⟨narrowed, missed⟩ := Classical.not_imp.mp chosen
    simp only [passed, Bool.false_and, false_implies, and_true, narrowed, true_implies, missed]
    constructor
    · intro same holds
      rw [← same] at holds
      exact absurd holds (by decide)
    · intro never
      rw [eq_comm, Bool.eq_false_iff]
      exact never

mutual

theorem collect_text_keys : (criteria : SearchCriteria) →
    collectText criteria = criteria.keys.filterMap TextKey.term
  | .mk own not or => by
    rw [collectText, SearchCriteria.keys, collect_all_keys not, collect_pairs_keys or,
      List.filterMap_append, List.filterMap_append]

theorem collect_all_keys : (all : List SearchCriteria) →
    collectAll all = (keysOfAll all).filterMap TextKey.term
  | [] => rfl
  | criteria :: others => by
    rw [collectAll, keysOfAll, collect_text_keys criteria, collect_all_keys others,
      List.filterMap_append]

theorem collect_pairs_keys : (pairs : List (SearchCriteria × SearchCriteria)) →
    collectPairs pairs = (keysOfPairs pairs).filterMap TextKey.term
  | [] => rfl
  | (left, right) :: others => by
    rw [collectPairs, keysOfPairs, collect_text_keys left, collect_text_keys right,
      collect_pairs_keys others, List.filterMap_append, List.filterMap_append]

end

theorem is_hit_iff (message : SearchMessage) :
    IsHit index criteria message ↔
      ∀ key ∈ criteria.keys, ∀ term, key.term = some term → index term message.id = true := by
  rw [IsHit, collect_text_keys]
  constructor
  · intro hit key inside term isTerm
    exact hit term (List.mem_filterMap.mpr ⟨key, inside, isTerm⟩)
  · intro each term inside
    obtain ⟨key, listed, isTerm⟩ := List.mem_filterMap.mp inside
    exact each key listed term isTerm

theorem text_header_term (key value : Bytes) :
    isTextHeader key = true ↔ (TextKey.header key value).term ≠ none := by
  simp only [isTextHeader, TextKey.term]
  split
  · simp [*]
  · split
    · simp [*]
    · split
      · rename_i address
        simp [address, or_assoc]
      · rename_i other
        simp_all

theorem has_text_keys (fields : SearchFields) :
    fields.hasText = true ↔ ∃ key ∈ fields.textKeys, key.term ≠ none := by
  simp only [SearchFields.hasText, SearchFields.textKeys, Bool.or_eq_true, List.any_eq_true,
    List.mem_append, List.mem_map, Bool.not_eq_true', List.isEmpty_eq_false_iff_exists_mem]
  constructor
  · rintro ((⟨value, inside⟩ | ⟨value, inside⟩) | ⟨pair, inside, named⟩)
    · exact ⟨.body value, .inl (.inr ⟨value, inside, rfl⟩), by simp [TextKey.term]⟩
    · exact ⟨.text value, .inr ⟨value, inside, rfl⟩, by simp [TextKey.term]⟩
    · exact ⟨_, .inl (.inl ⟨pair, inside, rfl⟩), (text_header_term _ _).mp named⟩
  · rintro ⟨key, (⟨pair, inside, rfl⟩ | ⟨value, inside, rfl⟩) | ⟨value, inside, rfl⟩, known⟩
    · exact .inr ⟨pair, inside, (text_header_term _ _).mpr known⟩
    · exact .inl (.inl ⟨value, inside⟩)
    · exact .inl (.inr ⟨value, inside⟩)

mutual

theorem has_text_iff : (criteria : SearchCriteria) →
    (hasTextPredicate criteria = true ↔ ∃ key ∈ criteria.keys, key.term ≠ none)
  | .mk own not or => by
    simp only [hasTextPredicate, SearchCriteria.keys, Bool.or_eq_true, has_text_keys,
      any_has_text_iff not, any_pair_has_text_iff or, List.mem_append, or_and_right, exists_or]

theorem any_has_text_iff : (all : List SearchCriteria) →
    (anyHasText all = true ↔ ∃ key ∈ keysOfAll all, key.term ≠ none)
  | [] => by simp [anyHasText, keysOfAll]
  | criteria :: others => by
    simp only [anyHasText, keysOfAll, Bool.or_eq_true, has_text_iff criteria,
      any_has_text_iff others, List.mem_append, or_and_right, exists_or]

theorem any_pair_has_text_iff : (pairs : List (SearchCriteria × SearchCriteria)) →
    (anyPairHasText pairs = true ↔ ∃ key ∈ keysOfPairs pairs, key.term ≠ none)
  | [] => by simp [anyPairHasText, keysOfPairs]
  | (left, right) :: others => by
    simp only [anyPairHasText, keysOfPairs, Bool.or_eq_true, has_text_iff left, has_text_iff right,
      any_pair_has_text_iff others, List.mem_append, or_and_right, exists_or]

end

section

variable (held : SearchMessage → TextKey → Bool) (message : SearchMessage) (id seq : Nat)

mutual

/-- Where the keys are held as in memory, the evaluation says what the criteria mean,
under any identifier of the message. -/
theorem eval_by_meets (agree : ∀ key, held { message with id := id } key = heldInMemory message key) :
    (criteria : SearchCriteria) →
    (evalBy held { message with id := id } seq criteria = true ↔ Meets message seq criteria)
  | .mk own not or => by
    have same : own.holds held { message with id := id } seq = own.holds heldInMemory message seq := by
      simp only [SearchFields.holds, funext agree]
      rfl
    rw [evalBy, Meets, same, Bool.and_eq_true, Bool.and_eq_true,
      none_holds_meets agree not, each_holds_meets agree or, and_assoc]

theorem none_holds_meets (agree : ∀ key, held { message with id := id } key = heldInMemory message key) :
    (all : List SearchCriteria) →
    (noneHolds held { message with id := id } seq all = true ↔ MeetsNone message seq all)
  | [] => by simp [noneHolds, MeetsNone]
  | criteria :: others => by
    rw [noneHolds, MeetsNone, Bool.and_eq_true, Bool.not_eq_true', ← Bool.not_eq_true,
      eval_by_meets agree criteria, none_holds_meets agree others]

theorem each_holds_meets (agree : ∀ key, held { message with id := id } key = heldInMemory message key) :
    (pairs : List (SearchCriteria × SearchCriteria)) →
    (eachHolds held { message with id := id } seq pairs = true ↔ MeetsEach message seq pairs)
  | [] => by simp [eachHolds, MeetsEach]
  | (left, right) :: others => by
    rw [eachHolds, MeetsEach, Bool.and_eq_true, Bool.or_eq_true,
      eval_by_meets agree left, eval_by_meets agree right, each_holds_meets agree others]

end

end

/-- Criteria with every text key outside `NOT` and `OR` suit. -/
theorem conjunctive_suits (own : SearchFields) (not : List SearchCriteria)
    (or : List (SearchCriteria × SearchCriteria))
    (outside : ∀ key ∈ keysOfAll not ++ keysOfPairs or, key.term = none) :
    TreeSuits (.mk own not or) := by
  left
  intro message seq _ _ meets key inside term isTerm
  rw [SearchCriteria.keys, List.append_assoc, List.mem_append] at inside
  rcases inside with inOwn | nested
  · have holds := meets.1
    rw [SearchFields.holds, Bool.and_eq_true] at holds
    exact List.all_eq_true.mp holds.2 key inOwn
  · rw [outside key nested] at isTerm
    cases isTerm

section

variable {index fails mailbox criteria}

theorem suited_held (suited : IndexSuits index fails mailbox) (message : SearchMessage)
    (member : message ∈ mailbox) (key : TextKey) :
    heldOrIndexed index message key = heldInMemory message key := by
  rw [heldOrIndexed, Bool.eq_iff_iff, Bool.or_eq_true, or_iff_left_iff_imp]
  intro named
  cases isTerm : key.term with
  | none => simp [isTerm] at named
  | some term =>
    rw [isTerm, Option.any_some] at named
    exact (suited message member key term isTerm).1 named

/-- Once some message is a hit, the index and the memory agree on every term. -/
theorem suited_named (suited : IndexSuits index fails mailbox)
    (narrowed : Narrowed index fails mailbox criteria) (message : SearchMessage)
    (member : message ∈ mailbox) (key : TextKey) (inside : key ∈ criteria.keys) (other : TextKey)
    (term : Term) (isTerm : key.term = some term) (same : other.term = some term) :
    heldInMemory message other = index term message.id := by
  obtain ⟨_, answers, hit, listed, isHit⟩ := narrowed
  have named := (is_hit_iff index criteria hit).mp isHit key inside term isTerm
  have both := suited message member other term same
  rw [Bool.eq_iff_iff]
  refine ⟨fun held => ?_, both.1⟩
  rcases both.2 held with indexed | failed | silent
  · exact indexed
  · rw [answers] at failed
    cases failed
  · rw [silent hit listed] at named
    cases named

theorem suited_alike (suited : IndexSuits index fails mailbox)
    (narrowed : Narrowed index fails mailbox criteria) (message : SearchMessage)
    (member : message ∈ mailbox) : KeysAlike criteria message := by
  intro key inside other term isTerm same
  rw [suited_named suited narrowed message member key inside other term isTerm same,
    suited_named suited narrowed message member key inside key term isTerm isTerm]

theorem suited_hit (suited : IndexSuits index fails mailbox)
    (narrowed : Narrowed index fails mailbox criteria) (message : SearchMessage)
    (member : message ∈ mailbox) : IsHit index criteria message ↔ HoldsKeys criteria message := by
  rw [is_hit_iff]
  apply forall_congr'
  intro key
  apply forall_congr'
  intro inside
  apply forall_congr'
  intro term
  apply forall_congr'
  intro isTerm
  rw [suited_named suited narrowed message member key inside key term isTerm isTerm]

theorem mem_mailbox_of_zip {message : SearchMessage} {seq : Nat}
    (member : (message, seq) ∈ mailbox.zipIdx 1) : message ∈ mailbox ∧ 0 < seq := by
  have here := List.mk_mem_zipIdx_iff_le_and_getElem?_sub.mp member
  exact ⟨List.mem_of_getElem? here.2, here.1⟩

/-- Over suited criteria and a suited index the narrowing loses and adds nothing. -/
theorem suited_search_sound (tree : TreeSuits criteria) (suited : IndexSuits index fails mailbox) :
    handleSEARCH index fails mailbox criteria = searchUnnarrowed index mailbox criteria := by
  rw [narrows_safely_iff]
  intro message seq listed
  obtain ⟨member, positive⟩ := mem_mailbox_of_zip listed
  have indexed := eval_by_meets (heldOrIndexed index) message message.id seq
    (suited_held suited message member) criteria
  have inMemory := eval_by_meets heldInMemory message message.id seq (fun _ => rfl) criteria
  refine ⟨fun narrowed holds => ?_, fun _ => ?_⟩
  · rw [suited_hit suited narrowed message member]
    have alike := suited_alike suited narrowed
    rcases tree with entailed | never
    · exact entailed message seq positive (alike message member) (indexed.mp holds)
    · obtain ⟨_, _, hit, isListed, isHit⟩ := id narrowed
      exact absurd ((suited_hit suited narrowed hit isListed).mp isHit) (never hit (alike hit isListed))
  · rw [evalSearch, Bool.eq_iff_iff]
    exact inMemory.trans indexed.symm

end

/-- The criteria of one text key. -/
def askedAlone : TextKey → SearchCriteria
  | .header key value => .mk { header := [(key, value)] } [] []
  | .body value => .mk { body := [value] } [] []
  | .text value => .mk { text := [value] } [] []

@[simp] theorem asked_alone_keys (key : TextKey) : (askedAlone key).keys = [key] := by
  cases key <;> rfl

theorem asked_alone_suits (key : TextKey) : TreeSuits (askedAlone key) := by
  cases key <;> exact conjunctive_suits _ [] [] (by simp [keysOfAll, keysOfPairs])

theorem asked_alone_eval (held : SearchMessage → TextKey → Bool) (message : SearchMessage) (seq : Nat)
    (key : TextKey) : evalBy held message seq (askedAlone key) = held message key := by
  cases key <;> simp [askedAlone, evalBy, SearchFields.holds, SearchFields.textKeys,
    noneHolds, eachHolds]

theorem asked_alone_hit (message : SearchMessage) (key : TextKey) (term : Term)
    (isTerm : key.term = some term) :
    IsHit index (askedAlone key) message ↔ index term message.id = true := by
  simp only [is_hit_iff, asked_alone_keys, List.forall_mem_singleton, isTerm, Option.some.injEq,
    forall_eq']

theorem asked_alone_narrowed (key : TextKey) (term : Term) (isTerm : key.term = some term) :
    Narrowed index fails mailbox (askedAlone key) ↔
      fails = false ∧ ∃ message ∈ mailbox, index term message.id = true := by
  have asks : hasTextPredicate (askedAlone key) = true := by simp [has_text_iff, isTerm]
  simp only [Narrowed, asks, true_and, asked_alone_hit index _ key term isTerm]

/-- An index on which every single text key is searched soundly suits. -/
theorem sound_index_suits
    (sound : ∀ criteria, TreeSuits criteria →
      handleSEARCH index fails mailbox criteria = searchUnnarrowed index mailbox criteria) :
    IndexSuits index fails mailbox := by
  intro message member key term isTerm
  have safe := (narrows_safely_iff index fails mailbox (askedAlone key)).mp
    (sound _ (asked_alone_suits key))
  obtain ⟨place, isMessage⟩ := List.mem_iff_getElem?.mp member
  have listed : (message, place + 1) ∈ mailbox.zipIdx 1 :=
    List.mk_mem_zipIdx_iff_le_and_getElem?_sub.mpr ⟨by omega, by simpa using isMessage⟩
  obtain ⟨kept, decided⟩ := safe message (place + 1) listed
  rw [asked_alone_narrowed index fails mailbox key term isTerm,
    asked_alone_hit index message key term isTerm] at kept decided
  rw [evalSearch, asked_alone_eval, asked_alone_eval] at decided
  rw [asked_alone_eval] at kept
  constructor
  · intro named
    rw [decided fun _ => named, heldOrIndexed, isTerm, Option.any_some, named, Bool.or_true]
  · intro held
    rcases Bool.eq_false_or_eq_true fails with failed | answers
    · exact .inr (.inl failed)
    · by_cases any : ∃ other ∈ mailbox, index term other.id = true
      · left
        exact kept ⟨answers, any⟩ (by rw [heldOrIndexed, held, Bool.true_or])
      · refine .inr (.inr fun other inside => ?_)
        rw [Bool.eq_false_iff]
        exact fun named => any ⟨other, inside, named⟩

section

variable (missed hit : SearchMessage) (seq : Nat)

/-- Copies of the one message with the other in one place, each under its index. -/
def placedAt (place : Nat) : SearchMessage :=
  if place + 1 = seq then { missed with id := place } else { hit with id := place }

def besideHits : List SearchMessage := (List.range (seq + 1)).map (placedAt missed hit seq)

/-- The index that agrees with the memory on the terms of the criteria. -/
def agreeingIndex : Index := fun term place =>
  criteria.keys.any fun key => key.term = some term && heldInMemory (placedAt missed hit seq place) key

@[simp] theorem placed_at_id (place : Nat) : (placedAt missed hit seq place).id = place := by
  unfold placedAt
  split <;> rfl

theorem held_under_id (message : SearchMessage) (id : Nat) (key : TextKey) :
    heldInMemory { message with id := id } key = heldInMemory message key := by
  cases key <;> rfl

theorem placed_at_held (place : Nat) :
    (∀ key, heldInMemory (placedAt missed hit seq place) key = heldInMemory missed key) ∨
      ∀ key, heldInMemory (placedAt missed hit seq place) key = heldInMemory hit key := by
  unfold placedAt
  split
  · exact .inl (held_under_id missed place)
  · exact .inr (held_under_id hit place)

variable {missed hit}

theorem placed_at_alike (oneAlike : KeysAlike criteria missed) (otherAlike : KeysAlike criteria hit)
    (place : Nat) : KeysAlike criteria (placedAt missed hit seq place) := by
  intro key inside other term isTerm same
  rcases placed_at_held missed hit seq place with asMissed | asHit
  · rw [asMissed, asMissed]
    exact oneAlike key inside other term isTerm same
  · rw [asHit, asHit]
    exact otherAlike key inside other term isTerm same

theorem agreeing_index_held (oneAlike : KeysAlike criteria missed) (otherAlike : KeysAlike criteria hit)
    (place : Nat) (key : TextKey) (inside : key ∈ criteria.keys) (term : Term)
    (isTerm : key.term = some term) :
    agreeingIndex criteria missed hit seq term place =
      heldInMemory (placedAt missed hit seq place) key := by
  have alike := placed_at_alike criteria seq oneAlike otherAlike place
  rw [agreeingIndex, Bool.eq_iff_iff, List.any_eq_true]
  constructor
  · rintro ⟨other, listed, named⟩
    rw [Bool.and_eq_true, decide_eq_true_iff] at named
    rw [← alike key inside other term isTerm named.1]
    exact named.2
  · intro held
    exact ⟨key, inside, by rw [Bool.and_eq_true, decide_eq_true_iff]; exact ⟨isTerm, held⟩⟩

theorem agreeing_index_suits (oneAlike : KeysAlike criteria missed)
    (otherAlike : KeysAlike criteria hit) :
    IndexSuits (agreeingIndex criteria missed hit seq) false (besideHits missed hit seq) := by
  intro message member key term isTerm
  obtain ⟨place, _, rfl⟩ := List.mem_map.mp member
  rw [placed_at_id]
  have alike := placed_at_alike criteria seq oneAlike otherAlike place
  by_cases known : ∃ asked ∈ criteria.keys, asked.term = some term
  · obtain ⟨asked, inside, isAsked⟩ := known
    rw [agreeing_index_held criteria seq oneAlike otherAlike place asked inside term isAsked,
      alike asked inside key term isAsked isTerm]
    exact ⟨id, .inl⟩
  · have silent (other : Nat) : agreeingIndex criteria missed hit seq term other = false := by
      rw [agreeingIndex, List.any_eq_false]
      intro asked inside named
      rw [Bool.and_eq_true, decide_eq_true_iff] at named
      exact known ⟨asked, inside, named.1⟩
    rw [silent place]
    exact ⟨fun named => (Bool.false_ne_true named).elim, fun _ =>
      .inr (.inr fun other _ => silent other.id)⟩

/-- Criteria that one message meets without all their text keys, while another holds
them all, lose the first beside the second. -/
theorem unsuited_search_loses (positive : 0 < seq) (oneAlike : KeysAlike criteria missed)
    (otherAlike : KeysAlike criteria hit) (meets : Meets missed seq criteria)
    (lacks : ¬HoldsKeys criteria missed) (holds : HoldsKeys criteria hit) :
    handleSEARCH (agreeingIndex criteria missed hit seq) false (besideHits missed hit seq) criteria ≠
      searchUnnarrowed (agreeingIndex criteria missed hit seq) (besideHits missed hit seq)
        criteria := by
  have suited := agreeing_index_suits criteria seq oneAlike otherAlike
  have atLast : placedAt missed hit seq seq ∈ besideHits missed hit seq :=
    List.mem_map_of_mem (List.mem_range.mpr (Nat.lt_succ_self seq))
  have inside : placedAt missed hit seq (seq - 1) ∈ besideHits missed hit seq :=
    List.mem_map_of_mem (List.mem_range.mpr (by omega))
  have isMissed : placedAt missed hit seq (seq - 1) = { missed with id := seq - 1 } := by
    rw [placedAt, if_pos (by omega)]
  have isHit : placedAt missed hit seq seq = { hit with id := seq } := by
    rw [placedAt, if_neg (by omega)]
  have listed : (placedAt missed hit seq (seq - 1), seq) ∈ (besideHits missed hit seq).zipIdx 1 := by
    refine List.mk_mem_zipIdx_iff_le_and_getElem?_sub.mpr ⟨positive, ?_⟩
    rw [besideHits, List.getElem?_map, List.getElem?_range (by omega), Option.map_some]
  obtain ⟨key, known, term, isTerm, unheld⟩ : ∃ key ∈ criteria.keys, ∃ term, key.term = some term ∧
      heldInMemory missed key ≠ true := by
    simpa only [HoldsKeys, not_forall, exists_prop] using lacks
  have named (place : Nat) := agreeing_index_held criteria seq oneAlike otherAlike place
  have narrowed : Narrowed (agreeingIndex criteria missed hit seq) false (besideHits missed hit seq)
      criteria := by
    refine ⟨(has_text_iff criteria).mpr ⟨key, known, by simp [isTerm]⟩, rfl, _, atLast, ?_⟩
    rw [is_hit_iff, placed_at_id]
    intro other asked otherTerm isOther
    rw [named seq other asked otherTerm isOther, isHit, held_under_id]
    exact holds other asked otherTerm isOther
  have satisfied : evalBy (heldOrIndexed (agreeingIndex criteria missed hit seq))
      (placedAt missed hit seq (seq - 1)) seq criteria = true := by
    have held := suited_held suited _ inside
    rw [isMissed] at held ⊢
    refine (eval_by_meets _ missed (seq - 1) seq (fun other => ?_) criteria).mpr meets
    rw [held, held_under_id]
  intro same
  have lost := ((narrows_safely_iff _ _ _ _).mp same _ seq listed).1 narrowed satisfied
  rw [is_hit_iff, placed_at_id] at lost
  have found := lost key known term isTerm
  rw [named (seq - 1) key known term isTerm, isMissed, held_under_id] at found
  exact unheld found

end

theorem beside_hits_distinct (missed hit : SearchMessage) (seq : Nat) :
    ((besideHits missed hit seq).map (·.id)).Nodup := by
  have places : (besideHits missed hit seq).map (·.id) = List.range (seq + 1) := by
    rw [besideHits, List.map_map]
    conv_rhs => rw [← List.map_id (List.range (seq + 1))]
    exact List.map_congr_left fun place _ => placed_at_id missed hit seq place
  rw [places]
  exact List.nodup_range

/-- The criteria suit exactly when `handleSEARCH` finds what it would find without the
index whatever the mailbox and the index that suits it; and the index suits exactly when
it does so whatever the criteria that suit. -/
theorem search_narrowing_sound_iff (criteria : SearchCriteria) (index : Index) (fails : Bool)
    (mailbox : List SearchMessage) :
    (TreeSuits criteria ↔ ∀ index fails mailbox, (mailbox.map (·.id)).Nodup →
      IndexSuits index fails mailbox →
        handleSEARCH index fails mailbox criteria = searchUnnarrowed index mailbox criteria) ∧
    (IndexSuits index fails mailbox ↔ ∀ criteria, TreeSuits criteria →
      handleSEARCH index fails mailbox criteria = searchUnnarrowed index mailbox criteria) := by
  refine ⟨⟨fun tree _ _ _ _ suited => suited_search_sound tree suited, fun sound => ?_⟩,
    fun suited _ tree => suited_search_sound tree suited, sound_index_suits index fails mailbox⟩
  by_contra unsuited
  obtain ⟨loses, held⟩ := not_or.mp unsuited
  simp only [not_forall, exists_prop, not_not] at loses held
  obtain ⟨missed, seq, positive, oneAlike, meets, lacks⟩ := loses
  obtain ⟨hit, otherAlike, holds⟩ := held
  exact unsuited_search_loses criteria seq positive oneAlike otherAlike meets lacks holds
    (sound _ _ _ (beside_hits_distinct missed hit seq)
      (agreeing_index_suits criteria seq oneAlike otherAlike))

def plainMessage (id : Nat) (subject : String) : SearchMessage :=
  { id := id, uid := id, envelope := { subject := ascii subject } }

def subjectIndex (mailbox : List SearchMessage) : Index := fun term message =>
  mailbox.any fun stored => stored.id = message && containsLower stored.envelope.subject term.2

/-- `NOT BODY "x"` is asked for the message without the text, and the query keeps
only the one with it. -/
theorem negated_text_key_loses_messages :
    let mailbox := [plainMessage 1 "x", plainMessage 2 "y"]
    let criteria : SearchCriteria := .mk {} [.mk { body := [ascii "x"] } [] []] []
    handleSEARCH (subjectIndex mailbox) false mailbox criteria = [] ∧
      searchUnnarrowed (subjectIndex mailbox) mailbox criteria = [2] := by
  decide +kernel

end Herold.Imap

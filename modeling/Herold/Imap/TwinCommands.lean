import Herold.Imap.TwinTokens
import Herold.Imap.CommandLine

/-!
# Commands that differ in their literals

Every argument parser decides the same on two matching lines. So `parseCommand`
reads the same tag and verb from both, or fails on both in the same way.
-/

namespace Herold.Imap

open Herold.Go Herold.Machine

variable {Value Other Result Final : Type} {values : Value → Other → Prop}
  {results : Result → Final → Prop} {least : Nat}

def Twins (least : Nat) (values : Value → Other → Prop) (left : Parse Value) (right : Parse Other) :
    Prop :=
  ∀ p q, Matching p q → Tame least values left right p q

theorem twins_pure {value : Value} {other : Other} (corresponds : values value other) :
    Twins 0 values (pure value) (pure other) := fun _ _ matching => tame_pure matching corresponds

theorem twins_throw {failure : ParseError} (settled : failure ≠ .starved) :
    Twins least values (throw failure : Parse Value) (throw failure : Parse Other) :=
  fun _ _ _ => tame_throw settled

section

variable {left : Parse Value} {right : Parse Other}

theorem twins_first {next : Value → Parse Result}
    {after : Other → Parse Final} (first : Twins least values left right)
    (continues : ∀ value other, values value other → Twins 0 results (next value) (after other)) :
    Twins least results (left >>= next) (right >>= after) := by
  intro p q matching
  refine tame_bind 0 (first p q matching) ?_
  intro value other reached twin corresponds matching _
  exact continues value other corresponds reached twin matching

theorem twins_then {next : Value → Parse Result}
    {after : Other → Parse Final} (first : Twins least values left right)
    (continues : ∀ value other, values value other → Twins 0 results (next value) (after other)) :
    Twins 0 results (left >>= next) (right >>= after) := by
  intro p q matching
  exact tame_less (twins_first first continues p q matching) (Nat.zero_le _)

theorem twins_ite {condition : Prop} [Decidable condition] {left left' : Parse Value}
    {right right' : Parse Other} (positive : Twins least values left right)
    (negative : Twins least values left' right') :
    Twins least values (if condition then left else left') (if condition then right else right') := by
  split
  · exact positive
  · exact negative

theorem twins_less (twins : Twins least values left right) :
    Twins 0 values left right := fun p q matching => tame_less (twins p q matching) (Nat.zero_le _)

theorem twins_loose {left right : Parse Value} {strict : Value → Value → Prop}
    (twins : Twins least strict left right) : Twins least Loose left right :=
  fun p q matching => tame_loose (twins p q matching)

theorem twins_if_next {byte : UInt8} {found other : Parse Value} {found' other' : Parse Other}
    (positive : Twins least values found found') (negative : Twins least values other other') :
    Twins least values (ifNext byte found other) (ifNext byte found' other') := by
  intro p q matching
  apply if_next_tame matching
  · intro _
    exact positive p q matching
  · exact negative p q matching

theorem twins_spaced (twins : Twins least values left right) :
    Twins least values (do skipSP; left) (do skipSP; right) := by
  intro p q matching
  refine tame_less (tame_bind least (skip_sp_tamed p q matching) ?_) (by omega)
  intro _ _ reached twin _ matching _
  exact twins reached twin matching

theorem twins_map {left right : Parse Value} {make make' : Value → Result}
    (twins : Twins least Loose left right) :
    Twins least Loose (do let value ← left; pure (make value))
      (do let value ← right; pure (make' value)) := by
  apply twins_first twins
  intro _ _ _
  exact twins_pure trivial

theorem twins_advance (twins : Twins 0 values left right) :
    Twins 0 values (do advance; left) (do advance; right) := by
  apply twins_then advance_tamed
  intro _ _ _
  exact twins

end

theorem twins_rounds {loop loop' : Nat → Parse Value}
    (tame : ∀ fuel p q, Matching p q → p.src.length < fuel →
      Tame 0 Loose (loop fuel) (loop' fuel) p q) :
    Twins 0 Loose (rounds >>= loop) (rounds >>= loop') :=
  fun _ _ matching => rounds_bind_tame tame matching

theorem twins_optional {byte : UInt8} {left right : Parse Value} {make make' : Value → Result}
    {absent absent' : Result} {strict : Value → Value → Prop} (twins : Twins least strict left right) :
    Twins 0 Loose (ifNext byte (do let value ← left; skipSP; pure (make value)) (pure absent))
      (ifNext byte (do let value ← right; skipSP; pure (make' value)) (pure absent')) := by
  apply twins_if_next
  · apply twins_then twins
    intro _ _ _
    exact twins_spaced (twins_pure trivial)
  · exact twins_pure trivial

theorem closing_tame {close close' round round' : Parse Value} {p q : Parser} (matching : Matching p q)
    (closes : Twins 0 Loose close close')
    (continues : ∀ p' q', Matching p' q' → p'.src.length ≤ p.src.length →
      Tame 0 Loose round round' p' q') :
    Tame 0 Loose (do skipSP; ifNext 41 close round) (do skipSP; ifNext 41 close' round') p q := by
  refine tame_bind 0 (skip_sp_tamed p q matching) ?_
  intro _ _ reached twin _ matching shorter
  apply if_next_tame matching
  · intro _
    exact closes reached twin matching
  · exact continues reached twin matching (by omega)

section

variable (name : Bytes) (left right : FetchOptions)

theorem apply_fetch_item_twins :
    Twins 0 Loose (applyFetchItem name left) (applyFetchItem name right) := by
  unfold applyFetchItem
  repeat' first
    | apply twins_ite
    | exact twins_pure trivial
    | exact twins_throw (by simp)

theorem apply_fetch_macro_twins :
    Twins 0 Loose (applyFetchMacro name left) (applyFetchMacro name right) := by
  unfold applyFetchMacro
  apply twins_ite (twins_pure trivial)
  apply twins_ite (twins_pure trivial)
  apply twins_ite (twins_pure trivial)
  exact apply_fetch_item_twins name left right

theorem parse_part_twins (text : Bytes) : Twins 0 Loose (parsePart text) (parsePart text) := by
  unfold parsePart
  split
  · exact twins_pure trivial
  · exact twins_throw (by simp)

theorem header_fields_twins (left right : List Bytes → BodySection) :
    Twins 0 Loose (do skipSP; let fields ← readAtomList; pure (left fields))
      (do skipSP; let fields ← readAtomList; pure (right fields)) := by
  apply twins_then skip_sp_tamed
  intro _ _ _
  apply twins_then read_atom_list_tamed
  intro _ _ _
  exact twins_pure trivial

theorem parse_specifier_twins (left right : BodySection) :
    Twins 0 Loose (parseSpecifier left) (parseSpecifier right) := by
  unfold parseSpecifier
  apply twins_then (twins_if_next advance_tamed (twins_pure rfl))
  intro _ _ _
  apply twins_then read_atom_tamed
  rintro spec _ rfl
  apply twins_ite (twins_pure trivial)
  apply twins_ite (header_fields_twins _ _)
  apply twins_ite (header_fields_twins _ _)
  apply twins_ite (twins_pure trivial)
  apply twins_ite (twins_pure trivial)
  exact twins_throw (by simp)

theorem take_window_tamed : Tamed 0 Eq takeWindow := by
  intro p q matching
  unfold Tame takeWindow
  rw [← matching.src]
  split
  case h_1 spec rest found =>
    refine Agree.returned rfl ⟨matching_text matching _, ?_⟩
    have whole := cut_first_byte_splits 62 p.src spec rest found
    simp [whole]
    omega
  case h_2 => exact Agree.failed (by simp [Settled])

theorem parse_window_settled (spec : Bytes) (failure : ParseError)
    (failed : parseWindow spec = .error failure) : failure ≠ .starved := by
  rintro rfl
  unfold parseWindow at failed
  split at failed
  · split at failed <;> simp at failed
  · split at failed
    · split at failed <;> simp at failed
    · simp at failed
  · simp at failed

theorem parse_section_window_twins (wanted wanted' : BodySection) :
    Twins 0 Loose (parseSectionWindow left wanted) (parseSectionWindow right wanted') := by
  apply twins_advance
  apply twins_then take_window_tamed
  rintro spec _ rfl
  cases window : parseWindow spec with
  | ok window => exact twins_pure trivial
  | error failure => exact twins_throw (parse_window_settled spec failure window)

theorem parse_body_section_twins :
    Twins 0 Loose (parseBodySection name left) (parseBodySection name right) := by
  apply twins_then (expect_tamed 91)
  intro _ _ _
  apply twins_then (take_run_tamed _)
  rintro text _ rfl
  apply twins_then (parse_part_twins text)
  intro _ _ _
  apply twins_then (twins_if_next (twins_pure trivial) (parse_specifier_twins _ _))
  intro _ _ _
  apply twins_then (expect_tamed 93)
  intro _ _ _
  exact twins_if_next (parse_section_window_twins _ _ _ _) (twins_pure trivial)

theorem parse_fetch_item_twins : Twins 1 Loose (parseFetchItem left) (parseFetchItem right) := by
  apply twins_first read_atom_tamed
  rintro name _ rfl
  exact twins_if_next (parse_body_section_twins _ left right) (apply_fetch_item_twins _ left right)

theorem fetch_items_tame (fuel : Nat) (left right : FetchOptions) (p q : Parser)
    (matching : Matching p q) (enough : p.src.length < fuel) :
    Tame 0 Loose (fetchItems fuel left) (fetchItems fuel right) p q := by
  induction fuel generalizing left right p q with
  | zero => omega
  | succ fuel ih =>
    apply closing_tame matching (twins_advance (twins_pure trivial))
    intro p q matching shorter
    refine tame_less (tame_bind 0 (parse_fetch_item_twins left right p q matching) ?_) (Nat.zero_le _)
    intro _ _ p q _ matching taken
    exact ih _ _ p q matching (by omega)

theorem parse_fetch_item_list_twins :
    Twins 0 Loose (parseFetchItemList left) (parseFetchItemList right) := by
  apply twins_then (expect_tamed 40)
  intro _ _ _
  apply twins_rounds
  intro fuel p q matching enough
  exact fetch_items_tame fuel left right p q matching enough

end

section

variable (fuel : Nat) (raw : Bytes) (p q : Parser)

theorem fetch_tail_tame (left right : FetchOptions) (p q : Parser)
    (matching : Matching p q) (enough : p.src.length < fuel) :
    Tame 0 Loose (fetchTail fuel left) (fetchTail fuel right) p q := by
  induction fuel generalizing left right p q with
  | zero => omega
  | succ fuel ih =>
    apply closing_tame matching (twins_advance (twins_pure trivial))
    intro p q matching shorter
    refine tame_less (tame_bind 0 (read_atom_tamed p q matching) ?_) (Nat.zero_le _)
    rintro word _ p q rfl matching taken
    simp only
    split
    · refine tame_bind 0 (skip_sp_tamed p q matching) ?_
      intro _ _ p q _ matching fewer
      refine tame_bind 0 (read_num_tamed p q matching) ?_
      rintro number _ p q rfl matching still
      cases parseUint64 number with
      | some since => exact ih _ _ p q matching (by omega)
      | none => exact tame_throw (by simp)
    · exact ih _ _ p q matching (by omega)

theorem parse_single_item_twins : Twins 0 Loose parseSingleItem parseSingleItem := by
  apply twins_then read_atom_tamed
  rintro name _ rfl
  apply twins_ite
  · exact apply_fetch_macro_twins _ _ _
  · exact twins_if_next (parse_body_section_twins _ _ _) (apply_fetch_item_twins _ _ _)

theorem parse_fetch_twins : Twins 0 Loose parseFetch parseFetch := by
  apply twins_spaced
  apply twins_then parse_num_set_tamed
  intro _ _ _
  apply twins_spaced
  apply twins_then (twins_if_next (parse_fetch_item_list_twins _ _) parse_single_item_twins)
  intro left right _
  apply twins_spaced
  refine twins_map (twins_if_next (twins_advance (twins_rounds ?_)) (twins_pure trivial))
  intro fuel p q matching enough
  exact fetch_tail_tame fuel left right p q matching enough

theorem read_search_date_twins : Twins 0 Eq readSearchDate readSearchDate := by
  apply twins_then (twins_if_next (twins_less read_quoted_tamed) read_atom_or_empty_tamed)
  rintro raw _ rfl
  cases parseDay raw with
  | some date => exact twins_pure rfl
  | none => exact twins_throw (by simp)

theorem read_size_twins (make : Int → SearchKey) : Twins 0 Loose (readSize make) (readSize make) := by
  apply twins_spaced
  apply twins_then read_num_tamed
  rintro number _ rfl
  cases parseInt64 number with
  | some size => exact twins_pure trivial
  | none => exact twins_throw (by simp)

theorem read_uid_key_twins : Twins 0 Loose readUIDKey readUIDKey := by
  apply twins_spaced
  apply twins_then (take_run_tamed _)
  rintro text _ rfl
  apply twins_ite (twins_throw (by simp))
  cases readSet text with
  | some ranges => exact twins_pure trivial
  | none => exact twins_throw (by simp)

theorem read_entry_twins : Twins 0 Loose readEntry readEntry := by
  apply twins_then read_quoted_tamed
  intro _ _ _
  apply twins_spaced
  apply twins_then read_atom_or_empty_tamed
  intro _ _ _
  exact twins_loose skip_sp_tamed

theorem read_mod_seq_twins : Twins 0 Loose readModSeq readModSeq := by
  apply twins_spaced
  apply twins_then (twins_if_next read_entry_twins (twins_pure trivial))
  intro _ _ _
  apply twins_then read_num_tamed
  rintro number _ rfl
  cases parseUint64 number with
  | some modSeq => exact twins_pure trivial
  | none => exact twins_throw (by simp)

theorem read_seq_key_twins (token : Bytes) : Twins 0 Loose (readSeqKey token) (readSeqKey token) := by
  unfold readSeqKey
  cases readSet token with
  | some ranges => exact twins_pure trivial
  | none => exact twins_throw (by simp)

theorem key_argument_twins (make make' : Bytes → SearchKey) :
    Twins 0 Loose (do skipSP; let value ← readAstring; pure (make value))
      (do skipSP; let value ← readAstring; pure (make' value)) :=
  twins_spaced (twins_map (twins_less read_astring_tamed))

theorem key_header_twins :
    Twins 0 Loose
      (do skipSP; let key ← readAstring; skipSP; let value ← readAstring
          pure (SearchKey.text (.header key value)))
      (do skipSP; let key ← readAstring; skipSP; let value ← readAstring
          pure (SearchKey.text (.header key value))) := by
  apply twins_spaced
  apply twins_then read_astring_tamed
  intro left right _
  exact key_argument_twins (fun value => .text (.header left value)) fun value =>
    .text (.header right value)

theorem key_date_twins (make : Int → SearchKey) :
    Twins 0 Loose (do skipSP; let date ← readSearchDate; pure (make date))
      (do skipSP; let date ← readSearchDate; pure (make date)) :=
  twins_spaced (twins_map (twins_loose read_search_date_twins))

/-- A byte that stands next is taken by `advance`. -/
theorem advance_takes {p q : Parser} {byte : UInt8} (matching : Matching p q) (filled : byte ≠ 0)
    (next : p.src.headD 0 = byte) : Tame 1 Eq advance advance p q := by
  unfold Tame advance
  rw [← matching.src]
  refine Agree.returned rfl ⟨matching_text matching _, ?_⟩
  cases text : p.src with
  | nil => simp [text, filled.symm] at next
  | cons first rest => simp

/-- The depth of a term and of a group are bounded by what is left of the line; the
induction is on the fuel both share. -/
theorem search_term_tame (matching : Matching p q) :
    (2 * p.src.length < fuel → Tame 1 Loose (parseSearchTerm fuel) (parseSearchTerm fuel) p q) ∧
      (2 * p.src.length + 1 < fuel → Tame 0 Loose (parseGroup fuel) (parseGroup fuel) p q) := by
  induction fuel generalizing p q with
  | zero => exact ⟨by omega, by omega⟩
  | succ fuel ih =>
    constructor
    · intro enough
      unfold parseSearchTerm
      apply if_next_tame matching
      · intro next
        refine tame_bind 0 (advance_takes matching (by decide) next) ?_
        intro _ _ p' q' _ matching taken
        refine tame_bind 0 ((ih p' q' matching).2 (by omega)) ?_
        intro _ _ _ _ _ matching _
        exact tame_pure matching trivial
      · refine tame_bind 0 (read_atom_tamed p q matching) ?_
        rintro token _ p' q' rfl matching taken
        have deeper : ∀ p' q', Matching p' q' → p'.src.length + 1 ≤ p.src.length →
            Tame 0 Loose (parseSearchTerm fuel) (parseSearchTerm fuel) p' q' :=
          fun p' q' matching taken => tame_less ((ih p' q' matching).1 (by omega)) (Nat.zero_le _)
        cases keyShape (toUpper token) with
        | none => exact read_seq_key_twins token p' q' matching
        | some shape =>
          cases shape with
          | done key => exact tame_pure matching trivial
          | astring make => exact key_argument_twins make make p' q' matching
          | header => exact key_header_twins p' q' matching
          | size make => exact read_size_twins make p' q' matching
          | date make => exact key_date_twins make p' q' matching
          | uid => exact read_uid_key_twins p' q' matching
          | modSeq => exact read_mod_seq_twins p' q' matching
          | not =>
            refine tame_bind 0 (skip_sp_tamed p' q' matching) ?_
            intro _ _ p' q' _ matching fewer
            refine tame_bind 0 (deeper p' q' matching (by omega)) ?_
            intro _ _ _ _ _ matching _
            exact tame_pure matching trivial
          | or =>
            refine tame_bind 0 (skip_sp_tamed p' q' matching) ?_
            intro _ _ p' q' _ matching fewer
            refine tame_bind 0 (deeper p' q' matching (by omega)) ?_
            intro _ _ p' q' _ matching still
            refine tame_bind 0 (skip_sp_tamed p' q' matching) ?_
            intro _ _ p' q' _ matching less
            refine tame_bind 0 (deeper p' q' matching (by omega)) ?_
            intro _ _ _ _ _ matching _
            exact tame_pure matching trivial
    · intro enough
      unfold parseGroup
      apply closing_tame matching (twins_advance (twins_pure trivial))
      intro p' q' matching shorter
      refine tame_bind 0 (eof_tamed p' q' matching) ?_
      rintro ended _ p' q' rfl matching still
      split
      · exact tame_throw (by simp)
      · refine tame_less (tame_bind 0 ((ih p' q' matching).1 (by omega)) ?_) (Nat.zero_le _)
        intro _ _ p' q' _ matching taken
        refine tame_bind 0 ((ih p' q' matching).2 (by omega)) ?_
        intro _ _ _ _ _ matching _
        exact tame_pure matching trivial

theorem search_depth_tame (matching : Matching p q) :
    Tame 1 Loose (do parseSearchTerm (← searchTerms.searchDepth))
      (do parseSearchTerm (← searchTerms.searchDepth)) p q := by
  have come := (search_term_tame (2 * p.src.length + 2) p q matching).1 (by omega)
  unfold Tame at come ⊢
  simp only [bind, StateT.bind, searchTerms.searchDepth, Except.bind]
  rw [← matching.src]
  exact come

theorem search_terms_tame (matching : Matching p q)
    (enough : p.src.length < fuel) : Tame 0 Loose (searchTerms fuel) (searchTerms fuel) p q := by
  induction fuel generalizing p q with
  | zero => omega
  | succ fuel ih =>
    refine tame_bind 0 (skip_sp_tamed p q matching) ?_
    intro _ _ p' q' _ matching fewer
    refine tame_bind 0 (eof_tamed p' q' matching) ?_
    rintro ended _ p' q' rfl matching still
    split
    · exact tame_pure matching trivial
    · rw [← bind_assoc]
      refine tame_less (tame_bind 0 (search_depth_tame p' q' matching) ?_) (Nat.zero_le _)
      intro _ _ p' q' _ matching taken
      refine tame_bind 0 (ih p' q' matching (by omega)) ?_
      intro _ _ _ _ _ matching _
      exact tame_pure matching trivial

theorem parse_search_criteria_list_twins :
    Twins 0 Loose parseSearchCriteriaList parseSearchCriteriaList := twins_rounds search_terms_tame

theorem split_parens_shorter (depth : Nat) (text : Bytes) :
    (splitParens depth text).2.length ≤ text.length := by
  induction depth, text using splitParens.induct with
  | case1 => simp [splitParens]
  | case2 depth rest ih =>
    simp only [splitParens, if_true, List.length_cons]
    omega
  | case3 depth rest shallow => simp [splitParens, shallow]
  | case4 depth rest deep ih =>
    have closing : ¬ (41 : UInt8) = 40 := by decide
    simp only [splitParens, closing, deep, if_false, if_true, List.length_cons]
    omega
  | case5 depth byte rest opens closes ih =>
    simp only [splitParens, opens, closes, if_false, List.length_cons]
    omega

theorem take_parens_tamed : Tamed 0 Eq takeParens := by
  intro p q matching
  unfold Tame takeParens
  rw [← matching.src]
  exact Agree.returned rfl ⟨matching_text matching _, split_parens_shorter 0 p.src⟩

theorem option_argument_tamed : Tamed 0 Eq optionArgument :=
  twins_spaced (twins_if_next take_parens_tamed (twins_pure rfl))

theorem select_option_tamed : Tamed 1 Loose selectOption := by
  apply twins_first read_atom_tamed
  intro _ _ _
  exact twins_map (twins_loose option_argument_tamed)

theorem return_option_tamed : Tamed 1 Loose returnOption := by
  apply twins_first read_atom_tamed
  intro _ _ _
  exact twins_map (twins_loose option_argument_tamed)

theorem special_use_tame (matching : Matching p q)
    (enough : p.src.length < fuel) : Tame 0 Loose (specialUse fuel) (specialUse fuel) p q := by
  induction fuel generalizing p q with
  | zero => omega
  | succ fuel ih =>
    apply closing_tame matching (twins_advance (twins_pure trivial))
    intro p q matching shorter
    refine tame_less (tame_bind 0 (read_atom_tamed p q matching) ?_) (Nat.zero_le _)
    rintro name _ p q rfl matching taken
    split
    · exact twins_spaced (twins_less parse_atom_paren_list_tamed) p q matching
    · refine tame_bind 0 (option_argument_tamed p q matching) ?_
      intro _ _ p q _ matching still
      exact ih p q matching (by omega)

theorem parse_create_special_use_twins :
    Twins 0 Loose parseCreateSpecialUse parseCreateSpecialUse := by
  apply twins_then (expect_tamed 40)
  intro _ _ _
  exact twins_rounds special_use_tame

theorem append_tuples_tame (first : Bool) (p q : Parser) (matching : Matching p q)
    (enough : p.src.length < fuel) :
    Tame 0 Loose (appendTuples fuel first) (appendTuples fuel first) p q := by
  induction fuel generalizing first p q with
  | zero => omega
  | succ fuel ih =>
    refine tame_bind 0 (skip_sp_tamed p q matching) ?_
    intro _ _ p q _ matching fewer
    refine tame_bind 0 (eof_tamed p q matching) ?_
    rintro ended _ p q rfl matching same
    split
    · exact tame_pure matching trivial
    · refine tame_bind 0 (twins_optional parse_flag_list_tamed p q matching) ?_
      intro _ _ p q _ matching still
      refine tame_bind 0 (twins_optional read_quoted_tamed p q matching) ?_
      intro _ _ p q _ matching less
      apply if_next_tame matching
      · intro _
        refine tame_less (tame_bind 0 (take_spill_literal_tamed p q matching) ?_) (Nat.zero_le _)
        intro _ _ p q _ matching taken
        refine tame_bind 0 (ih false p q matching (by omega)) ?_
        intro _ _ _ _ _ matching _
        exact tame_pure matching trivial
      · exact twins_ite (twins_throw (by simp)) (twins_pure trivial) p q matching

theorem parse_append_twins : Twins 0 Loose parseAppend parseAppend := by
  apply twins_spaced
  apply twins_then read_astring_tamed
  intro _ _ _
  rw [← bind_assoc, ← bind_assoc]
  apply twins_map
  apply twins_rounds
  intro fuel p q matching enough
  exact append_tuples_tame fuel true p q matching enough

theorem id_value_twins : Twins 0 Loose idValue idValue := by
  apply twins_then peek_tamed
  rintro byte _ rfl
  exact twins_ite (twins_less read_astring_tamed) (twins_map (twins_less (twins_loose read_atom_tamed)))

theorem id_pair_tamed : Tamed 1 Loose idPair := by
  apply twins_first read_astring_tamed
  intro _ _ _
  exact twins_spaced (twins_map id_value_twins)

theorem parse_id_twins : Twins 0 Loose parseID parseID := by
  apply twins_spaced
  apply twins_then eof_tamed
  rintro ended _ rfl
  apply twins_ite (twins_pure trivial)
  apply twins_then peek_tamed
  rintro byte _ rfl
  apply twins_ite
  · exact twins_map (twins_loose read_atom_or_empty_tamed)
  · exact twins_map (twins_less (paren_list_tamed _ id_pair_tamed))

theorem store_modifiers_tame (left right : Nat) (p q : Parser) (matching : Matching p q)
    (enough : p.src.length < fuel) :
    Tame 0 Loose (storeModifiers fuel left) (storeModifiers fuel right) p q := by
  induction fuel generalizing left right p q with
  | zero => omega
  | succ fuel ih =>
    apply closing_tame matching (twins_advance (twins_pure trivial))
    intro p q matching shorter
    refine tame_less (tame_bind 0 (read_atom_tamed p q matching) ?_) (Nat.zero_le _)
    rintro name _ p q rfl matching taken
    refine tame_bind 0 (skip_sp_tamed p q matching) ?_
    intro _ _ p q _ matching fewer
    split
    · refine tame_bind 0 (read_num_tamed p q matching) ?_
      rintro number _ p q rfl matching still
      cases parseUint64 number with
      | some since => exact ih _ _ p q matching (by omega)
      | none => exact tame_throw (by simp)
    · exact ih _ _ p q matching (by omega)

theorem store_action_twins (name : Bytes) : Twins 0 Loose (storeAction name) (storeAction name) := by
  unfold storeAction
  apply twins_ite (twins_pure trivial)
  apply twins_ite (twins_pure trivial)
  apply twins_ite (twins_pure trivial)
  exact twins_throw (by simp)

theorem store_since_twins :
    Twins 0 Loose
      (ifNext 40 (do advance; let since ← storeModifiers (← rounds) 0; skipSP; pure since) (pure 0))
      (ifNext 40 (do advance; let since ← storeModifiers (← rounds) 0; skipSP; pure since)
        (pure 0)) := by
  apply twins_if_next
  · apply twins_advance
    rw [← bind_assoc]
    apply twins_then (twins_rounds fun fuel p q matching enough =>
      store_modifiers_tame fuel 0 0 p q matching enough)
    intro _ _ _
    exact twins_spaced (twins_pure trivial)
  · exact twins_pure trivial

theorem parse_store_twins : Twins 0 Loose parseStore parseStore := by
  apply twins_spaced
  apply twins_then parse_num_set_tamed
  intro _ _ _
  apply twins_spaced
  apply twins_then store_since_twins
  intro _ _ _
  apply twins_then read_atom_tamed
  rintro name _ rfl
  apply twins_then (store_action_twins name)
  intro _ _ _
  exact twins_spaced (twins_map (twins_less parse_flag_list_tamed))

theorem optional_word_tamed (first word : Bytes) : Tamed 0 Eq (optionalWord first word) := by
  intro p q matching
  unfold Tame optionalWord
  rw [← matching.src]
  simp only
  split
  · exact Agree.returned rfl ⟨matching_text matching _, List.length_dropWhile_le _ _⟩
  · exact Agree.returned rfl ⟨matching, Nat.le_refl _⟩

theorem after_word_twins {first word : Bytes} {found found' other other' : Parse Value}
    (positive : Twins 0 Loose found found') (negative : Twins 0 Loose other other') :
    Twins 0 Loose (do if (← optionalWord first word) then found else other)
      (do if (← optionalWord first word) then found' else other') := by
  apply twins_then (optional_word_tamed first word)
  rintro present _ rfl
  exact twins_ite positive negative

theorem search_return_twins : Twins 0 Loose searchReturn searchReturn := by
  apply after_word_twins
  · apply twins_spaced
    apply twins_then (paren_list_tamed _ read_atom_tamed)
    intro _ _ _
    exact twins_spaced (twins_pure trivial)
  · exact twins_pure trivial

theorem search_charset_twins : Twins 0 Loose searchCharset searchCharset := by
  apply after_word_twins
  · apply twins_spaced
    apply twins_then read_astring_tamed
    intro _ _ _
    exact twins_spaced (twins_pure trivial)
  · exact twins_pure trivial

theorem parse_search_twins : Twins 0 Loose parseSearch parseSearch := by
  apply twins_spaced
  apply twins_then search_return_twins
  intro _ _ _
  apply twins_then search_charset_twins
  intro _ _ _
  exact twins_map parse_search_criteria_list_twins

theorem enable_tokens_tame (matching : Matching p q)
    (enough : p.src.length < fuel) : Tame 0 Loose (enableTokens fuel) (enableTokens fuel) p q := by
  induction fuel generalizing p q with
  | zero => omega
  | succ fuel ih =>
    refine tame_bind 0 (skip_sp_tamed p q matching) ?_
    intro _ _ p q _ matching fewer
    refine tame_bind 0 (eof_tamed p q matching) ?_
    rintro ended _ p q rfl matching same
    split
    · exact tame_pure matching trivial
    · refine tame_less (tame_bind 0 (read_atom_tamed p q matching) ?_) (Nat.zero_le _)
      intro _ _ p q _ matching taken
      refine tame_bind 0 (ih p q matching (by omega)) ?_
      intro _ _ _ _ _ matching _
      exact tame_pure matching trivial

theorem initial_response_twins : Twins 0 Loose initialResponse initialResponse :=
  twins_if_next (twins_advance (twins_pure trivial)) (twins_map (twins_less read_astring_tamed))

theorem parse_authenticate_twins : Twins 0 Loose parseAuthenticate parseAuthenticate := by
  apply twins_spaced
  apply twins_then read_atom_tamed
  intro _ _ _
  exact twins_map (twins_if_next (twins_spaced initial_response_twins) (twins_pure trivial))

theorem name_and_list_twins {Item : Type} {list list' : Parse (List Item)}
    {make make' : Bytes → List Item → Arguments} (lists : Twins 0 Loose list list') :
    Twins 0 Loose
      (do skipSP; let name ← readAstring; skipSP; let items ← ifNext 40 list (pure [])
          pure (make name items))
      (do skipSP; let name ← readAstring; skipSP; let items ← ifNext 40 list' (pure [])
          pure (make' name items)) := by
  apply twins_spaced
  apply twins_then read_astring_tamed
  intro _ _ _
  exact twins_spaced (twins_map (twins_if_next lists (twins_pure trivial)))

theorem parse_select_twins : Twins 0 Loose parseSelect parseSelect :=
  name_and_list_twins (twins_less (paren_list_tamed _ select_option_tamed))

theorem parse_create_twins : Twins 0 Loose parseCreate parseCreate :=
  name_and_list_twins parse_create_special_use_twins

theorem list_return_twins : Twins 0 Loose listReturn listReturn :=
  twins_spaced (after_word_twins
    (twins_spaced (twins_less (paren_list_tamed _ return_option_tamed))) (twins_pure trivial))

theorem parse_list_twins : Twins 0 Loose parseList parseList := by
  apply twins_spaced
  apply twins_then (twins_optional parse_atom_paren_list_tamed)
  intro _ _ _
  apply twins_then read_astring_tamed
  intro _ _ _
  apply twins_spaced
  apply twins_then (twins_if_next (twins_less parse_string_paren_list_tamed)
    (twins_map (twins_less read_astring_tamed)))
  intro _ _ _
  exact twins_map list_return_twins

theorem parse_status_twins : Twins 0 Loose parseStatus parseStatus := by
  apply twins_spaced
  apply twins_then read_astring_tamed
  intro _ _ _
  exact twins_spaced (twins_map (twins_less (paren_list_tamed _ read_atom_tamed)))

theorem spaced_astring_twins : Twins 0 Loose spacedAstring spacedAstring :=
  twins_spaced (twins_less read_astring_tamed)

theorem astring_if_twins (wanted : Bool) : Twins 0 Loose (astringIf wanted) (astringIf wanted) :=
  twins_ite (twins_map spaced_astring_twins) (twins_pure trivial)

theorem parse_copy_move_twins : Twins 0 Loose parseCopyMove parseCopyMove := by
  apply twins_spaced
  apply twins_then parse_num_set_tamed
  intro _ _ _
  exact twins_map spaced_astring_twins

theorem two_names_twins {make make' : Bytes → Bytes → Arguments} :
    Twins 0 Loose (do let first ← spacedAstring; let second ← spacedAstring; pure (make first second))
      (do let first ← spacedAstring; let second ← spacedAstring; pure (make' first second)) := by
  apply twins_then spaced_astring_twins
  intro _ _ _
  exact twins_map spaced_astring_twins

theorem parse_acl_twins (identifier rights : Bool) :
    Twins 0 Loose (parseACL identifier rights) (parseACL identifier rights) := by
  apply twins_then spaced_astring_twins
  intro _ _ _
  apply twins_then (astring_if_twins identifier)
  intro _ _ _
  exact twins_map (astring_if_twins rights)

theorem parse_expunge_twins (isUID : Bool) : Twins 0 Loose (parseExpunge isUID) (parseExpunge isUID) :=
  twins_ite (twins_spaced (twins_map (twins_loose parse_num_set_tamed))) (twins_pure trivial)

theorem parse_notify_twins : Twins 0 Loose (parseNotify raw) (parseNotify raw) :=
  fun _ _ matching => Agree.returned trivial ⟨matching_text matching [], Nat.zero_le _⟩

theorem verb_table_twins (isUID : Bool) :
    ∀ entry ∈ verbTable raw isUID, Twins 0 Loose entry.2 entry.2 := by
  have mailbox : Twins 0 Loose parseMailbox parseMailbox := twins_map spaced_astring_twins
  have fetch : Twins 0 Loose parseFetchArguments parseFetchArguments := twins_map parse_fetch_twins
  have enable : Twins 0 Loose parseEnable parseEnable := by
    unfold parseEnable
    rw [← bind_assoc]
    exact twins_map (twins_rounds enable_tokens_tame)
  have compress : Twins 0 Loose parseCompress parseCompress :=
    twins_spaced (twins_map (twins_less (twins_loose read_atom_tamed)))
  simp only [verbTable, List.forall_mem_cons]
  exact ⟨compress, enable, parse_notify_twins raw, parse_copy_move_twins, parse_copy_move_twins,
    two_names_twins, parse_authenticate_twins, parse_select_twins, parse_select_twins, mailbox,
    mailbox, mailbox, parse_create_twins, two_names_twins, parse_list_twins, parse_list_twins,
    parse_status_twins, parse_append_twins, parse_id_twins, fetch, parse_store_twins,
    parse_search_twins, parse_expunge_twins isUID, parse_acl_twins true true,
    parse_acl_twins true false, parse_acl_twins false false, parse_acl_twins false false,
    parse_acl_twins true false, by simp⟩

theorem parse_arguments_twins (raw verb : Bytes) (isUID : Bool) :
    Twins 0 Loose (parseArguments raw verb isUID) (parseArguments raw verb isUID) := by
  unfold parseArguments
  apply twins_ite (twins_pure trivial)
  cases listed : (verbTable raw isUID).find? fun entry => entry.1 = verb with
  | none => exact twins_throw (by simp)
  | some entry => exact verb_table_twins raw isUID entry (List.mem_of_find?_eq_some listed)

theorem read_verb_twins : Twins 0 Eq readVerb readVerb := by
  apply twins_then read_atom_tamed
  rintro verb _ rfl
  apply twins_ite
  · apply twins_spaced
    apply twins_then read_atom_tamed
    rintro inner _ rfl
    exact twins_pure rfl
  · exact twins_pure rfl

def SameRequest (left right : ClientCommand) : Prop :=
  left.tag = right.tag ∧ left.op = right.op ∧ left.isUID = right.isUID

/-- Lines that differ in their literals only give the same request or the same
error. -/
theorem parse_command_twins : Twins 0 SameRequest (parseCommand raw) (parseCommand raw) := by
  apply twins_then read_atom_tamed
  rintro tag _ rfl
  apply twins_spaced
  apply twins_then read_verb_twins
  rintro verb _ rfl
  apply twins_then (parse_arguments_twins raw verb.1 verb.2)
  intro _ _ _
  exact twins_pure ⟨rfl, rfl, rfl⟩

end

end Herold.Imap

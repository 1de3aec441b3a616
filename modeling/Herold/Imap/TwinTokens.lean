import Herold.Machine.TwoRun
import Herold.Imap.SearchKeys
import Herold.Imap.FetchItems

/-!
# The parser on two lines that differ in their literals

Two parsers match when they have the same text left, the same file outcomes ahead
and as many literals, each of them spilled in both or in neither. What a parsing
function decides depends on nothing else: run on matching parsers it fails in both
or returns in both and leaves them matching. The text that is left has become
shorter by as much as the function takes at least, so no loop runs out of rounds.
-/

namespace Herold.Imap

open Herold.Go Herold.Machine

structure Matching (left right : Parser) : Prop where
  src : left.src = right.src
  lits : left.lits.map Literal.spilled = right.lits.map Literal.spilled
  disk : left.disk = right.disk

def Settled (failure : ParseError) : Prop := failure ≠ .starved

/-- From these parsers both computations come to the same, and what they return has
taken a number of bytes at least. -/
def Tame {Value Other : Type} (least : Nat) (values : Value → Other → Prop) (left : Parse Value)
    (right : Parse Other) (p q : Parser) : Prop :=
  Agree Settled (fun after twin => Matching after twin ∧ after.src.length + least ≤ p.src.length)
    values (left p) (right q)

def Tamed {Value : Type} (least : Nat) (values : Value → Value → Prop) (work : Parse Value) : Prop :=
  ∀ p q, Matching p q → Tame least values work work p q

def Loose {Value : Type} (_ _ : Value) : Prop := True

variable {Value Other Result Final : Type} {values : Value → Other → Prop}
  {results : Result → Final → Prop} {p q : Parser} {least : Nat}

theorem tame_bind (more : Nat) {left : Parse Value} {right : Parse Other} {next : Value → Parse Result}
    {after : Other → Parse Final} (first : Tame least values left right p q)
    (continues : ∀ value other reached twin, values value other → Matching reached twin →
      reached.src.length + least ≤ p.src.length →
        Tame more results (next value) (after other) reached twin) :
    Tame (least + more) results (left >>= next) (right >>= after) p q := by
  refine agree_bind first ?_
  rintro value other reached twin corresponds ⟨still, shorter⟩
  have come := continues value other reached twin corresponds still shorter
  refine agree_weaken come ?_ fun _ _ holds => holds
  rintro final finalTwin ⟨matching, taken⟩
  exact ⟨matching, by omega⟩

theorem tame_pure {value : Value} {other : Other} (matching : Matching p q)
    (corresponds : values value other) : Tame 0 values (pure value) (pure other) p q :=
  Agree.returned corresponds ⟨matching, Nat.le_refl _⟩

theorem tame_throw {failure : ParseError} (settled : failure ≠ .starved) :
    Tame least values (throw failure : Parse Value) (throw failure : Parse Other) p q :=
  Agree.failed settled

theorem tame_less {fewer : Nat} {left : Parse Value} {right : Parse Other}
    (tame : Tame least values left right p q) (less : fewer ≤ least) :
    Tame fewer values left right p q := by
  refine agree_weaken tame ?_ fun _ _ holds => holds
  rintro state twin ⟨matching, taken⟩
  exact ⟨matching, by omega⟩

theorem tame_loose {left right : Parse Value} {strict : Value → Value → Prop}
    (tame : Tame least strict left right p q) : Tame least Loose left right p q :=
  agree_weaken tame (fun _ _ holds => holds) fun _ _ _ => trivial

theorem matching_text (matching : Matching p q) (rest : Bytes) :
    Matching { p with src := rest } { q with src := rest } :=
  ⟨rfl, matching.lits, matching.disk⟩

theorem eof_tamed : Tamed 0 Eq eof := by
  intro p q matching
  unfold Tame eof
  rw [matching.src]
  exact Agree.returned rfl ⟨matching, by rw [matching.src]; exact Nat.le_refl _⟩

theorem peek_tamed : Tamed 0 Eq peek := by
  intro p q matching
  unfold Tame peek
  rw [matching.src]
  exact Agree.returned rfl ⟨matching, by rw [matching.src]; exact Nat.le_refl _⟩

theorem if_next_tame {byte : UInt8} {found other : Parse Value} {found' other' : Parse Other}
    (matching : Matching p q)
    (positive : p.src.headD 0 = byte → Tame least values found found' p q)
    (negative : Tame least values other other' p q) :
    Tame least values (ifNext byte found other) (ifNext byte found' other') p q := by
  unfold Tame ifNext
  simp only [bind, StateT.bind, peek, Except.bind, ← matching.src]
  split
  case isTrue next => exact positive next
  case isFalse => exact negative

theorem advance_tamed : Tamed 0 Eq advance := by
  intro p q matching
  unfold Tame advance
  rw [← matching.src]
  refine Agree.returned rfl ⟨matching_text matching _, ?_⟩
  simp

theorem skip_sp_tamed : Tamed 0 Eq skipSP := by
  intro p q matching
  unfold Tame skipSP
  rw [← matching.src]
  exact Agree.returned rfl ⟨matching_text matching _, List.length_dropWhile_le _ _⟩

theorem expect_tamed (byte : UInt8) : Tamed 1 Eq (expect byte) := by
  intro p q matching
  unfold Tame expect
  rw [← matching.src]
  split
  case isTrue found =>
    refine Agree.returned rfl ⟨matching_text matching _, ?_⟩
    cases text : p.src with
    | nil => simp [text] at found
    | cons first rest => simp
  case isFalse => exact Agree.failed (by simp [Settled])

theorem take_run_tamed (inside : UInt8 → Bool) : Tamed 0 Eq (takeRun inside) := by
  intro p q matching
  unfold Tame takeRun
  rw [← matching.src]
  exact Agree.returned rfl ⟨matching_text matching _, List.length_dropWhile_le _ _⟩

theorem read_num_tamed : Tamed 0 Eq readNum := take_run_tamed isDigit

theorem read_atom_or_empty_tamed : Tamed 0 Eq readAtomOrEmpty := take_run_tamed isAtomByte

theorem take_run_shorter (inside : UInt8 → Bool) (text : Bytes) (filled : text.takeWhile inside ≠ []) :
    (text.dropWhile inside).length + 1 ≤ text.length := by
  have whole := congrArg List.length (List.takeWhile_append_dropWhile (p := inside) (l := text))
  rw [List.length_append] at whole
  have positive := List.length_pos_iff.mpr filled
  omega

theorem read_atom_tamed : Tamed 1 Eq readAtom := by
  intro p q matching
  unfold Tame readAtom
  simp only [bind, StateT.bind, takeRun, Except.bind, ← matching.src]
  split
  case isTrue => exact Agree.failed (by simp [Settled])
  case isFalse filled =>
    exact Agree.returned rfl ⟨matching_text matching _, take_run_shorter _ _ filled⟩

theorem quoted_rest_shorter (text found rest : Bytes) (closed : quotedRest text = some (found, rest)) :
    rest.length ≤ text.length := by
  induction text using quotedRest.induct generalizing found rest with
  | case1 => simp [quotedRest] at closed
  | case2 =>
    simp only [quotedRest, if_true, Option.some.injEq, Prod.mk.injEq] at closed
    simp [← closed.2]
  | case3 byte other => simp [quotedRest, other] at closed
  | case4 next later ih =>
    simp only [quotedRest, if_true, Option.map_eq_some_iff, Prod.mk.injEq] at closed
    obtain ⟨⟨inner, tail⟩, inside, _, rfl⟩ := closed
    have shorter := ih inner tail inside
    simp only [List.length_cons]
    omega
  | case5 next later _ =>
    have taken : quotedRest (34 :: next :: later) = some ([], next :: later) := by simp [quotedRest]
    rw [taken, Option.some.injEq, Prod.mk.injEq] at closed
    simp [← closed.2]
  | case6 byte next later notEscape notQuote ih =>
    simp only [quotedRest, notEscape, notQuote, if_false, Option.map_eq_some_iff,
      Prod.mk.injEq] at closed
    obtain ⟨⟨inner, tail⟩, inside, _, rfl⟩ := closed
    have shorter := ih inner tail inside
    simp only [List.length_cons] at shorter ⊢
    omega

theorem take_quoted_tamed : Tamed 0 Eq takeQuoted := by
  intro p q matching
  unfold Tame takeQuoted
  rw [← matching.src]
  split
  case h_1 text rest closed =>
    exact Agree.returned rfl ⟨matching_text matching _, quoted_rest_shorter p.src text rest closed⟩
  case h_2 => exact Agree.failed (by simp [Settled])

theorem read_quoted_tamed : Tamed 1 Eq readQuoted := by
  intro p q matching
  refine tame_bind 0 (expect_tamed 34 p q matching) ?_
  intro _ _ reached twin _ matching _
  exact take_quoted_tamed reached twin matching

theorem next_literal_tamed : Tamed 0 (fun left right => left.spilled = right.spilled) nextLiteral := by
  intro p q matching
  unfold Tame nextLiteral
  have shapes := matching.lits
  cases left : p.lits with
  | nil =>
    rw [left] at shapes
    have right : q.lits = [] := List.map_eq_nil_iff.mp shapes.symm
    rw [right]
    exact Agree.failed (by simp [Settled])
  | cons first lits =>
    rw [left] at shapes
    cases right : q.lits with
    | nil => simp [right] at shapes
    | cons second others =>
      rw [right, List.map_cons, List.map_cons, List.cons.injEq] at shapes
      exact Agree.returned shapes.1 ⟨⟨matching.src, shapes.2, matching.disk⟩, Nat.le_refl _⟩

theorem use_file_tamed : Tamed 0 Eq useFile := by
  intro p q matching
  unfold Tame useFile
  rw [← matching.disk]
  split
  · exact Agree.failed (by simp [Settled])
  · exact Agree.returned rfl ⟨⟨matching.src, matching.lits, rfl⟩, Nat.le_refl _⟩
  · exact Agree.returned rfl ⟨matching, Nat.le_refl _⟩

theorem literal_data_tamed (left right : Literal) (matching : Matching p q) :
    Tame 0 Loose (pure left.data) (pure right.data) p q := tame_pure matching trivial

theorem file_then_data_tamed (left right : Literal) (matching : Matching p q) :
    Tame 0 Loose (do useFile; pure left.data) (do useFile; pure right.data) p q := by
  refine tame_bind 0 (use_file_tamed p q matching) ?_
  intro _ _ reached twin _ matching _
  exact literal_data_tamed left right matching

theorem take_literal_tamed : Tamed 1 Loose takeLiteral := by
  intro p q matching
  refine tame_bind 0 (expect_tamed 0 p q matching) ?_
  intro _ _ reached twin _ matching _
  refine tame_bind 0 (next_literal_tamed reached twin matching) ?_
  intro left right reached twin alike matching _
  rw [alike]
  split
  · exact file_then_data_tamed left right matching
  · exact literal_data_tamed left right matching

theorem take_spill_literal_tamed : Tamed 1 Loose takeSpillLiteral := by
  intro p q matching
  refine tame_bind 0 (expect_tamed 0 p q matching) ?_
  intro _ _ reached twin _ matching _
  refine tame_bind 0 (next_literal_tamed reached twin matching) ?_
  intro left right reached twin alike matching _
  rw [alike]
  split
  · exact literal_data_tamed left right matching
  · exact file_then_data_tamed left right matching

theorem read_astring_tamed : Tamed 1 Loose readAstring := by
  intro p q matching
  refine tame_less (tame_bind 1 (eof_tamed p q matching) ?_) (Nat.le_refl _)
  rintro ended _ reached twin rfl matching _
  split
  · exact tame_throw (by simp)
  · refine tame_less (tame_bind 1 (peek_tamed reached twin matching) ?_) (Nat.le_refl _)
    rintro byte _ reached twin rfl matching _
    split
    · exact tame_loose (read_quoted_tamed reached twin matching)
    · split
      · exact take_literal_tamed reached twin matching
      · exact tame_loose (read_atom_tamed reached twin matching)

theorem parse_num_set_tamed : Tamed 0 Eq parseNumSet := by
  intro p q matching
  refine tame_bind 0 (take_run_tamed isSetByte p q matching) ?_
  rintro text _ reached twin rfl matching _
  split
  · exact tame_throw (by simp)
  · split
    · exact tame_pure matching rfl
    · exact tame_throw (by simp)

theorem until_close_tame {Item : Type} {items : Item → Item → Prop} (item : Parse Item)
    (tamed : Tamed 1 items item) (fuel : Nat) (p q : Parser) (matching : Matching p q)
    (enough : p.src.length < fuel) :
      Tame 0 Loose (untilClose item fuel) (untilClose item fuel) p q := by
  induction fuel generalizing p q with
  | zero => omega
  | succ fuel ih =>
    unfold untilClose
    refine tame_bind 0 (skip_sp_tamed p q matching) ?_
    intro _ _ reached twin _ matching shorter
    apply if_next_tame matching
    · intro _
      refine tame_bind 0 (advance_tamed reached twin matching) ?_
      intro _ _ reached twin _ matching _
      exact tame_pure matching trivial
    · refine tame_less (tame_bind 0 (tamed reached twin matching) ?_) (Nat.zero_le _)
      intro _ _ reached twin _ matching taken
      refine tame_bind 0 (ih reached twin matching (by omega)) ?_
      intro _ _ reached twin _ matching _
      exact tame_pure matching trivial

theorem rounds_bind_tame {loop : Nat → Parse Value} {twin : Nat → Parse Other}
    (tame : ∀ fuel p q, Matching p q → p.src.length < fuel → Tame 0 values (loop fuel) (twin fuel) p q)
    (matching : Matching p q) : Tame 0 values (rounds >>= loop) (rounds >>= twin) p q := by
  have come := tame (p.src.length + 1) p q matching (Nat.lt_succ_self _)
  unfold Tame at come ⊢
  simp only [bind, StateT.bind, rounds, Except.bind]
  rw [← matching.src]
  exact come

theorem paren_list_tamed {Item : Type} {items : Item → Item → Prop} (item : Parse Item)
    (tamed : Tamed 1 items item) : Tamed 1 Loose (parenList item) := by
  intro p q matching
  refine tame_bind 0 (expect_tamed 40 p q matching) ?_
  intro _ _ reached twin _ matching _
  exact rounds_bind_tame (fun fuel p q => fun matching enough =>
    until_close_tame item tamed fuel p q matching enough) matching

theorem read_atom_list_tamed : Tamed 1 Loose readAtomList := paren_list_tamed _ read_astring_tamed

theorem parse_atom_paren_list_tamed : Tamed 1 Loose parseAtomParenList :=
  paren_list_tamed _ read_atom_tamed

theorem parse_string_paren_list_tamed : Tamed 1 Loose parseStringParenList :=
  paren_list_tamed _ read_astring_tamed

theorem parse_flag_list_tamed : Tamed 1 Loose parseFlagList := paren_list_tamed _ read_atom_tamed

end Herold.Imap

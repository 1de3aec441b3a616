import Herold.Mail.Multipart
import Herold.Sieve.Mutations
import Mathlib.Data.List.Forall2

/-!
# Replacing a part

A multipart message of any nesting, seen from one of its parts: at each level down to it
the part that holds it stands between others. `replacePartByPath` takes the levels apart
and puts them together again. It keeps the other parts where none of them is empty or
ends in a line end, and where no preamble holds the text of a delimiter.
-/

namespace Herold.Sieve

open Herold.Go Herold.Mail

/-- One level of a multipart message: the parts before the one looked at and those
behind it. -/
structure Level where
  headers : Bytes
  boundary : Bytes
  preamble : Bytes
  before : List Bytes
  after : List Bytes
  epilogue : Bytes

def partsText (boundary : Bytes) (parts : List Bytes) (epilogue : Bytes) : Bytes :=
  (parts.flatMap fun part => delimiter boundary ++ crlf ++ part ++ crlf) ++
    (delimiter boundary ++ ascii "--" ++ epilogue)

def Level.body (level : Level) (part : Bytes) : Bytes :=
  level.preamble ++ partsText level.boundary (level.before ++ [part] ++ level.after) level.epilogue

def messageText : List Level → Bytes → Bytes
  | [], part => part
  | level :: levels, part => level.headers ++ level.body (messageText levels part)

def partPath (levels : List Level) : List Nat := levels.map fun level => level.before.length

def FreeOf (boundary text : Bytes) : Prop := cutFirst (crlf ++ delimiter boundary) (crlf ++ text) = none

instance (boundary text : Bytes) : Decidable (FreeOf boundary text) :=
  inferInstanceAs (Decidable (cutFirst (crlf ++ delimiter boundary) (crlf ++ text) = none))

/-- As RFC 2046 requires: no line of a part or a preamble begins with the delimiter of a
multipart that it is in. -/
def Conforming (enclosing : List Bytes) : List Level → Bytes → Prop
  | [], part => ∀ boundary ∈ enclosing, FreeOf boundary part
  | level :: levels, part =>
    (∀ boundary ∈ enclosing, FreeOf boundary level.headers ∧ FreeOf boundary level.preamble ∧
      FreeOf boundary (delimiter level.boundary ++ ascii "--" ++ level.epilogue)) ∧
    FreeOf level.boundary level.preamble ∧
    (∀ other ∈ level.before ++ level.after, ∀ boundary ∈ level.boundary :: enclosing,
      FreeOf boundary other) ∧
    Conforming (level.boundary :: enclosing) levels part

instance decidableConforming : ∀ (enclosing : List Bytes) (levels : List Level) (part : Bytes),
    Decidable (Conforming enclosing levels part)
  | enclosing, [], part => inferInstanceAs (Decidable (∀ boundary ∈ enclosing, FreeOf boundary part))
  | enclosing, level :: levels, part =>
    have := decidableConforming (level.boundary :: enclosing) levels part
    inferInstanceAs (Decidable (_ ∧ _ ∧ _ ∧ _))

/-- A header that names its boundary and ends at its blank line, and a preamble of whole
lines. -/
structure IsLevel (level : Level) : Prop where
  header : ∃ fields, cutFirst [13, 10, 13, 10] level.headers = some (fields, [])
  named : readBoundary level.headers = some level.boundary
  filled : level.boundary ≠ []
  unbroken : 13 ∉ level.boundary ∧ 10 ∉ level.boundary
  lines : level.preamble = [] ∨ ∃ text, level.preamble = text ++ crlf

def Rewritable (level : Level) : Prop :=
  cutFirst (delimiter level.boundary) level.preamble = none ∧
    ∀ other ∈ level.before ++ level.after, other ≠ [] ∧ crlf.isSuffixOf other = false

def replacementPart (replacement : Bytes) : Bytes :=
  ascii "Content-Type: text/plain; charset=utf-8" ++ crlf ++ crlf ++ replacement

def SameParts (level other : Level) : Prop :=
  level.headers = other.headers ∧ level.boundary = other.boundary ∧ level.before = other.before ∧
    level.after = other.after

/-- The rewrite gives a conforming message with the replacement at the path, in which all
parts beside the path are as they were. -/
def ReplacesOnly (levels : List Level) (part replacement : Bytes) : Prop :=
  ∃ rewritten, List.Forall₂ SameParts levels rewritten ∧
    Conforming [] rewritten (replacementPart replacement) ∧
    replacePartByPath (messageText levels part) (partPath levels) replacement =
      some (some (messageText rewritten (replacementPart replacement)))

section Markers

/-- A needle that is not in the text, and of which no part ends the text while the rest
begins what follows, is not found before what follows. -/
theorem quiet_before (needle text rest : Bytes) (absent : cutFirst needle text = none)
    (apart : ∀ front back ending, text = front ++ back → back ≠ [] → needle = back ++ ending →
      ending ≠ [] →
      ¬ending <+: rest) :
    ∀ offset < text.length, hasPrefix ((text ++ rest).drop offset) needle = false := by
  intro offset inside
  rw [Bool.eq_false_iff]
  intro starts
  rw [hasPrefix, List.isPrefixOf_iff_prefix,
    List.drop_append_of_le_length (Nat.le_of_lt inside)] at starts
  have nonempty : text.drop offset ≠ [] := by
    intro empty
    have lengths := congrArg List.length empty
    rw [List.length_drop, List.length_nil] at lengths
    omega
  by_cases short : needle.length ≤ (text.drop offset).length
  · have here := List.prefix_of_prefix_length_le starts (List.prefix_append _ _) short
    have missing := cut_first_none needle text absent offset
    rw [hasPrefix, List.isPrefixOf_iff_prefix.mpr here] at missing
    cases missing
  · have inner := List.prefix_of_prefix_length_le (List.prefix_append (text.drop offset) rest)
      starts (by omega)
    obtain ⟨ending, same⟩ := inner
    refine apart (text.take offset) (text.drop offset) ending (List.take_append_drop _ _).symm
      nonempty same.symm ?_ ?_
    · rintro rfl
      rw [List.append_nil] at same
      rw [same] at short
      exact short (Nat.le_refl _)
    · rw [← same] at starts
      exact (List.prefix_append_right_inj _).mp starts

variable (head : UInt8) (tail : Bytes) (fresh : head ∉ tail)

include fresh

theorem quiet_before_marker (text rest : Bytes) (absent : cutFirst (head :: tail) text = none) :
    ∀ offset < text.length, hasPrefix ((text ++ head :: rest).drop offset) (head :: tail) = false := by
  apply quiet_before (head :: tail) text (head :: rest) absent
  intro front back ending _ filled same more starts
  cases back with
  | nil => exact filled rfl
  | cons byte back =>
    cases ending with
    | nil => exact more rfl
    | cons first ending =>
      obtain ⟨behind, joined⟩ := starts
      have leads : first = head := (List.cons.inj joined).1
      apply fresh
      rw [(List.cons.inj same).2, leads]
      exact List.mem_append_right _ List.mem_cons_self

theorem marker_first (text rest : Bytes) (absent : cutFirst (head :: tail) text = none) :
    cutFirst (head :: tail) (text ++ (head :: tail) ++ rest) = some (text, rest) := by
  have quiet := quiet_before_marker head tail fresh text (tail ++ rest) absent
  rw [List.append_assoc]
  rw [cut_first_skip (head :: tail) text ((head :: tail) ++ rest) quiet]
  have here : hasPrefix (head :: (tail ++ rest)) (head :: tail) = true := by simp [hasPrefix]
  rw [List.cons_append, cutFirst, if_pos here]
  simp

theorem marker_absent_join (text rest : Bytes) (absent : cutFirst (head :: tail) text = none)
    (later : cutFirst (head :: tail) (head :: rest) = none) :
    cutFirst (head :: tail) (text ++ head :: rest) = none := by
  rw [cut_first_skip _ text _ (quiet_before_marker head tail fresh text rest absent), later]
  rfl

end Markers

theorem cut_first_none_behind (needle front text : Bytes)
    (absent : cutFirst needle (front ++ text) = none) :
    cutFirst needle text = none := by
  induction front with
  | nil => exact absent
  | cons byte front ih =>
    rw [List.cons_append, cutFirst] at absent
    split at absent
    case isTrue => cases absent
    case isFalse => exact ih (Option.map_eq_none_iff.mp absent)

theorem cut_first_none_within (needle more text rest : Bytes)
    (absent : cutFirst needle (text ++ rest) = none) :
    cutFirst (needle ++ more) text = none := by
  cases cut : cutFirst (needle ++ more) text with
  | none => rfl
  | some halves =>
    have here := (cut_first_some _ _ halves.1 halves.2 cut).1
    rw [hasPrefix, List.isPrefixOf_iff_prefix] at here
    have missing := cut_first_none needle _ absent halves.1.length
    have whole := cut_first_splits cut
    have room : halves.1.length ≤ text.length := by
      rw [whole, List.length_append, List.length_append]
      omega
    rw [hasPrefix, List.drop_append_of_le_length room,
      List.isPrefixOf_iff_prefix.mpr (((List.prefix_append needle more).trans here).trans
        (List.prefix_append _ _))] at missing
    cases missing

section Split

variable (boundary : Bytes) (unbroken : 13 ∉ boundary ∧ 10 ∉ boundary)

theorem past_line_end (text : Bytes) : pastLine (crlf ++ text) = text := by
  have here : cutFirst crlf (crlf ++ text) = some ([], text) := by
    show cutFirst [13, 10] (13 :: 10 :: text) = _
    rw [cutFirst, if_pos (by simp [hasPrefix])]
    rfl
  rw [pastLine, here]
  rfl

def partsBehind (epilogue : Bytes) : Bytes → List Bytes → Bytes
  | part, [] => part ++ (crlf ++ delimiter boundary) ++ (ascii "--" ++ epilogue)
  | part, next :: parts =>
    part ++ (crlf ++ delimiter boundary) ++ (crlf ++ partsBehind epilogue next parts)

theorem parts_text_cons (part : Bytes) (parts : List Bytes) (epilogue : Bytes) :
    partsText boundary (part :: parts) epilogue =
      delimiter boundary ++ crlf ++ partsBehind boundary epilogue part parts := by
  induction parts generalizing part with
  | nil => simp [partsText, partsBehind]
  | cons next parts ih =>
    have first : partsText boundary (part :: next :: parts) epilogue =
        delimiter boundary ++ crlf ++ part ++ crlf ++ partsText boundary (next :: parts) epilogue := by
      simp [partsText]
    rw [first, ih next, partsBehind]
    simp only [List.append_assoc]

theorem parts_behind_long (epilogue part : Bytes) (parts : List Bytes) :
    parts.length < (partsBehind boundary epilogue part parts).length := by
  induction parts generalizing part with
  | nil => simp [partsBehind, crlf]
  | cons next parts ih =>
    have later := ih next
    rw [partsBehind]
    simp only [List.length_append, List.length_cons]
    have two : crlf.length = 2 := rfl
    omega

include unbroken

theorem delimiter_fresh : 13 ∉ 10 :: delimiter boundary := by
  rw [List.mem_cons, delimiter, List.mem_append, not_or, not_or]
  exact ⟨by decide, by decide, unbroken.1⟩

theorem part_ends (part rest : Bytes) (free : cutFirst (crlf ++ delimiter boundary) part = none) :
    cutFirst (crlf ++ delimiter boundary) (part ++ (crlf ++ delimiter boundary) ++ rest) =
      some (part, rest) :=
  marker_first 13 (10 :: delimiter boundary) (delimiter_fresh boundary unbroken) part rest free

theorem closer_later (part rest closed behind : Bytes)
    (free : cutFirst (crlf ++ delimiter boundary) part = none)
    (cut : cutFirst (crlf ++ delimiter boundary ++ ascii "--")
      (part ++ (crlf ++ delimiter boundary) ++ (crlf ++ rest)) = some (closed, behind)) :
    ¬closed.length ≤ part.length := by
  intro early
  have here := (cut_first_some _ _ closed behind cut).1
  rcases Nat.lt_or_eq_of_le early with inside | same
  · have quiet := quiet_before_marker 13 (10 :: delimiter boundary)
      (delimiter_fresh boundary unbroken) part
      (10 :: delimiter boundary ++ (crlf ++ rest)) free closed.length inside
    rw [hasPrefix, List.isPrefixOf_iff_prefix] at here
    have shorter := (List.prefix_append (crlf ++ delimiter boundary) (ascii "--")).trans here
    rw [List.append_assoc] at shorter
    exact Bool.eq_false_iff.mp quiet (List.isPrefixOf_iff_prefix.mpr shorter)
  · rw [same, List.append_assoc, List.drop_left, hasPrefix, List.isPrefixOf_iff_prefix] at here
    have dashes := (List.prefix_append_right_inj _).mp here
    obtain ⟨tail, joined⟩ := dashes
    cases joined

theorem split_parts_behind (epilogue part : Bytes) (parts : List Bytes) (fuel : Nat)
    (free : ∀ other ∈ part :: parts, cutFirst (crlf ++ delimiter boundary) other = none) :
    splitParts boundary (parts.length + fuel + 1) (partsBehind boundary epilogue part parts) =
      part :: parts := by
  induction parts generalizing part with
  | nil =>
    have own := free part List.mem_cons_self
    have closed : cutFirst (crlf ++ delimiter boundary ++ ascii "--")
        (part ++ (crlf ++ delimiter boundary) ++ (ascii "--" ++ epilogue)) = some (part, epilogue) := by
      have dashed : 13 ∉ 10 :: delimiter boundary ++ ascii "--" := by
        rw [List.mem_append, not_or]
        exact ⟨delimiter_fresh boundary unbroken, by decide⟩
      have first := marker_first 13 (10 :: delimiter boundary ++ ascii "--") dashed part epilogue (by
        have longer := cut_first_none_within (crlf ++ delimiter boundary) (ascii "--") part [] (by simpa using own)
        exact longer)
      simpa [crlf] using first
    rw [partsBehind, splitParts, closed, part_ends boundary unbroken part _ own]
    simp
  | cons next parts ih =>
    have own := free part List.mem_cons_self
    have later := ih next fun other member => free other (List.mem_cons_of_mem _ member)
    have count : (next :: parts).length + fuel + 1 = parts.length + fuel + 1 + 1 := by
      rw [List.length_cons]
      omega
    rw [count, partsBehind, splitParts, part_ends boundary unbroken part _ own]
    cases cut : cutFirst (crlf ++ delimiter boundary ++ ascii "--")
        (part ++ (crlf ++ delimiter boundary) ++
          (crlf ++ partsBehind boundary epilogue next parts)) with
    | none =>
      dsimp only
      rw [past_line_end, later]
    | some halves =>
      have behind := closer_later boundary unbroken part _ halves.1 halves.2 own cut
      dsimp only
      rw [if_neg behind, past_line_end, later]

/-- The first delimiter line is found behind a preamble of whole lines that does not
hold the delimiter's text: what begins there would run over a line end. -/
theorem first_delimiter (preamble rest : Bytes)
    (lines : preamble = [] ∨ ∃ text, preamble = text ++ crlf)
    (absent : cutFirst (delimiter boundary) preamble = none) :
    cutFirst (delimiter boundary) (preamble ++ (delimiter boundary ++ rest)) =
      some (preamble, rest) := by
  have solid : 10 ∉ delimiter boundary := by
    rw [delimiter, List.mem_append, not_or]
    exact ⟨by decide, unbroken.2⟩
  have quiet := quiet_before (delimiter boundary) preamble (delimiter boundary ++ rest) absent (by
    intro front back ending shape filled same _ _
    rcases lines with rfl | ⟨text, rfl⟩
    · cases front with
      | nil => exact filled shape.symm
      | cons byte front => cases shape
    · have last : back.getLast? = some 10 := by
        have ends := congrArg List.getLast? shape
        rw [List.getLast?_append, List.getLast?_append] at ends
        cases tail : back.getLast? with
        | none => exact absurd (List.getLast?_eq_none_iff.mp tail) filled
        | some byte =>
          rw [tail, Option.some_or] at ends
          exact ends.symm
      apply solid
      rw [same]
      exact List.mem_append_left _ (List.mem_of_getLast? last))
  have here : hasPrefix (delimiter boundary ++ rest) (delimiter boundary) = true := by simp [hasPrefix]
  have shape : delimiter boundary = 45 :: 45 :: boundary := rfl
  rw [cut_first_skip _ preamble _ quiet]
  rw [shape] at here ⊢
  rw [List.cons_append, cutFirst, ← List.cons_append, if_pos here, List.drop_left]
  simp

theorem past_delimiter_line (rest : Bytes) :
    pastLine (delimiter boundary ++ (crlf ++ rest)) = rest := by
  have first := marker_first 13 [10] (by decide) (delimiter boundary) rest
    (cut_first_absent 13 [10] _ fun inside =>
      delimiter_fresh boundary unbroken (List.mem_cons_of_mem _ inside))
  rw [List.append_assoc] at first
  have again : cutFirst crlf (delimiter boundary ++ (crlf ++ rest)) =
    some (delimiter boundary, rest) := first
  rw [pastLine, again]
  rfl

theorem split_multipart_parts (preamble epilogue part : Bytes) (parts : List Bytes)
    (lines : preamble = [] ∨ ∃ text, preamble = text ++ crlf)
    (absent : cutFirst (delimiter boundary) preamble = none)
    (free : ∀ other ∈ part :: parts, cutFirst (crlf ++ delimiter boundary) other = none) :
    splitMultipart (preamble ++ partsText boundary (part :: parts) epilogue) boundary =
      part :: parts := by
  have long := parts_behind_long boundary epilogue part parts
  have room : parts.length ≤ (preamble ++ partsText boundary (part :: parts) epilogue).length := by
    rw [parts_text_cons]
    simp only [List.length_append]
    omega
  obtain ⟨fuel, enough⟩ := Nat.exists_eq_add_of_le room
  rw [splitMultipart, enough, parts_text_cons, List.append_assoc,
    first_delimiter boundary unbroken preamble _ lines absent]
  dsimp only
  rw [past_delimiter_line boundary unbroken,
    split_parts_behind boundary unbroken epilogue part parts fuel free]

end Split

theorem sibling_ended (boundary part : Bytes) (filled : part ≠ [])
    (open_ : crlf.isSuffixOf part = false) :
    withLineEnd (delimiter boundary ++ crlf ++ part) = delimiter boundary ++ crlf ++ part ++ crlf := by
  have unended : ¬crlf.isSuffixOf (delimiter boundary ++ crlf ++ part) = true := by
    intro ends
    rw [List.isSuffixOf_iff_suffix] at ends
    by_cases long : 2 ≤ part.length
    · have inner := List.suffix_of_suffix_length_le ends (List.suffix_append _ part) long
      rw [List.isSuffixOf_iff_suffix.mpr inner] at open_
      cases open_
    · obtain ⟨byte, rfl⟩ : ∃ byte, part = [byte] := by
        cases part with
        | nil => exact absurd rfl filled
        | cons byte more =>
          cases more with
          | nil => exact ⟨byte, rfl⟩
          | cons next more => simp at long
      obtain ⟨front, same⟩ := ends
      have split : (front ++ [13]) ++ [10] = (delimiter boundary ++ crlf) ++
        [byte] := by simpa [crlf] using same
      have fronts := (List.append_inj' split rfl).1
      have lasts := congrArg List.getLast? fronts
      simp [crlf] at lasts
  rw [withLineEnd, if_neg unended]

theorem ended_part_kept (boundary core : Bytes) :
    withLineEnd (delimiter boundary ++ crlf ++ (core ++ crlf)) = delimiter boundary ++ crlf ++
      core ++ crlf := by
  have ends : crlf.isSuffixOf (delimiter boundary ++ crlf ++ (core ++ crlf)) = true := by
    rw [List.isSuffixOf_iff_suffix, ← List.append_assoc]
    exact List.suffix_append _ crlf
  rw [withLineEnd, if_pos ends]
  simp only [List.append_assoc]

theorem assembled_siblings (boundary : Bytes) (parts : List Bytes)
    (rewritable : ∀ part ∈ parts, part ≠ [] ∧ crlf.isSuffixOf part = false) :
    (parts.flatMap fun part => withLineEnd (delimiter boundary ++ crlf ++ part)) =
      parts.flatMap fun part => delimiter boundary ++ crlf ++ part ++ crlf := by
  induction parts with
  | nil => rfl
  | cons part parts ih =>
    have own := rewritable part List.mem_cons_self
    rw [List.flatMap_cons, List.flatMap_cons, sibling_ended boundary part own.1 own.2,
      ih fun other member => rewritable other (List.mem_cons_of_mem _ member)]

theorem assemble_multipart_parts (boundary core : Bytes) (before after : List Bytes)
    (rewritable : ∀ part ∈ before ++ after, part ≠ [] ∧ crlf.isSuffixOf part = false) :
    assembleMultipart (before ++ [core ++ crlf] ++ after) (delimiter boundary) =
      partsText boundary (before ++ [core] ++ after) crlf := by
  have first := assembled_siblings boundary before fun part member =>
    rewritable part (List.mem_append_left _ member)
  have second := assembled_siblings boundary after fun part member =>
    rewritable part (List.mem_append_right _ member)
  rw [assembleMultipart, partsText, List.flatMap_append, List.flatMap_append, first, second,
    List.flatMap_append,
    List.flatMap_append, List.flatMap_singleton, List.flatMap_singleton, ended_part_kept]
  simp only [List.append_assoc]

section Free

variable (boundary : Bytes) (whole : 13 ∉ boundary ∧ 10 ∉ boundary)

theorem free_inside (text : Bytes) (free : FreeOf boundary text) :
    cutFirst (crlf ++ delimiter boundary) text = none := cut_first_none_behind _ crlf text free

theorem free_front (text rest : Bytes) (free : FreeOf boundary (text ++ rest)) :
    FreeOf boundary text := by
  rw [FreeOf, ← List.append_assoc] at free
  have shorter := cut_first_none_within _ [] _ rest free
  rwa [List.append_nil] at shorter

include whole

theorem free_join (text rest : Bytes) (first : FreeOf boundary text) (second : FreeOf boundary rest) :
    FreeOf boundary (text ++ crlf ++ rest) := by
  have joined := marker_absent_join 13 (10 :: delimiter boundary)
    (delimiter_fresh boundary whole) (crlf ++ text)
    (10 :: rest) first second
  rw [FreeOf]
  simpa [crlf] using joined

theorem free_parts (own : Bytes) (parts : List Bytes) (epilogue : Bytes)
    (closing : FreeOf boundary (delimiter own ++ ascii "--" ++ epilogue))
    (free : ∀ part ∈ parts, FreeOf boundary part) : FreeOf boundary (partsText own parts epilogue) := by
  induction parts with
  | nil => exact closing
  | cons part parts ih =>
    have later := ih fun other member => free other (List.mem_cons_of_mem _ member)
    have line : FreeOf boundary (delimiter own) := by
      rw [List.append_assoc] at closing
      exact free_front boundary _ _ closing
    have shape : partsText own (part :: parts) epilogue =
        delimiter own ++ crlf ++ (part ++ crlf ++ partsText own parts epilogue) := by simp [partsText]
    rw [shape]
    exact free_join boundary whole _ _ line
      (free_join boundary whole _ _ (free part List.mem_cons_self) later)

end Free

section

variable (enclosing : List Bytes) (level : Level) (levels : List Level) (part : Bytes)

theorem boundaries_unbroken (is : IsLevel level)
    (whole : ∀ boundary ∈ enclosing, 13 ∉ boundary ∧ 10 ∉ boundary) :
    ∀ boundary ∈ level.boundary :: enclosing, 13 ∉ boundary ∧ 10 ∉ boundary := by
  intro boundary member
  rcases List.mem_cons.mp member with rfl | outer
  · exact is.unbroken
  · exact whole boundary outer

theorem message_text_free (conforming : Conforming enclosing levels part)
    (are : ∀ level ∈ levels, IsLevel level)
    (whole : ∀ boundary ∈ enclosing, 13 ∉ boundary ∧ 10 ∉ boundary) :
    ∀ boundary ∈ enclosing, FreeOf boundary (messageText levels part) := by
  induction levels generalizing enclosing with
  | nil => exact conforming
  | cons level levels ih =>
    obtain ⟨around, -, others, inner⟩ := conforming
    have is := are level List.mem_cons_self
    have later := ih (level.boundary :: enclosing) inner
      (fun other member => are other (List.mem_cons_of_mem _ member))
        (boundaries_unbroken enclosing level is whole)
    intro boundary member
    obtain ⟨header, preamble, closing⟩ := around boundary member
    have parts : FreeOf boundary (partsText level.boundary
        (level.before ++ [messageText levels part] ++ level.after) level.epilogue) := by
      apply free_parts boundary (whole boundary member) _ _ _ closing
      intro other among
      simp only [List.mem_append, List.mem_singleton] at among
      rcases among with (front | rfl) | back
      · exact others other (List.mem_append_left _ front) boundary (List.mem_cons_of_mem _ member)
      · exact later boundary (List.mem_cons_of_mem _ member)
      · exact others other (List.mem_append_right _ back) boundary (List.mem_cons_of_mem _ member)
    have body : FreeOf boundary (level.body (messageText levels part)) := by
      rw [Level.body]
      rcases is.lines with none | ⟨text, lines⟩
      · rw [none]
        exact parts
      · rw [lines] at preamble ⊢
        exact free_join boundary (whole boundary member) _ _ (free_front boundary _ _ preamble) parts
    obtain ⟨fields, cut⟩ := is.header
    have ends : level.headers = fields ++ crlf ++ crlf := by
      rw [cut_first_splits cut]
      simp [crlf]
    rw [messageText, ends]
    rw [ends] at header
    exact free_join boundary (whole boundary member) _ _ (free_front boundary _ _ header) body

theorem cut_first_more (needle text rest before behind : Bytes)
    (cut : cutFirst needle text = some (before, behind)) :
    cutFirst needle (text ++ rest) = some (before, behind ++ rest) := by
  have room : needle.length ≤ text.length := by
    rw [cut_first_splits cut, List.length_append, List.length_append]
    omega
  induction text generalizing before with
  | nil =>
    have empty : needle = [] := List.length_eq_zero_iff.mp (Nat.le_zero.mp room)
    rw [empty] at cut ⊢
    cases cut
    cases rest with
    | nil => rfl
    | cons byte rest => rfl
  | cons byte text ih =>
    rw [cutFirst] at cut
    split at cut
    case isTrue here =>
      cases cut
      rw [hasPrefix, List.isPrefixOf_iff_prefix] at here
      have longer : hasPrefix (byte :: (text ++ rest)) needle = true :=
        List.isPrefixOf_iff_prefix.mpr (here.trans (List.prefix_append (byte :: text) rest))
      rw [List.cons_append, cutFirst, if_pos longer, ← List.cons_append,
        List.drop_append_of_le_length room]
    case isFalse elsewhere =>
      obtain ⟨⟨front, back⟩, later, same⟩ := Option.map_eq_some_iff.mp cut
      cases same
      have longer : ¬hasPrefix (byte :: (text ++ rest)) needle = true := by
        intro starts
        rw [hasPrefix, List.isPrefixOf_iff_prefix, ← List.cons_append] at starts
        exact elsewhere (List.isPrefixOf_iff_prefix.mpr
          (List.prefix_of_prefix_length_le starts (List.prefix_append (byte :: text) rest) room))
      have shorter : needle.length ≤ text.length := by
        rw [cut_first_splits later, List.length_append, List.length_append]
        omega
      rw [List.cons_append, cutFirst, if_neg longer, ih front later shorter]
      rfl

theorem level_header_end (is : IsLevel level) (rest : Bytes) :
    findHeaderEnd (level.headers ++ rest) = some level.headers.length := by
  obtain ⟨fields, cut⟩ := is.header
  have longer := cut_first_more _ _ rest _ _ cut
  have size := congrArg List.length (cut_first_splits cut)
  rw [List.append_nil, List.length_append] at size
  rw [findHeaderEnd, longer, size]
  rfl

def cleared (epilogue : Bytes)
    (level : Level) : Level := { level with preamble := [], epilogue := epilogue }

theorem parts_text_epilogue (boundary : Bytes) (parts : List Bytes) (epilogue : Bytes) :
    partsText boundary parts epilogue = partsText boundary parts [] ++ epilogue := by
  simp [partsText]

theorem cleared_body : (cleared crlf level).body part = (cleared [] level).body part ++ crlf := by
  simp only [Level.body, cleared, List.nil_append]
  exact parts_text_epilogue _ _ crlf

theorem replacement_part_built (replacement : Bytes) (unended : crlf.isSuffixOf replacement = false) :
    buildReplacementPart replacement = replacementPart replacement ++ crlf := by
  rw [buildReplacementPart, withLineEnd, unended]
  simp [replacementPart]

theorem level_split (conforming : Conforming enclosing (level :: levels) part)
    (are : ∀ other ∈ level :: levels, IsLevel other)
    (rewritable : Rewritable level) (whole : ∀ boundary ∈ enclosing, 13 ∉ boundary ∧ 10 ∉ boundary) :
    splitMultipart (level.body (messageText levels part)) level.boundary =
      level.before ++ [messageText levels part] ++ level.after := by
  obtain ⟨-, -, others, inner⟩ := conforming
  have is := are level List.mem_cons_self
  have child := message_text_free (level.boundary :: enclosing) levels part inner
    (fun other member => are other (List.mem_cons_of_mem _ member))
      (boundaries_unbroken enclosing level is whole) level.boundary List.mem_cons_self
  have free : ∀ other ∈ level.before ++ [messageText levels part] ++ level.after,
      cutFirst (crlf ++ delimiter level.boundary) other = none := by
    intro other among
    apply free_inside
    simp only [List.mem_append, List.mem_singleton] at among
    rcases among with (front | rfl) | back
    · exact others other (List.mem_append_left _ front) _ List.mem_cons_self
    · exact child
    · exact others other (List.mem_append_right _ back) _ List.mem_cons_self
  rw [Level.body]
  cases texts : level.before ++ [messageText levels part] ++ level.after with
  | nil => simp at texts
  | cons first parts =>
    rw [texts] at free
    exact split_multipart_parts level.boundary is.unbroken _ _ first parts is.lines rewritable.1 free

theorem level_set (child core : Bytes) (rewritable : Rewritable level) :
    assembleMultipart ((level.before ++ [child] ++ level.after).set level.before.length (core ++ crlf))
      (delimiter level.boundary) = (cleared crlf level).body core := by
  have placed : (level.before ++ [child] ++ level.after).set level.before.length (core ++ crlf) =
      level.before ++ [core ++ crlf] ++ level.after := by
    simp
  rw [placed, assemble_multipart_parts level.boundary core _ _ rewritable.2]
  rfl

theorem replace_in_levels (replacement : Bytes) (unended : crlf.isSuffixOf replacement = false)
    (enclosing : List Bytes) (level : Level) (levels : List Level) (part : Bytes)
    (conforming : Conforming enclosing (level :: levels) part)
    (are : ∀ other ∈ level :: levels, IsLevel other)
    (rewritable : ∀ other ∈ level :: levels, Rewritable other)
    (whole : ∀ boundary ∈ enclosing, 13 ∉ boundary ∧ 10 ∉ boundary) :
    replacePartInMultipart replacement (partPath (level :: levels))
      (level.body (messageText levels part))
        level.boundary =
      some (some ((cleared crlf level).body
        (messageText (levels.map (cleared [])) (replacementPart replacement)))) := by
  induction levels generalizing level enclosing with
  | nil =>
    have own := rewritable level List.mem_cons_self
    have split := level_split enclosing level [] part conforming are own whole
    have here : (level.before ++ [messageText [] part] ++ level.after)[level.before.length]? =
        some (messageText [] part) := by simp
    rw [partPath, List.map_cons, List.map_nil, replacePartInMultipart, split, here]
    dsimp only
    rw [if_pos rfl, replacement_part_built replacement unended, level_set level _ _ own]
    rfl
  | cons next levels ih =>
    have own := rewritable level List.mem_cons_self
    have split := level_split enclosing level (next :: levels) part conforming are own whole
    have is := are level List.mem_cons_self
    have inner := are next (List.mem_cons_of_mem _ List.mem_cons_self)
    have later := ih (level.boundary :: enclosing) next conforming.2.2.2
      (fun other member => are other (List.mem_cons_of_mem _ member))
      (fun other member => rewritable other (List.mem_cons_of_mem _ member))
        (boundaries_unbroken enclosing level is whole)
    have here : (level.before ++ [messageText (next :: levels) part] ++
      level.after)[level.before.length]? =
        some (messageText (next :: levels) part) := by simp
    have header := level_header_end next inner (next.body (messageText levels part))
    rw [partPath, List.map_cons, replacePartInMultipart, split, here]
    dsimp only
    rw [if_neg (by simp), messageText, header]
    dsimp only
    rw [List.take_left, List.drop_left, inner.named]
    dsimp only
    rw [if_neg inner.filled]
    rw [← partPath, later, cleared_body, Option.map_some,
      Option.map_some, ← List.append_assoc next.headers,
      level_set level _ _ own]
    rfl

theorem free_nil (boundary : Bytes) : FreeOf boundary [] := by
  simp [FreeOf, crlf, delimiter, ascii, cutFirst, hasPrefix, List.isPrefixOf]

theorem cleared_conforming (part new : Bytes)
    (conforming : Conforming enclosing levels part)
    (outer : ∀ boundary ∈ enclosing, FreeOf boundary new)
    (apart : ∀ level ∈ levels, FreeOf level.boundary new) :
    Conforming enclosing (levels.map (cleared [])) new := by
  induction levels generalizing enclosing with
  | nil => exact outer
  | cons level levels ih =>
    obtain ⟨around, -, others, inner⟩ := conforming
    refine ⟨?_, free_nil _, others, ?_⟩
    · intro boundary member
      obtain ⟨header, -, closing⟩ := around boundary member
      refine ⟨header, free_nil _, ?_⟩
      have front := free_front boundary (delimiter level.boundary ++ ascii "--") _ closing
      simpa [cleared] using front
    · apply ih (level.boundary :: enclosing) inner
      · intro boundary member
        rcases List.mem_cons.mp member with rfl | before
        · exact apart level List.mem_cons_self
        · exact outer boundary before
      · intro other member
        exact apart other (List.mem_cons_of_mem _ member)

end

theorem cleared_same (epilogue : Bytes) (level : Level) : SameParts level (cleared epilogue level) :=
  ⟨rfl, rfl, rfl, rfl⟩

/-- A part is replaced and the parts beside its path are left as they were, where none
of them is empty or ends in a line end, no preamble holds a delimiter's text, and the
replacement fits its place. -/
theorem replace_touches_one_part (levels : List Level) (part replacement : Bytes) (nested : levels ≠ [])
    (are : ∀ level ∈ levels, IsLevel level) (conforming : Conforming [] levels part)
    (rewritable : ∀ level ∈ levels, Rewritable level) (unended : crlf.isSuffixOf replacement = false)
    (apart : ∀ level ∈ levels, FreeOf level.boundary (replacementPart replacement)) :
    ReplacesOnly levels part replacement := by
  cases levels with
  | nil => exact absurd rfl nested
  | cons level levels =>
    have is := are level List.mem_cons_self
    have rewritten := replace_in_levels replacement unended [] level levels part conforming are
      rewritable (by simp)
    have inner := cleared_conforming [level.boundary] levels part
      (replacementPart replacement) conforming.2.2.2
      (by
        intro boundary member
        rw [List.mem_singleton] at member
        rw [member]
        exact apart level List.mem_cons_self)
      fun other member => apart other (List.mem_cons_of_mem _ member)
    refine ⟨cleared crlf level :: levels.map (cleared []), ?_, ?_, ?_⟩
    · refine List.Forall₂.cons (cleared_same crlf level) ?_
      exact List.forall₂_map_right_iff.mpr (List.forall₂_same.mpr fun other _ => cleared_same [] other)
    · exact ⟨by simp, free_nil _, conforming.2.2.1, inner⟩
    · rw [messageText, replacePartByPath, level_header_end level is]
      dsimp only
      rw [List.take_left, List.drop_left, is.named]
      dsimp only
      rw [if_neg is.filled, rewritten]
      rfl

def nestedLevels : List Level :=
  [⟨ascii "Content-Type: multipart/mixed; boundary=a\r\n\r\n", ascii "a", ascii "hi\r\n",
    [ascii "\r\none"], [],
    ascii "\r\nbye"⟩,
   ⟨ascii "Content-Type: multipart/mixed; boundary=b\r\n\r\n", ascii "b", [], [],
     [ascii "\r\ntwo"], []⟩]

theorem replace_in_nested_touches_one_part :
    ReplacesOnly nestedLevels (ascii "\r\nold") (ascii "new") := by
  apply replace_touches_one_part nestedLevels (ascii "\r\nold") (ascii "new") (by simp [nestedLevels])
  · intro level member
    simp only [nestedLevels, List.mem_cons, List.not_mem_nil, or_false] at member
    rcases member with rfl | rfl
    · exact ⟨⟨ascii "Content-Type: multipart/mixed; boundary=a", by decide⟩, by decide, by decide, by decide,
        Or.inr ⟨ascii "hi", by decide⟩⟩
    · exact ⟨⟨ascii "Content-Type: multipart/mixed; boundary=b", by decide⟩, by decide, by decide, by decide,
        Or.inl rfl⟩
  · decide
  · intro level member
    simp only [nestedLevels, List.mem_cons, List.not_mem_nil, or_false] at member
    rcases member with rfl | rfl
    · exact ⟨by decide, by decide⟩
    · exact ⟨by decide, by decide⟩
  · decide
  · decide

def openLevel : Level :=
  ⟨ascii "Content-Type: multipart/mixed; boundary=b\r\n\r\n", ascii "b", [], [],
    [ascii "\r\nend\r\n"], crlf⟩

theorem part_beside_loses_line_end :
    Conforming [] [openLevel] (ascii "\r\nold") ∧
      splitMultipart (openLevel.body (ascii "\r\nold")) (ascii "b") =
        [ascii "\r\nold", ascii "\r\nend\r\n"] ∧
      ¬ReplacesOnly [openLevel] (ascii "\r\nold") (ascii "new") := by
  refine ⟨by decide, by decide, ?_⟩
  rintro ⟨rewritten, same, -, written⟩
  cases same with
  | cons kept none =>
    rename_i other others
    cases none
    obtain ⟨headers, boundary, preamble, before, after, epilogue⟩ := other
    obtain ⟨rfl, rfl, rfl, rfl⟩ := kept
    have output : replacePartByPath (messageText [openLevel] (ascii "\r\nold"))
      (partPath [openLevel]) (ascii "new") =
        some (some (openLevel.headers ++ partsText (ascii "b")
          [replacementPart (ascii "new"), ascii "\r\nend"] crlf)) := by decide +kernel
    rw [output, Option.some.injEq, Option.some.injEq, messageText, Level.body] at written
    have texts : partsText (ascii "b") [replacementPart (ascii "new"), ascii "\r\nend"] crlf =
        preamble ++ (partsText (ascii "b") [replacementPart (ascii "new"), ascii "\r\nend\r\n"]
          [] ++ epilogue) := by
      rw [List.append_cancel_left written, ← parts_text_epilogue]
      rfl
    -- the two texts are of one length, so nothing stands before or behind
    have sizes : (partsText (ascii "b") [replacementPart (ascii "new"), ascii "\r\nend"] crlf).length =
        (partsText (ascii "b") [replacementPart (ascii "new"), ascii "\r\nend\r\n"] []).length := by
          decide +kernel
    have lengths := congrArg List.length texts
    rw [List.length_append, List.length_append, sizes] at lengths
    have noPreamble : preamble = [] := List.length_eq_zero_iff.mp (by omega)
    have noEpilogue : epilogue = [] := List.length_eq_zero_iff.mp (by omega)
    rw [noPreamble, noEpilogue] at texts
    exact absurd texts (by decide +kernel)

end Herold.Sieve

import Herold.Go.Strings

/-!
# The parts of a multipart body

`scanMultipartBoundaries` finds the delimiter lines of a multipart body and the
header and body of each part between them, as offsets into the body. A part
whose header block is not empty is found where it stands. The end of an empty
one is looked for behind its blank line, in the part's body or beyond.
-/

namespace Herold.Mail

open Herold.Go

/-- `bytes.Index` from an offset on. -/
def indexFrom (text needle : Bytes) (start : Nat) : Option Nat :=
  (cutFirst needle (text.drop start)).map fun cut => start + cut.1.length

structure ScannedPart where
  hdrStart : Nat
  hdrEnd : Nat
  bodyStart : Nat
  bodyEnd : Nat
  deriving DecidableEq

def atLineStart (text : Bytes) (position : Nat) : Bool :=
  position = 0 || text[position - 1]? = some 10

def skipLWSP (text : Bytes) (position : Nat) : Nat :=
  position + ((text.drop position).takeWhile fun byte => byte = 32 || byte = 9).length

def skipByte (byte : UInt8) (text : Bytes) (position : Nat) : Nat :=
  if text[position]? = some byte then position + 1 else position

def stripByte (byte : UInt8) (text : Bytes) (position : Nat) : Nat :=
  if 0 < position ∧ text[position - 1]? = some byte then position - 1 else position

def findHdrEnd (text : Bytes) (start : Nat) : Option (Nat × Nat) :=
  match indexFrom text [13, 10, 13, 10] start with
  | some position => some (position, position + 4)
  | none => (indexFrom text [10, 10] start).map fun position => (position, position + 2)

def findNextBoundaryLine (text delimiter : Bytes) : Nat → Nat → Option Nat
  | 0, _ => none
  | fuel + 1, position =>
    if position < text.length then
      match indexFrom text delimiter position with
      | none => none
      | some found =>
        if atLineStart text found then some found
        else findNextBoundaryLine text delimiter fuel (found + 1)
    else none

/-- The end of a delimiter line, and whether it is the closing one. -/
def delimiterLine (text : Bytes) (position : Nat) : Nat × Bool :=
  let lineEnd := skipLWSP text position
  let isClose := text[lineEnd]? = some 45 && text[lineEnd + 1]? = some 45
  let lineEnd := if isClose then skipLWSP text (lineEnd + 2) else lineEnd
  (skipByte 10 text (skipByte 13 text lineEnd), isClose)

/-- The ranges of the part behind a delimiter line, and where the next one
stands. -/
def scanPart (text delimiter : Bytes) (lineEnd : Nat) : ScannedPart × Option Nat :=
  let (hdrEnd, bodyStart) := (findHdrEnd text lineEnd).getD (text.length, text.length)
  let next := findNextBoundaryLine text delimiter (text.length + 1) bodyStart
  let bodyEnd := match next with
    | none => text.length
    | some position => stripByte 13 text (stripByte 10 text position)
  (⟨lineEnd, hdrEnd, bodyStart, bodyEnd⟩, next)

def addPart (continued : Nat → List ScannedPart × Bool) :
    ScannedPart × Option Nat → List ScannedPart × Bool
  | (part, none) => ([part], false)
  | (part, some next) => (part :: (continued next).1, (continued next).2)

/-- The loop of `scanMultipartBoundaries` over the delimiters from an offset on. -/
def scanFrom (text delimiter : Bytes) : Nat → Nat → List ScannedPart × Bool
  | 0, _ => ([], false)
  | fuel + 1, position =>
    if position < text.length then
      match indexFrom text delimiter position with
      | none => ([], false)
      | some delimStart =>
        if !atLineStart text delimStart then scanFrom text delimiter fuel (delimStart + 1)
        else
          let (lineEnd, isClose) := delimiterLine text (delimStart + delimiter.length)
          if isClose then ([], true)
          else addPart (scanFrom text delimiter fuel) (scanPart text delimiter lineEnd)
    else ([], false)

/-- Every turn of the loop moves on, so as many turns as there are bytes are
enough. -/
def scanMultipartBoundaries (text boundary : Bytes) : List ScannedPart × Bool :=
  scanFrom text ([45, 45] ++ boundary) (text.length + 1) 0

/-- A part as it is written: its header lines and the lines of its body, of which
there is at least one. -/
structure WrittenPart where
  header : List Bytes
  firstLine : Bytes
  moreLines : List Bytes
  deriving DecidableEq

def lineBreak : Bytes := [13, 10]

def wholeLines (lines : List Bytes) : Bytes := lines.flatMap fun line => line ++ lineBreak

namespace WrittenPart

def headerBlock (part : WrittenPart) : Bytes := wholeLines part.header

def body (part : WrittenPart) : Bytes :=
    part.firstLine ++ part.moreLines.flatMap fun line => lineBreak ++ line

def text (part : WrittenPart) : Bytes := part.headerBlock ++ lineBreak ++ part.body

end WrittenPart

/-- The line has no line break in it and does not begin with the delimiter: nor
does the text from the line on, should the delimiter go on behind a break. -/
structure IsPlain (delimiter line : Bytes) : Prop where
  unbroken : 13 ∉ line ∧ 10 ∉ line
  apart : ∀ rest, hasPrefix (line ++ (lineBreak ++ rest)) delimiter = false

structure IsPart (delimiter : Bytes) (part : WrittenPart) : Prop where
  header : ∀ line ∈ part.header, IsPlain delimiter line ∧ line ≠ []
  body : ∀ line ∈ part.firstLine :: part.moreLines, IsPlain delimiter line

/-- A multipart body: the lines of the preamble, the parts between delimiters, and
whatever stands behind the closing one. -/
def multipart (boundary : Bytes) (preamble : List Bytes) (parts : List WrittenPart) (epilogue : Bytes) :
    Bytes :=
  wholeLines preamble ++
    (parts.flatMap fun part => [45, 45] ++ boundary ++ lineBreak ++ part.text ++ lineBreak) ++
      ([45, 45] ++ boundary ++ [45, 45] ++ lineBreak ++ epilogue)

def partRanges (delimiter : Bytes) : Nat → List WrittenPart → List ScannedPart
  | _, [] => []
  | start, part :: parts =>
    let hdrStart := start + delimiter.length + 2
    let bodyStart := hdrStart + part.headerBlock.length + 2
    let bodyEnd := bodyStart + part.body.length
    ⟨hdrStart, hdrStart + (part.headerBlock.length - 2), bodyStart, bodyEnd⟩ ::
      partRanges delimiter (bodyEnd + 2) parts

theorem cut_first_some (needle text before after : Bytes)
    (found : cutFirst needle text = some (before, after)) :
    hasPrefix (text.drop before.length) needle = true ∧
      ∀ earlier < before.length, hasPrefix (text.drop earlier) needle = false := by
  induction text generalizing before with
  | nil =>
    simp only [cutFirst] at found
    split at found
    case isTrue empty =>
      cases found
      rw [empty]
      exact ⟨rfl, by simp⟩
    case isFalse => cases found
  | cons first rest ih =>
    simp only [cutFirst] at found
    split at found
    case isTrue here =>
      cases found
      exact ⟨here, by simp⟩
    case isFalse elsewhere =>
      obtain ⟨⟨front, back⟩, later, same⟩ := Option.map_eq_some_iff.mp found
      cases same
      obtain ⟨here, earlier⟩ := ih front later
      refine ⟨here, ?_⟩
      intro place before
      cases place with
      | zero => simpa using elsewhere
      | succ place => exact earlier place (by simpa using before)

theorem cut_first_none (needle text : Bytes) (found : cutFirst needle text = none) (place : Nat) :
    hasPrefix (text.drop place) needle = false := by
  induction text generalizing place with
  | nil =>
    simp only [cutFirst] at found
    split at found
    case isTrue => cases found
    case isFalse filled =>
      cases needle with
      | nil => exact absurd rfl filled
      | cons byte needle => simp [hasPrefix]
  | cons first rest ih =>
    simp only [cutFirst] at found
    split at found
    case isTrue => cases found
    case isFalse elsewhere =>
      rw [Option.map_eq_none_iff] at found
      cases place with
      | zero => simpa using elsewhere
      | succ place => exact ih found place

/-- The needle stands at the place and nowhere before it, from the start on. -/
structure FirstAt (text needle : Bytes) (start position : Nat) : Prop where
  reached : start ≤ position
  here : hasPrefix (text.drop position) needle = true
  first : ∀ earlier, start ≤ earlier → earlier < position →
    hasPrefix (text.drop earlier) needle = false

theorem index_from_some (text needle : Bytes) (start position : Nat)
    (found : indexFrom text needle start = some position) : FirstAt text needle start position := by
  obtain ⟨⟨before, after⟩, cut, rfl⟩ := Option.map_eq_some_iff.mp found
  obtain ⟨here, first⟩ := cut_first_some needle _ before after cut
  rw [List.drop_drop] at here
  refine ⟨Nat.le_add_right _ _, here, ?_⟩
  intro earlier late soon
  have absent := first (earlier - start) (by simp only at soon; omega)
  rwa [List.drop_drop, Nat.add_sub_cancel' late] at absent

theorem index_from_first (text needle : Bytes) (start position : Nat)
    (first : FirstAt text needle start position) : indexFrom text needle start = some position := by
  cases found : indexFrom text needle start with
  | none =>
    have absent := cut_first_none needle _ (Option.map_eq_none_iff.mp found) (position - start)
    rw [List.drop_drop, Nat.add_sub_cancel' first.reached, first.here] at absent
    cases absent
  | some other =>
    have least := index_from_some text needle start other found
    rcases Nat.lt_trichotomy other position with less | same | more
    · have absent := first.first other least.reached less
      rw [least.here] at absent
      cases absent
    · rw [same]
    · have absent := least.first position first.reached more
      rw [first.here] at absent
      cases absent

structure FirstLineAt (text delimiter : Bytes) (start position : Nat) : Prop where
  reached : start ≤ position
  here : hasPrefix (text.drop position) delimiter = true
  line : atLineStart text position = true
  first : ∀ earlier, start ≤ earlier → earlier < position →
    hasPrefix (text.drop earlier) delimiter = true → atLineStart text earlier = false

section

variable {text delimiter : Bytes} {start position : Nat}

/-- A search from the start meets the delimiter at the place, or a mention of it
in the middle of a line before. -/
theorem first_line_index (first : FirstLineAt text delimiter start position) :
    ∃ found, indexFrom text delimiter start = some found ∧
      (found = position ∨ start ≤ found ∧ found < position ∧ atLineStart text found = false ∧
        FirstLineAt text delimiter (found + 1) position) := by
  cases index : indexFrom text delimiter start with
  | none =>
    have absent := cut_first_none delimiter _ (Option.map_eq_none_iff.mp index) (position - start)
    rw [List.drop_drop, Nat.add_sub_cancel' first.reached, first.here] at absent
    cases absent
  | some found =>
    have least := index_from_some text delimiter start found index
    refine ⟨found, rfl, ?_⟩
    rcases Nat.lt_trichotomy found position with less | same | more
    · refine .inr ⟨least.reached, less, first.first found least.reached less least.here, less,
        first.here, first.line, ?_⟩
      intro earlier late soon
      exact first.first earlier (by have := least.reached; omega) soon
    · exact .inl same
    · have absent := least.first position first.reached more
      rw [first.here] at absent
      cases absent

variable (filled : delimiter ≠ [])

include filled

theorem delimiter_inside (here : hasPrefix (text.drop position) delimiter = true) :
    position < text.length := by
  by_contra past
  rw [List.drop_eq_nil_of_le (by omega)] at here
  cases delimiter with
  | nil => exact filled rfl
  | cons byte rest => cases here

variable (first : FirstLineAt text delimiter start position)

include first

theorem find_next_first (fuel : Nat) (enough : position - start < fuel) :
    findNextBoundaryLine text delimiter fuel start = some position := by
  induction fuel generalizing start with
  | zero => omega
  | succ fuel ih =>
    have inside := delimiter_inside filled first.here
    have early : start < text.length := Nat.lt_of_le_of_lt first.reached inside
    rw [findNextBoundaryLine, if_pos early]
    obtain ⟨found, index, same | ⟨late, less, middle, later⟩⟩ := first_line_index first
    · simp only [index, same, first.line, if_true]
    · simp only [index, middle, Bool.false_eq_true, if_false]
      exact ih later (by omega)

theorem scan_from_first (fuel turns : Nat) (enough : position - start + turns ≤ fuel)
    (more : 0 < turns) :
    ∃ left, turns ≤ left ∧ scanFrom text delimiter fuel start =
      scanFrom text delimiter left position := by
  induction fuel generalizing start with
  | zero => omega
  | succ fuel ih =>
    have inside := delimiter_inside filled first.here
    have early : start < text.length := Nat.lt_of_le_of_lt first.reached inside
    obtain ⟨found, index, same | ⟨late, less, middle, later⟩⟩ := first_line_index first
    · refine ⟨fuel + 1, by omega, ?_⟩
      have again : indexFrom text delimiter position = some position :=
        index_from_first _ _ _ _ ⟨Nat.le_refl _, first.here, by omega⟩
      rw [scanFrom, scanFrom, if_pos early, if_pos inside, index, again, same]
    · obtain ⟨left, many, same⟩ := ih later (by omega)
      refine ⟨left, many, ?_⟩
      rw [scanFrom, if_pos early, index]
      simp only [middle, Bool.not_false, if_true]
      exact same

end

theorem at_line_start_after (front rest : Bytes) (closed : front = [] ∨ [10] <:+ front) :
    atLineStart (front ++ rest) front.length = true := by
  rcases closed with rfl | ⟨before, rfl⟩
  · rfl
  · simp [atLineStart]

/-- A delimiter without a carriage return that begins the text from a line on
begins the line. -/
theorem plain_of_line (delimiter line : Bytes) (single : 13 ∉ delimiter)
    (unbroken : 13 ∉ line ∧ 10 ∉ line) (apart : hasPrefix line delimiter = false) :
    IsPlain delimiter line := by
  have shorter (rest : Bytes) (here : hasPrefix (line ++ (lineBreak ++ rest)) delimiter = true) :
      hasPrefix line delimiter = true := by
    clear apart unbroken
    induction delimiter generalizing line with
    | nil => simp [hasPrefix]
    | cons byte delimiter ih =>
      rw [List.mem_cons, not_or] at single
      cases line with
      | nil =>
        simp only [List.nil_append, lineBreak, List.cons_append, hasPrefix,
          List.isPrefixOf_cons_cons, Bool.and_eq_true, beq_iff_eq] at here
        exact absurd here.1.symm single.1
      | cons head line =>
        simp only [List.cons_append, hasPrefix, List.isPrefixOf_cons_cons, Bool.and_eq_true,
          beq_iff_eq] at here ⊢
        exact ⟨here.1, ih line single.2 here.2⟩
  refine ⟨unbroken, fun rest => ?_⟩
  rw [← Bool.not_eq_true]
  intro here
  rw [shorter rest here] at apart
  cases apart

theorem inside_line (front line rest : Bytes) (offset : Nat) (unbroken : 10 ∉ line)
    (inside : offset < line.length + 1) :
    atLineStart (front ++ (line ++ 13 :: rest)) (front.length + offset + 1) = false := by
  have byte : (front ++ (line ++ 13 :: rest))[front.length + offset]? ≠ some 10 := by
    rw [List.getElem?_append_right (Nat.le_add_right _ _), Nat.add_sub_cancel_left]
    by_cases within : offset < line.length
    · rw [List.getElem?_append_left within, List.getElem?_eq_getElem within]
      intro feed
      exact unbroken ((Option.some.inj feed) ▸ List.getElem_mem within)
    · have last : offset = line.length := by omega
      rw [last, List.getElem?_append_right (Nat.le_refl _), Nat.sub_self]
      simp
  simp [atLineStart, byte]

theorem whole_lines_length (line : Bytes) (lines : List Bytes) :
    (wholeLines (line :: lines)).length = line.length + 2 + (wholeLines lines).length := by
  simp only [wholeLines, List.flatMap_cons, List.length_append, lineBreak, List.length_cons,
    List.length_nil]

theorem plain_lines_quiet (delimiter front rest : Bytes)
    (lines : List Bytes) (plain : ∀ line ∈ lines, IsPlain delimiter line) (offset : Nat)
    (inside : offset < (wholeLines lines).length)
    (here : hasPrefix ((wholeLines lines ++ rest).drop offset) delimiter = true) :
    atLineStart (front ++ (wholeLines lines ++ rest)) (front.length + offset) = false := by
  induction lines generalizing front offset with
  | nil => simp [wholeLines] at inside
  | cons line lines ih =>
    have first := plain line List.mem_cons_self
    have shape : wholeLines (line :: lines) ++ rest =
        line ++ 13 :: (10 :: (wholeLines lines ++ rest)) := by simp [wholeLines, lineBreak]
    rw [shape] at here ⊢
    cases offset with
    | zero =>
      have here : hasPrefix (line ++ (lineBreak ++ (wholeLines lines ++ rest))) delimiter = true := here
      rw [first.apart] at here
      cases here
    | succ offset =>
      by_cases within : offset < line.length + 1
      · exact inside_line front line _ offset first.unbroken.2 within
      · have size := whole_lines_length line lines
        have whole : front ++ (line ++ 13 :: (10 :: (wholeLines lines ++ rest))) =
            (front ++ line ++ lineBreak) ++ (wholeLines lines ++ rest) := by simp [lineBreak]
        have further : front.length + (offset + 1) =
            (front ++ line ++ lineBreak).length + (offset - (line.length + 1)) := by
          simp only [List.length_append, lineBreak, List.length_cons, List.length_nil]
          omega
        have passed : (line ++ 13 :: (10 :: (wholeLines lines ++ rest))).drop (offset + 1) =
            (wholeLines lines ++ rest).drop (offset - (line.length + 1)) := by
          have split : line ++ 13 :: (10 :: (wholeLines lines ++ rest)) =
              (line ++ lineBreak) ++ (wholeLines lines ++ rest) := by simp [lineBreak]
          have count : offset + 1 = (line ++ lineBreak).length + (offset - (line.length + 1)) := by
            simp only [List.length_append, lineBreak, List.length_cons, List.length_nil]
            omega
          rw [split, count, List.drop_length_add_append]
        rw [passed] at here
        rw [whole, further]
        exact ih _ (fun other member => plain other (List.mem_cons_of_mem _ member)) _ (by omega) here

theorem delimiter_behind_lines (delimiter front rest : Bytes)
    (lines : List Bytes) (plain : ∀ line ∈ lines, IsPlain delimiter line)
    (closed : front = [] ∨ [10] <:+ front) :
    FirstLineAt (front ++ wholeLines lines ++ (delimiter ++ rest)) delimiter front.length
      (front ++ wholeLines lines).length where
  reached := by simp
  here := by simp [hasPrefix]
  line := by
    apply at_line_start_after
    rcases List.eq_nil_or_concat' lines with rfl | ⟨before, last, rfl⟩
    · simpa [wholeLines] using closed
    · exact .inr ⟨front ++ wholeLines before ++ last ++ [13], by simp [wholeLines, lineBreak]⟩
  first := by
    intro earlier late soon here
    rw [List.length_append] at soon
    obtain ⟨offset, rfl⟩ := Nat.exists_eq_add_of_le late
    rw [List.append_assoc] at here ⊢
    rw [List.drop_length_add_append] at here
    exact plain_lines_quiet delimiter front (delimiter ++ rest) lines plain offset
      (by omega) here

theorem no_break_in_line (written rest : Bytes) (offset : Nat) (unbroken : 13 ∉ written)
    (inside : offset < written.length ∨ offset = written.length + 1) :
    hasPrefix ((written ++ 13 :: 10 :: rest).drop offset) [13, 10, 13, 10] = false := by
  rcases inside with within | feed
  · rw [List.drop_append_of_le_length (Nat.le_of_lt within), List.drop_eq_getElem_cons within,
      List.cons_append]
    have other : written[offset] ≠ 13 := fun same => unbroken (same ▸ List.getElem_mem within)
    simp [hasPrefix, List.isPrefixOf_cons_cons, Ne.symm other]
  · have past : (written ++ 13 :: 10 :: rest).drop offset = 10 :: rest := by
      have split : written ++ 13 :: 10 :: rest = (written ++ [13]) ++ 10 :: rest := by simp
      rw [split, feed]
      exact List.drop_left' (by simp)
    rw [past]
    simp [hasPrefix, List.isPrefixOf_cons_cons]

theorem blank_behind_header (first : Bytes) (more : List Bytes) (rest : Bytes)
    (lines : ∀ line ∈ first :: more, (13 ∉ line ∧ 10 ∉ line) ∧ line ≠ []) :
    FirstAt (wholeLines (first :: more) ++ (lineBreak ++ rest)) [13, 10, 13, 10] 0
      ((wholeLines (first :: more)).length - 2) := by
  induction more generalizing first with
  | nil =>
    have shape : wholeLines [first] ++ (lineBreak ++ rest) = first ++ 13 :: 10 ::
      (13 :: 10 :: rest) := by
      simp [wholeLines, lineBreak]
    have size : (wholeLines [first]).length - 2 = first.length := by simp [wholeLines, lineBreak]
    rw [shape, size]
    refine ⟨Nat.zero_le _, by simp [hasPrefix], ?_⟩
    intro earlier _ soon
    exact no_break_in_line first _ earlier (lines first List.mem_cons_self).1.1 (.inl soon)
  | cons second more ih =>
    have later := ih second fun line member => lines line (List.mem_cons_of_mem _ member)
    have filled := (lines second (by simp)).2
    have shape : wholeLines (first :: second :: more) ++ (lineBreak ++ rest) =
        first ++ 13 :: 10 :: (wholeLines (second :: more) ++ (lineBreak ++ rest)) := by
      simp [wholeLines, lineBreak]
    have size := whole_lines_length first (second :: more)
    have sizeMore := whole_lines_length second more
    have passed (offset : Nat) :
        (first ++ 13 :: 10 :: (wholeLines (second :: more) ++ (lineBreak ++ rest))).drop
            (first.length + 2 + offset) =
          (wholeLines (second :: more) ++ (lineBreak ++ rest)).drop offset := by
      have split : first ++ 13 :: 10 :: (wholeLines (second :: more) ++ (lineBreak ++ rest)) =
          (first ++ lineBreak) ++ (wholeLines (second :: more) ++ (lineBreak ++ rest)) := by
        simp [lineBreak]
      have count : first.length + 2 + offset = (first ++ lineBreak).length + offset := by
        simp [lineBreak]
      rw [split, count, List.drop_length_add_append]
    rw [shape]
    refine ⟨Nat.zero_le _, ?_, ?_⟩
    · have place : (wholeLines (first :: second :: more)).length - 2 =
          first.length + 2 + ((wholeLines (second :: more)).length - 2) := by omega
      rw [place, passed]
      exact later.here
    · intro earlier _ soon
      have unbroken := (lines first List.mem_cons_self).1.1
      by_cases within : earlier < first.length
      · exact no_break_in_line first _ earlier unbroken (.inl within)
      by_cases feed : earlier = first.length + 1
      · exact no_break_in_line first _ earlier unbroken (.inr feed)
      by_cases ends : earlier = first.length
      · -- the next line is not empty, so its first byte comes behind this break
        rw [ends, List.drop_left]
        cases second with
        | nil => exact absurd rfl filled
        | cons byte second =>
          have other : byte ≠ 13 := by
            intro same
            exact (lines (byte :: second) (by simp)).1.1 (by simp [same])
          simp [hasPrefix, List.isPrefixOf_cons_cons, wholeLines, Ne.symm other]
      · obtain ⟨offset, rfl⟩ := Nat.exists_eq_add_of_le (by omega : first.length + 2 ≤ earlier)
        rw [passed]
        exact later.first offset (Nat.zero_le _) (by omega)

theorem first_at_behind (front text needle : Bytes) (position : Nat)
    (first : FirstAt text needle 0 position) :
    FirstAt (front ++ text) needle front.length (front.length + position) where
  reached := Nat.le_add_right _ _
  here := by
    rw [List.drop_length_add_append]
    exact first.here
  first := by
    intro earlier late soon
    obtain ⟨offset, rfl⟩ := Nat.exists_eq_add_of_le late
    rw [List.drop_length_add_append]
    exact first.first offset (Nat.zero_le _) (by omega)

theorem whole_lines_body (part : WrittenPart) (rest : Bytes) :
    part.body ++ (lineBreak ++ rest) = wholeLines (part.firstLine :: part.moreLines) ++ rest := by
  have joined (first : Bytes) (more : List Bytes) :
      (first ++ more.flatMap fun line => lineBreak ++ line) ++ lineBreak =
        wholeLines (first :: more) := by
    induction more generalizing first with
    | nil => simp [wholeLines]
    | cons second more ih =>
      have later := ih second
      simp only [wholeLines, List.flatMap_cons, List.append_assoc] at later ⊢
      rw [later]
  rw [← List.append_assoc, WrittenPart.body, joined]

theorem delimiter_line_open (front rest : Bytes) :
    delimiterLine (front ++ (lineBreak ++ rest)) front.length = (front.length + 2, false) := by
  have first : (front ++ (lineBreak ++ rest))[front.length]? = some 13 := by
    rw [List.getElem?_append_right (Nat.le_refl _), Nat.sub_self]
    rfl
  have second : (front ++ (lineBreak ++ rest))[front.length + 1]? = some 10 := by
    rw [List.getElem?_append_right (Nat.le_add_right _ _), Nat.add_sub_cancel_left]
    rfl
  have skipped : skipLWSP (front ++ (lineBreak ++ rest)) front.length = front.length := by
    simp [skipLWSP, lineBreak]
  simp [delimiterLine, skipped, first, second, skipByte]

theorem delimiter_line_close (front rest : Bytes) :
    (delimiterLine (front ++ ([45, 45] ++ rest)) front.length).2 = true := by
  have first : (front ++ ([45, 45] ++ rest))[front.length]? = some 45 := by
    rw [List.getElem?_append_right (Nat.le_refl _), Nat.sub_self]
    rfl
  have second : (front ++ ([45, 45] ++ rest))[front.length + 1]? = some 45 := by
    rw [List.getElem?_append_right (Nat.le_add_right _ _), Nat.add_sub_cancel_left]
    rfl
  have skipped : skipLWSP (front ++ ([45, 45] ++ rest)) front.length = front.length := by
    simp [skipLWSP]
  simp only [delimiterLine, skipped, first, second]
  rfl

theorem strip_line_break (front rest : Bytes) :
    stripByte 13 (front ++ (lineBreak ++ rest)) (stripByte 10 (front ++ (lineBreak ++ rest))
      (front.length + 2)) = front.length := by
  have first : (front ++ (lineBreak ++ rest))[front.length]? = some 13 := by
    rw [List.getElem?_append_right (Nat.le_refl _), Nat.sub_self]
    rfl
  have second : (front ++ (lineBreak ++ rest))[front.length + 1]? = some 10 := by
    rw [List.getElem?_append_right (Nat.le_add_right _ _), Nat.add_sub_cancel_left]
    rfl
  simp [stripByte, first, second]

theorem find_hdr_end_filled (front rest : Bytes) (header : List Bytes) (filled : header ≠ [])
    (lines : ∀ line ∈ header, (13 ∉ line ∧ 10 ∉ line) ∧ line ≠ []) :
    findHdrEnd (front ++ (wholeLines header ++ (lineBreak ++ rest))) front.length =
      some (front.length + ((wholeLines header).length - 2),
        front.length + (wholeLines header).length + 2) := by
  cases header with
  | nil => exact absurd rfl filled
  | cons first more =>
    have size := whole_lines_length first more
    have blank := index_from_first _ _ _ _
      (first_at_behind front _ _ _ (blank_behind_header first more rest lines))
    simp only [findHdrEnd, blank, Option.some.injEq, Prod.mk.injEq, true_and]
    omega

theorem find_hdr_end_empty (front rest : Bytes) :
    (findHdrEnd (front ++ (lineBreak ++ rest)) front.length).getD
        ((front ++ (lineBreak ++ rest)).length, (front ++ (lineBreak ++ rest)).length) ≠
      (front.length, front.length + 2) := by
  unfold findHdrEnd
  intro same
  split at same
  · simp only [Option.getD_some, Prod.mk.injEq] at same
    omega
  · cases found : indexFrom (front ++ (lineBreak ++ rest)) [10, 10] front.length with
    | none =>
      rw [found] at same
      have size := congrArg Prod.fst same
      simp only [Option.map_none, Option.getD_none, List.length_append, lineBreak,
        List.length_cons] at size
      omega
    | some position =>
      rw [found] at same
      simp only [Option.map_some, Option.getD_some, Prod.mk.injEq] at same
      have here := (index_from_some _ _ _ _ found).here
      rw [same.1, List.drop_left] at here
      cases here

section

variable {delimiter : Bytes} (filled : delimiter ≠ [])

include filled

theorem scan_part_filled (front rest : Bytes) (part : WrittenPart) (wellFormed : IsPart delimiter part)
    (header : part.header ≠ []) :
    scanPart (front ++ (part.text ++ (lineBreak ++ (delimiter ++ rest)))) delimiter front.length =
      (⟨front.length, front.length + (part.headerBlock.length - 2),
          front.length + part.headerBlock.length + 2,
          front.length + part.headerBlock.length + 2 + part.body.length⟩,
        some (front.length + part.headerBlock.length + 2 + part.body.length + 2)) := by
  obtain ⟨opened, split⟩ : ∃ opened, opened = front ++ part.headerBlock ++ lineBreak := ⟨_, rfl⟩
  have openedSize : opened.length = front.length + part.headerBlock.length + 2 := by
    rw [split]
    simp only [List.length_append, lineBreak, List.length_cons, List.length_nil]
  have text : front ++ (part.text ++ (lineBreak ++ (delimiter ++ rest))) =
      opened ++ (part.body ++ (lineBreak ++ (delimiter ++ rest))) := by
    simp [split, WrittenPart.text, List.append_assoc]
  have headerEnd := find_hdr_end_filled front (part.body ++ (lineBreak ++ (delimiter ++ rest)))
    part.header header fun line member =>
      ⟨(wellFormed.header line member).1.unbroken, (wellFormed.header line member).2⟩
  have headerText : front ++ (wholeLines part.header ++ (lineBreak ++ (part.body ++
      (lineBreak ++ (delimiter ++ rest))))) =
      opened ++ (part.body ++ (lineBreak ++ (delimiter ++ rest))) := by
    simp [split, WrittenPart.headerBlock, List.append_assoc]
  rw [headerText] at headerEnd
  have bodySize : (wholeLines (part.firstLine :: part.moreLines)).length = part.body.length + 2 := by
    have same := congrArg List.length (whole_lines_body part [])
    simp only [List.append_nil, List.length_append, lineBreak, List.length_cons,
      List.length_nil] at same
    omega
  have next := delimiter_behind_lines delimiter opened rest
    (part.firstLine :: part.moreLines) wellFormed.body
    (.inr (by
      refine ⟨front ++ part.headerBlock ++ [13], ?_⟩
      simp [split, lineBreak]))
  have lined : opened ++ wholeLines (part.firstLine :: part.moreLines) ++ (delimiter ++ rest) =
      opened ++ (part.body ++ (lineBreak ++ (delimiter ++ rest))) := by
    rw [whole_lines_body, List.append_assoc]
  rw [lined, List.length_append, bodySize] at next
  have found := find_next_first filled next
    ((opened ++ (part.body ++ (lineBreak ++ (delimiter ++ rest)))).length + 1)
    (by simp only [List.length_append, lineBreak, List.length_cons]; omega)
  have stripped := strip_line_break (opened ++ part.body) (delimiter ++ rest)
  rw [List.append_assoc, List.length_append] at stripped
  have headerSize : front.length + (wholeLines part.header).length + 2 = opened.length :=
    openedSize.symm
  rw [text]
  simp only [scanPart, headerEnd, Option.getD_some, headerSize, found, ← Nat.add_assoc, stripped]
  rw [openedSize]
  rfl

end

theorem scan_part_head (continued : Nat → List ScannedPart × Bool) (text delimiter : Bytes)
    (lineEnd hdrEnd bodyStart : Nat)
    (wrong : (findHdrEnd text lineEnd).getD (text.length, text.length) ≠ (hdrEnd, bodyStart)) :
    (addPart continued (scanPart text delimiter lineEnd)).1.head?.map
      (fun part => (part.hdrEnd, part.bodyStart)) ≠ some (hdrEnd, bodyStart) := by
  unfold scanPart
  dsimp only
  cases findNextBoundaryLine text delimiter (text.length + 1)
      ((findHdrEnd text lineEnd).getD (text.length, text.length)).2 with
  | none => simpa [addPart, Prod.ext_iff] using wrong
  | some next => simpa [addPart, Prod.ext_iff] using wrong

def partsText (delimiter closing : Bytes) : List WrittenPart → Bytes
  | [] => delimiter ++ ([45, 45] ++ closing)
  | part :: parts =>
    delimiter ++ (lineBreak ++ (part.text ++ (lineBreak ++ partsText delimiter closing parts)))

theorem multipart_text (boundary : Bytes) (preamble : List Bytes) (parts : List WrittenPart)
    (epilogue : Bytes) : multipart boundary preamble parts epilogue =
      wholeLines preamble ++ partsText ([45, 45] ++ boundary) (lineBreak ++ epilogue) parts := by
  have each : (parts.flatMap fun part => [45, 45] ++ boundary ++ lineBreak ++ part.text ++ lineBreak) ++
      ([45, 45] ++ boundary ++ [45, 45] ++ lineBreak ++ epilogue) =
      partsText ([45, 45] ++ boundary) (lineBreak ++ epilogue) parts := by
    induction parts with
    | nil => simp [partsText]
    | cons part parts ih =>
      rw [partsText, ← ih]
      simp
  rw [multipart, List.append_assoc, each]

theorem parts_text_starts (delimiter closing : Bytes) (parts : List WrittenPart) :
    ∃ rest, partsText delimiter closing parts = delimiter ++ rest := by
  cases parts with
  | nil => exact ⟨_, rfl⟩
  | cons part parts => exact ⟨_, rfl⟩

section

variable {delimiter : Bytes} (filled : delimiter ≠ [])

include filled

theorem scan_from_turn (front rest : Bytes) (fuel : Nat) (closed : front = [] ∨ [10] <:+ front) :
    scanFrom (front ++ (delimiter ++ rest)) delimiter (fuel + 1) front.length =
      if (delimiterLine (front ++ (delimiter ++ rest)) (front.length + delimiter.length)).2 then ([], true)
      else addPart (scanFrom (front ++ (delimiter ++ rest)) delimiter fuel)
        (scanPart (front ++ (delimiter ++ rest)) delimiter
          (delimiterLine (front ++ (delimiter ++ rest)) (front.length + delimiter.length)).1) := by
  have here : hasPrefix ((front ++ (delimiter ++ rest)).drop front.length) delimiter = true := by
    simp [hasPrefix]
  have inside := delimiter_inside filled here
  have index : indexFrom (front ++ (delimiter ++ rest)) delimiter front.length = some front.length :=
    index_from_first _ _ _ _ ⟨Nat.le_refl _, here, by omega⟩
  rw [scanFrom, if_pos inside, index]
  simp only [at_line_start_after front (delimiter ++ rest) closed, Bool.not_true,
    Bool.false_eq_true, if_false]

theorem scan_parts_iff (closing front : Bytes) (parts : List WrittenPart) (fuel : Nat)
    (closed : front = [] ∨ [10] <:+ front) (wellFormed : ∀ part ∈ parts, IsPart delimiter part)
    (enough : parts.length < fuel) :
    scanFrom (front ++ partsText delimiter closing parts) delimiter fuel front.length =
        (partRanges delimiter front.length parts, true) ↔
      ∀ part ∈ parts, part.header ≠ [] := by
  induction parts generalizing front fuel with
  | nil =>
    obtain ⟨fuel, rfl⟩ := Nat.exists_eq_add_of_lt enough
    have ends := delimiter_line_close (front ++ delimiter) closing
    rw [List.append_assoc, List.length_append] at ends
    rw [partsText, scan_from_turn filled front _ _ closed, ends]
    simp [partRanges]
  | cons part parts ih =>
    rw [List.length_cons] at enough
    obtain ⟨fuel, rfl⟩ : ∃ turns, fuel = turns + 1 := ⟨fuel - 1, by omega⟩
    obtain ⟨rest, starts⟩ := parts_text_starts delimiter closing parts
    have line := delimiter_line_open (front ++ delimiter)
      (part.text ++ (lineBreak ++ partsText delimiter closing parts))
    rw [List.append_assoc, List.length_append] at line
    rw [partsText, scan_from_turn filled front _ _ closed, line, if_neg Bool.false_ne_true]
    have later := ih (front ++ (delimiter ++ (lineBreak ++ (part.text ++ lineBreak)))) fuel
      (.inr ⟨front ++ (delimiter ++ (lineBreak ++ (part.text ++ [13]))), by simp [lineBreak]⟩)
      (fun other member => wellFormed other (List.mem_cons_of_mem _ member))
      (by omega)
    have text : front ++ (delimiter ++ (lineBreak ++ (part.text ++ (lineBreak ++
        partsText delimiter closing parts)))) =
        (front ++ (delimiter ++ (lineBreak ++ (part.text ++ lineBreak)))) ++
          partsText delimiter closing parts := by simp
    have opened : front ++ (delimiter ++ (lineBreak ++ (part.text ++ (lineBreak ++
        partsText delimiter closing parts)))) =
        (front ++ (delimiter ++ lineBreak)) ++ (part.text ++ (lineBreak ++
          partsText delimiter closing parts)) := by simp
    have openedSize : (front ++ (delimiter ++ lineBreak)).length = front.length +
      delimiter.length + 2 := by
      simp [lineBreak, Nat.add_assoc]
    by_cases header : part.header = []
    · -- the scanner's ranges of this part are wrong, whatever comes behind it
      have wrong := find_hdr_end_empty (front ++ (delimiter ++ lineBreak))
        (part.body ++ (lineBreak ++ partsText delimiter closing parts))
      have block : part.headerBlock = [] := by rw [WrittenPart.headerBlock, header]; rfl
      have body : lineBreak ++ (part.body ++ (lineBreak ++ partsText delimiter closing parts)) =
          part.text ++ (lineBreak ++ partsText delimiter closing parts) := by
        simp [WrittenPart.text, block]
      rw [body, ← opened, openedSize] at wrong
      have differs := scan_part_head (scanFrom (front ++ (delimiter ++ (lineBreak ++ (part.text ++
        (lineBreak ++ partsText delimiter closing parts))))) delimiter fuel) _ delimiter _ _ _ wrong
      constructor
      · intro same
        rw [same] at differs
        simp [partRanges, block] at differs
      · intro all
        exact absurd header (all part List.mem_cons_self)
    · have scanned := scan_part_filled filled (front ++ (delimiter ++ lineBreak)) rest part
        (wellFormed part List.mem_cons_self) header
      rw [← starts, ← opened, openedSize] at scanned
      have next : front.length + delimiter.length + 2 + part.headerBlock.length + 2 +
          part.body.length + 2 =
          (front ++ (delimiter ++ (lineBreak ++ (part.text ++ lineBreak)))).length := by
        simp only [WrittenPart.text, List.length_append, lineBreak, List.length_cons, List.length_nil]
        omega
      rw [scanned, addPart, next, text, partRanges, ← next]
      rw [← next, Prod.ext_iff] at later
      simp only [Prod.mk.injEq, List.cons.injEq, true_and, List.forall_mem_cons]
      rw [later]
      exact ⟨fun rest => ⟨header, rest⟩, fun all => all.2⟩

end

def slice (text : Bytes) (start stop : Nat) : Bytes := (text.drop start).take (stop - start)

/-- The ranges hold the header block, but for its last line break, and the body. -/
def Holds (text : Bytes) (range : ScannedPart) (part : WrittenPart) : Prop :=
  slice text range.hdrStart range.hdrEnd = part.headerBlock.take (part.headerBlock.length - 2) ∧
    slice text range.bodyStart range.bodyEnd = part.body

theorem slice_behind (front inner rest : Bytes) :
    slice (front ++ (inner ++ rest)) front.length (front.length + inner.length) = inner := by
  simp [slice]

theorem part_ranges_hold (delimiter closing front : Bytes) (parts : List WrittenPart) :
    List.Forall₂ (Holds (front ++ partsText delimiter closing parts))
      (partRanges delimiter front.length parts) parts := by
  induction parts generalizing front with
  | nil => exact .nil
  | cons part parts ih =>
    have later := ih (front ++ delimiter ++ lineBreak ++ part.text ++ lineBreak)
    have text : front ++ partsText delimiter closing (part :: parts) =
        (front ++ delimiter ++ lineBreak ++ part.text ++ lineBreak) ++
          partsText delimiter closing parts := by simp [partsText]
    have next : (front ++ delimiter ++ lineBreak ++ part.text ++ lineBreak).length =
        front.length + delimiter.length + 2 + part.headerBlock.length + 2 + part.body.length + 2 := by
      simp only [WrittenPart.text, List.length_append, lineBreak, List.length_cons, List.length_nil]
      omega
    rw [next] at later
    rw [text, partRanges]
    refine .cons ⟨?_, ?_⟩ later
    · have headers := slice_behind (front ++ delimiter ++ lineBreak)
        (part.headerBlock.take (part.headerBlock.length - 2))
        (part.headerBlock.drop (part.headerBlock.length - 2) ++ lineBreak ++ part.body ++
          lineBreak ++ partsText delimiter closing parts)
      have whole : front ++ delimiter ++ lineBreak ++
          (part.headerBlock.take (part.headerBlock.length - 2) ++
            (part.headerBlock.drop (part.headerBlock.length - 2) ++ lineBreak ++ part.body ++
              lineBreak ++ partsText delimiter closing parts)) =
          front ++ delimiter ++ lineBreak ++ part.text ++ lineBreak ++
            partsText delimiter closing parts := by
        simp only [WrittenPart.text, List.append_assoc]
        rw [← List.append_assoc (part.headerBlock.take _), List.take_append_drop]
      have size : (front ++ delimiter ++ lineBreak).length = front.length + delimiter.length + 2 := by
        simp only [List.length_append, lineBreak, List.length_cons, List.length_nil]
      have taken : (part.headerBlock.take (part.headerBlock.length - 2)).length =
          part.headerBlock.length - 2 := by
        rw [List.length_take]
        omega
      rwa [whole, size, taken] at headers
    · have bodies := slice_behind (front ++ delimiter ++ lineBreak ++ part.headerBlock ++ lineBreak)
        part.body (lineBreak ++ partsText delimiter closing parts)
      have whole : front ++ delimiter ++ lineBreak ++ part.headerBlock ++ lineBreak ++
          (part.body ++ (lineBreak ++ partsText delimiter closing parts)) =
          front ++ delimiter ++ lineBreak ++ part.text ++ lineBreak ++
            partsText delimiter closing parts := by
        simp [WrittenPart.text, List.append_assoc]
      have size : (front ++ delimiter ++ lineBreak ++ part.headerBlock ++ lineBreak).length =
          front.length + delimiter.length + 2 + part.headerBlock.length + 2 := by
        simp only [List.length_append, lineBreak, List.length_cons, List.length_nil]
      rwa [whole, size] at bodies

/-- A multipart body is split into its parts exactly when none of them has an
empty header block. -/
theorem multipart_split_iff (boundary : Bytes) (preamble : List Bytes) (parts : List WrittenPart)
    (epilogue : Bytes) (before : ∀ line ∈ preamble, IsPlain ([45, 45] ++ boundary) line)
    (wellFormed : ∀ part ∈ parts, IsPart ([45, 45] ++ boundary) part) :
    List.Forall₂ (Holds (multipart boundary preamble parts epilogue))
        (partRanges ([45, 45] ++ boundary) (wholeLines preamble).length parts) parts ∧
      (scanMultipartBoundaries (multipart boundary preamble parts epilogue) boundary =
          (partRanges ([45, 45] ++ boundary) (wholeLines preamble).length parts, true) ↔
        ∀ part ∈ parts, part.header ≠ []) := by
  rw [multipart_text]
  refine ⟨part_ranges_hold _ _ _ _, ?_⟩
  have filled : [45, 45] ++ boundary ≠ [] := List.cons_ne_nil _ _
  obtain ⟨rest, starts⟩ := parts_text_starts ([45, 45] ++ boundary) (lineBreak ++ epilogue) parts
  have first := delimiter_behind_lines ([45, 45] ++ boundary) [] rest preamble before (.inl rfl)
  rw [List.nil_append, ← starts, List.length_nil] at first
  have room : parts.length <
    (partsText ([45, 45] ++ boundary) (lineBreak ++ epilogue) parts).length := by
    clear starts first wellFormed
    induction parts with
    | nil => simp [partsText]
    | cons part parts ih =>
      simp only [partsText, lineBreak, List.length_append, List.length_cons] at ih ⊢
      omega
  obtain ⟨left, many, same⟩ := scan_from_first filled first
    ((wholeLines preamble ++ partsText ([45, 45] ++ boundary) (lineBreak ++ epilogue) parts).length + 1)
    (parts.length + 1) (by rw [List.length_append]; omega) (Nat.succ_pos _)
  have closed : wholeLines preamble = [] ∨ [10] <:+ wholeLines preamble := by
    rcases List.eq_nil_or_concat' preamble with rfl | ⟨lines, last, rfl⟩
    · exact .inl rfl
    · exact .inr ⟨wholeLines lines ++ last ++ [13], by simp [wholeLines, lineBreak]⟩
  rw [scanMultipartBoundaries, same]
  exact scan_parts_iff filled _ _ parts left closed wellFormed many

def plainLine (delimiter line : Bytes) : Bool :=
  !line.contains 13 && !line.contains 10 && !hasPrefix line delimiter

theorem plain_line (delimiter line : Bytes) (single : 13 ∉ delimiter)
    (plain : plainLine delimiter line = true) : IsPlain delimiter line := by
  simp only [plainLine, Bool.and_eq_true, Bool.not_eq_true', List.contains_eq_mem,
    decide_eq_false_iff_not] at plain
  exact plain_of_line delimiter line single plain.1 plain.2

def twoParts : List WrittenPart :=
  [⟨[ascii "A: 1", ascii "B: 2"], ascii "one", [[], ascii " --b"]⟩, ⟨[ascii "A: 1"], [], []⟩]

theorem multipart_split_iff_two_parts :
    scanMultipartBoundaries (multipart (ascii "b") [ascii "x--b"] twoParts (ascii "--b")) (ascii "b") =
      ([⟨11, 21, 25, 36⟩, ⟨43, 47, 51, 51⟩], true) := by
  have single : 13 ∉ ([45, 45] ++ ascii "b" : Bytes) := by decide
  have plain (line : Bytes) (apart : plainLine ([45, 45] ++ ascii "b") line = true) :=
    plain_line _ line single apart
  have before : ∀ line ∈ [ascii "x--b"], plainLine ([45, 45] ++ ascii "b") line = true := by decide
  have headers : ∀ part ∈ twoParts, ∀ line ∈ part.header,
      plainLine ([45, 45] ++ ascii "b") line = true ∧ line ≠ [] := by decide
  have bodies : ∀ part ∈ twoParts, ∀ line ∈ part.firstLine :: part.moreLines,
      plainLine ([45, 45] ++ ascii "b") line = true := by decide
  have split := multipart_split_iff (ascii "b") [ascii "x--b"] twoParts (ascii "--b")
    (fun line member => plain line (before line member))
    (fun part member =>
      ⟨fun line inside => ⟨plain line (headers part member line inside).1,
          (headers part member line inside).2⟩,
        fun line inside => plain line (bodies part member line inside)⟩)
  exact split.2.mpr (by decide)

/-- A part without header lines takes its first bytes for a header. -/
theorem empty_header_misread :
    IsPart (ascii "--b") ⟨[], ascii "one", []⟩ ∧
      scanMultipartBoundaries (multipart (ascii "b") [] [⟨[], ascii "one", []⟩] []) (ascii "b") ≠
        (partRanges (ascii "--b") 0 [⟨[], ascii "one", []⟩], true) := by
  constructor
  · have plain : ∀ line ∈ [ascii "one"], plainLine (ascii "--b") line = true := by decide
    exact ⟨by simp, fun line member => plain_line _ line (by decide) (plain line member)⟩
  · decide +kernel

end Herold.Mail

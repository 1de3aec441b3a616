import Herold.Smtp.DotStream
import Mathlib.Data.List.Infix
import Mathlib.Data.Nat.Find

/-!
# Where the data of a message ends

The server splits what the client sends behind the 354 reply at the line feeds
and ends the data at the first line that strips to a single dot. The strict end
of data is a dot line between two CRLFs, with the start of the stream as the
first of them. The two agree as long as no dot line has a bare line feed for a
neighbour. Behind a line that breaks the size limit another loop looks for the
end, with a test of its own.
-/

namespace Herold.Smtp

open Herold.Go

def IsLine (line : Bytes) : Prop := ∃ text, line = text ++ [10] ∧ 10 ∉ text

theorem stream_lines_line (text rest : Bytes) (unbroken : 10 ∉ text) :
    streamLines (text ++ 10 :: rest) =
      ((text ++ [10]) :: (streamLines rest).1, (streamLines rest).2) := by
  induction text with
  | nil => simp [streamLines]
  | cons first text ih =>
    rw [List.mem_cons, not_or] at unbroken
    simp [streamLines, ih unbroken.2, Ne.symm unbroken.1]

theorem stream_lines_append (lines : List Bytes) (rest : Bytes) (whole : ∀ line ∈ lines, IsLine line) :
    streamLines (lines.flatten ++ rest) =
      (lines ++ (streamLines rest).1, (streamLines rest).2) := by
  induction lines with
  | nil => rfl
  | cons line lines ih =>
    obtain ⟨text, rfl, unbroken⟩ := whole line List.mem_cons_self
    have later := ih fun other member => whole other (List.mem_cons_of_mem _ member)
    have split : ((text ++ [10]) :: lines).flatten ++ rest =
        text ++ 10 :: (lines.flatten ++ rest) := by simp
    rw [split, stream_lines_line text _ unbroken, later]
    rfl

theorem stream_lines_whole (stream : Bytes) : ∀ line ∈ (streamLines stream).1, IsLine line := by
  induction stream with
  | nil => simp [streamLines]
  | cons first rest ih =>
    intro line member
    by_cases feed : first = 10
    · simp only [streamLines, feed, if_true, List.mem_cons] at member
      rcases member with rfl | later
      · exact ⟨[], rfl, by simp⟩
      · exact ih line later
    · cases found : (streamLines rest).1 with
      | nil => simp [streamLines, feed, found] at member
      | cons line' lines =>
        simp only [streamLines, feed, found, if_false, List.mem_cons] at member
        rw [found] at ih
        rcases member with rfl | later
        · obtain ⟨text, rfl, unbroken⟩ := ih line' List.mem_cons_self
          exact ⟨first :: text, rfl, by simp [unbroken, Ne.symm feed]⟩
        · exact ih line (List.mem_cons_of_mem _ later)

theorem stream_lines_flatten (stream : Bytes) :
    (streamLines stream).1.flatten ++ (streamLines stream).2 = stream := by
  induction stream with
  | nil => rfl
  | cons first rest ih =>
    by_cases feed : first = 10
    · simp [streamLines, feed, ih]
    · cases found : (streamLines rest).1 with
      | nil =>
        rw [found] at ih
        simpa [streamLines, feed, found] using ih
      | cons line lines =>
        rw [found] at ih
        simpa [streamLines, feed, found] using ih

theorem stream_lines_unbroken (stream : Bytes) : 10 ∉ (streamLines stream).2 := by
  induction stream with
  | nil => simp [streamLines]
  | cons first rest ih =>
    by_cases feed : first = 10
    · simpa [streamLines, feed] using ih
    · cases found : (streamLines rest).1 with
      | nil => simpa [streamLines, feed, found, Ne.symm feed] using ih
      | cons line lines => simpa [streamLines, feed, found] using ih

theorem stream_lines_closed (text : Bytes) : (streamLines (text ++ [10])).2 = [] := by
  have opened := stream_lines_append (streamLines text).1 ((streamLines text).2 ++ [10])
    (stream_lines_whole text)
  rw [← List.append_assoc, stream_lines_flatten,
    stream_lines_line _ [] (stream_lines_unbroken text)] at opened
  rw [opened]
  rfl

theorem line_length (line : Bytes) (whole : IsLine line) : 1 ≤ line.length := by
  obtain ⟨text, rfl, _⟩ := whole
  simp

/-- The line `readDotStream` takes for the end of data. -/
def isEndLine (line : Bytes) : Bool := stripLineEnd line = [46]

def stored (line : Bytes) : Bytes := dropDot (stripLineEnd line) ++ crlf

theorem strip_line_end_length (line : Bytes) (whole : IsLine line) :
    (stripLineEnd line).length + 1 ≤ line.length := by
  have some := line_length line whole
  obtain ⟨text, rfl, _⟩ := whole
  unfold stripLineEnd
  split_ifs with crlfEnd feedEnd
  · rw [List.length_take]
    omega
  · rw [List.length_take]
    omega
  · exact absurd (by simp : [10].isSuffixOf (text ++ [10]) = true) feedEnd

theorem stored_length (line : Bytes) (whole : IsLine line) :
    (stored line).length ≤ 2 * line.length := by
  have some := line_length line whole
  have stripped := strip_line_end_length line whole
  have dropped : (dropDot (stripLineEnd line)).length ≤ (stripLineEnd line).length := by
    unfold dropDot
    split
    · simp
    · exact Nat.le_refl _
  have parts : (stored line).length = (dropDot (stripLineEnd line)).length + 2 := by
    simp [stored, crlf]
  omega

theorem end_line_cases (line : Bytes) (whole : IsLine line) :
    isEndLine line = true ↔ line = [46, 13, 10] ∨ line = [46, 10] := by
  obtain ⟨text, rfl, unbroken⟩ := whole
  unfold isEndLine stripLineEnd
  rw [decide_eq_true_iff]
  constructor
  · intro single
    split_ifs at single with crlfEnd feedEnd
    · left
      obtain ⟨before, same⟩ := List.isSuffixOf_iff_suffix.mp crlfEnd
      rw [← same] at single ⊢
      simp only [crlf, List.length_append, List.length_cons, List.length_nil,
        Nat.add_sub_cancel, List.take_left'] at single
      simp [single, crlf]
    · right
      have dot : text = [46] := by simpa using single
      rw [dot]
      rfl
    · exact absurd (by simp : [10].isSuffixOf (text ++ [10]) = true) feedEnd
  · rintro (single | single)
    · rw [single]
      decide
    · rw [single]
      decide

def restBehindEnd (tail : Bytes) (lines : List Bytes) : Bytes :=
  ((lines.dropWhile fun line => !isEndLine line).drop 1).flatten ++
    if lines.any isEndLine then tail else []

def roomyResult (tail written : Bytes) (lines : List Bytes) : DotResult :=
  if lines.any isEndLine then
    .complete (written ++ (lines.takeWhile fun line => !isEndLine line).flatMap stored)
      (restBehindEnd tail lines)
  else .cutShort

theorem read_dot_lines_turn (maxSize : Int) (room : Nat) (tail written line : Bytes)
    (lines : List Bytes) (roomy : written.length + (stored line).length ≤ room)
    (goes : isEndLine line = false) :
    readDotLines maxSize room tail written (line :: lines) =
      if maxSize < (written.length : Int) + (stored line).length then .tooLarge (drain tail lines)
      else readDotLines maxSize room tail (written ++ stored line) lines := by
  have parts : (stored line).length = (dropDot (stripLineEnd line)).length + 2 := by
    simp [stored, crlf]
  have longer : stripLineEnd line ≠ [46] := of_decide_eq_false goes
  have free : ¬room < written.length + (dropDot (stripLineEnd line)).length + 2 := by omega
  simp only [readDotLines, if_neg longer, if_neg free, parts, List.append_assoc]
  push_cast
  rw [Int.add_assoc]
  rfl

theorem read_dot_lines_roomy (maxSize : Int) (room : Nat) (tail written : Bytes)
    (lines : List Bytes) (whole : ∀ line ∈ lines, IsLine line)
    (fits : (written.length : Int) + 2 * lines.flatten.length ≤ maxSize)
    (roomy : written.length + 2 * lines.flatten.length ≤ room) :
    readDotLines maxSize room tail written lines = roomyResult tail written lines := by
  induction lines generalizing written with
  | nil => rfl
  | cons line lines ih =>
    have short := stored_length line (whole line List.mem_cons_self)
    simp only [List.flatten_cons, List.length_append] at fits roomy
    cases ends : isEndLine line with
    | true =>
      have single : stripLineEnd line = [46] := of_decide_eq_true ends
      simp [readDotLines, roomyResult, restBehindEnd, single, ends]
    | false =>
      have later := ih (written ++ stored line)
        (fun other member => whole other (List.mem_cons_of_mem _ member))
        (by rw [List.length_append]; omega) (by rw [List.length_append]; omega)
      rw [read_dot_lines_turn maxSize room tail written line lines (by omega) ends,
        if_neg (by omega), later]
      simp [roomyResult, restBehindEnd, ends, List.append_assoc]

/-- A dot line between two CRLFs, the first of which may be the start of the
stream. -/
def EndsBehind (stream before after : Bytes) : Prop :=
  stream = before ++ [46] ++ crlf ++ after ∧ (before = [] ∨ crlf <:+ before)

def FirstEnd (stream before after : Bytes) : Prop :=
  EndsBehind stream before after ∧
    ∀ earlier later, EndsBehind stream earlier later → before.length ≤ earlier.length

/-- The reader ends the data at the first strict end and nowhere else, and
stores every line before it. Neither the limit nor the disk is in its way. -/
def FramesStrictly (stream : Bytes) : Prop :=
  ∀ (maxSize : Int) (room : Nat), 2 * stream.length ≤ maxSize → 2 * stream.length ≤ room →
    (∀ before after, FirstEnd stream before after →
      readDotStream maxSize room stream =
        .complete ((streamLines before).1.flatMap stored) after) ∧
    ((∀ before after, ¬EndsBehind stream before after) →
      readDotStream maxSize room stream = .cutShort)

/-- The first line with a single dot, if there is one, ends in CRLF and stands
behind a CRLF or at the start. -/
def endsStrictly (stream : Bytes) : Bool :=
  let lines := (streamLines stream).1
  let before := (lines.takeWhile fun line => !isEndLine line).flatten
  match lines.find? isEndLine with
  | none => true
  | some line => line = [46] ++ crlf && (before = [] || crlf.isSuffixOf before)

theorem dot_is_line : IsLine [46, 13, 10] := ⟨[46, 13], rfl, by decide⟩

theorem dot_is_end : isEndLine [46, 13, 10] = true := by decide

theorem ends_behind_line (stream before after : Bytes) (ends : EndsBehind stream before after) :
    (streamLines stream).1 = (streamLines before).1 ++ [46, 13, 10] :: (streamLines after).1 ∧
      (streamLines stream).2 = (streamLines after).2 ∧
        (streamLines before).1.flatten = before := by
  obtain ⟨rfl, start⟩ := ends
  have closed : (streamLines before).2 = [] := by
    rcases start with rfl | ⟨text, rfl⟩
    · rfl
    · have feed : text ++ crlf = (text ++ [13]) ++ [10] := by simp [crlf]
      rw [feed]
      exact stream_lines_closed _
  have flat : (streamLines before).1.flatten = before := by
    have whole := stream_lines_flatten before
    rwa [closed, List.append_nil] at whole
  have lines := stream_lines_append ((streamLines before).1 ++ [[46, 13, 10]]) after (by
    intro line member
    rcases List.mem_append.mp member with earlier | last
    · exact stream_lines_whole before line earlier
    · rw [List.mem_singleton.mp last]
      exact dot_is_line)
  have same : ((streamLines before).1 ++ [[46, 13, 10]]).flatten ++ after =
      before ++ [46] ++ crlf ++ after := by simp [flat, crlf]
  rw [same] at lines
  rw [lines]
  exact ⟨by simp, rfl, flat⟩

theorem front_is_prefix (front before back after : List Bytes) (line dot : Bytes)
    (quiet : ∀ other ∈ front, isEndLine other = false) (ends : isEndLine dot = true)
    (same : front ++ line :: back = before ++ dot :: after) :
    (before = front ∧ line = dot ∧ back = after) ∨
      ∃ between, before = front ++ line :: between ∧ back = between ++ dot :: after := by
  rcases List.append_eq_append_iff.mp same with ⟨extra, rfl, rest⟩ | ⟨extra, rfl, rest⟩
  · cases extra with
    | nil =>
      rw [List.nil_append, List.cons.injEq] at rest
      exact .inl ⟨List.append_nil _, rest⟩
    | cons first extra =>
      rw [List.cons_append, List.cons.injEq] at rest
      exact .inr ⟨extra, by rw [rest.1], rest.2⟩
  · cases extra with
    | nil =>
      rw [List.nil_append, List.cons.injEq] at rest
      exact .inl ⟨(List.append_nil _).symm, rest.1.symm, rest.2.symm⟩
    | cons first extra =>
      rw [List.cons_append, List.cons.injEq] at rest
      have silent := quiet first (by simp)
      rw [← rest.1, ends] at silent
      cases silent

theorem lines_split (lines : List Bytes) :
    (∀ line ∈ lines, isEndLine line = false) ∨
      ∃ front line back, lines = front ++ line :: back ∧
        (∀ other ∈ front, isEndLine other = false) ∧ isEndLine line = true := by
  induction lines with
  | nil => exact .inl (by simp)
  | cons line lines ih =>
    cases ends : isEndLine line with
    | true => exact .inr ⟨[], line, lines, rfl, by simp, ends⟩
    | false =>
      rcases ih with none | ⟨front, dot, back, rfl, quiet, found⟩
      · exact .inl (by simpa [ends] using none)
      · exact .inr ⟨line :: front, dot, back, rfl, by simpa [ends] using quiet, found⟩

section

variable {front back : List Bytes} {line : Bytes} (quiet : ∀ other ∈ front, isEndLine other = false)
  (ends : isEndLine line = true)

include quiet ends

theorem take_to_end :
    (front ++ line :: back).takeWhile (fun other => !isEndLine other) = front := by
  rw [List.takeWhile_append_of_pos (by simpa using quiet)]
  simp [ends]

theorem find_end : (front ++ line :: back).find? isEndLine = some line := by
  rw [List.find?_append, List.find?_eq_none.mpr (by simpa using quiet)]
  simp [ends]

theorem rest_behind_end (tail : Bytes) :
    restBehindEnd tail (front ++ line :: back) = back.flatten ++ tail := by
  unfold restBehindEnd
  rw [List.dropWhile_append_of_pos (by simpa using quiet)]
  simp [ends]

theorem roomy_result (tail : Bytes) :
    roomyResult tail [] (front ++ line :: back) =
      .complete (front.flatMap stored) (back.flatten ++ tail) := by
  unfold roomyResult
  rw [rest_behind_end quiet ends, take_to_end quiet ends]
  simp [ends]

end

theorem roomy_result_none (tail : Bytes) (lines : List Bytes)
    (none : ∀ line ∈ lines, isEndLine line = false) : roomyResult tail [] lines = .cutShort := by
  unfold roomyResult
  rw [if_neg]
  simpa using none

theorem read_dot_stream_roomy (maxSize : Int) (room : Nat) (stream : Bytes)
    (fits : 2 * stream.length ≤ maxSize) (roomy : 2 * stream.length ≤ room) :
    readDotStream maxSize room stream =
      roomyResult (streamLines stream).2 [] (streamLines stream).1 := by
  have parts : (streamLines stream).1.flatten.length ≤ stream.length := by
    have whole := congrArg List.length (stream_lines_flatten stream)
    rw [List.length_append] at whole
    omega
  unfold readDotStream
  apply read_dot_lines_roomy
  · exact stream_lines_whole stream
  · simp only [List.length_nil]
    omega
  · simp only [List.length_nil]
    omega

theorem first_end_present (stream before after : Bytes) (ends : EndsBehind stream before after) :
    ∃ first later, FirstEnd stream first later := by
  classical
  have some : ∃ size before after, before.length = size ∧ EndsBehind stream before after :=
    ⟨_, before, after, rfl, ends⟩
  obtain ⟨first, later, size, found⟩ := Nat.find_spec some
  refine ⟨first, later, found, ?_⟩
  intro earlier behind other
  rw [size]
  exact Nat.find_min' some ⟨earlier, behind, rfl, other⟩

theorem frames_without_end (stream : Bytes)
    (none : ∀ line ∈ (streamLines stream).1, isEndLine line = false) :
    FramesStrictly stream ∧ endsStrictly stream = true := by
  constructor
  · intro maxSize room fits roomy
    constructor
    · intro before after first
      have silent := none [46, 13, 10] (by
        rw [(ends_behind_line stream before after first.1).1]
        simp)
      rw [dot_is_end] at silent
      cases silent
    · intro _
      rw [read_dot_stream_roomy maxSize room stream fits roomy]
      exact roomy_result_none _ _ none
  · simp only [endsStrictly, List.find?_eq_none.mpr (by simpa using none)]

section

variable {stream line : Bytes} {front back : List Bytes}
  (lines : (streamLines stream).1 = front ++ line :: back)
  (quiet : ∀ other ∈ front, isEndLine other = false)

include lines quiet

/-- A strict end is the first dot line, or it stands behind it and leaves less
unread. -/
theorem strict_end_place (before after : Bytes) (strict : EndsBehind stream before after) :
    (before = front.flatten ∧ line = [46, 13, 10] ∧
      after = back.flatten ++ (streamLines stream).2) ∨
    (front.flatten.length < before.length ∧ after ≠ back.flatten ++ (streamLines stream).2) := by
  obtain ⟨split, tail, flat⟩ := ends_behind_line stream before after strict
  have rest := stream_lines_flatten after
  rcases front_is_prefix front _ back _ line _ quiet dot_is_end (lines.symm.trans split)
    with ⟨same, dot, later⟩ | ⟨between, same, later⟩
  · refine .inl ⟨by rw [← flat, same], dot, ?_⟩
    rw [later, tail, rest]
  · have filled := line_length line (stream_lines_whole stream line (by rw [lines]; simp))
    refine .inr ⟨?_, ?_⟩
    · rw [← flat, same]
      simp only [List.flatten_append, List.flatten_cons, List.length_append]
      omega
    · intro equal
      have sizes := congrArg List.length equal
      rw [later, tail] at sizes
      have restSize := congrArg List.length rest
      simp only [List.flatten_append, List.flatten_cons, List.length_append,
        List.length_cons, List.length_nil] at sizes restSize
      omega

variable (ends : isEndLine line = true)

include ends

theorem reads_to_end (maxSize : Int) (room : Nat) (fits : 2 * stream.length ≤ maxSize)
    (roomy : 2 * stream.length ≤ room) : readDotStream maxSize room stream =
      .complete (front.flatMap stored) (back.flatten ++ (streamLines stream).2) := by
  rw [read_dot_stream_roomy maxSize room stream fits roomy, lines]
  exact roomy_result quiet ends _

theorem ends_strictly_iff : endsStrictly stream = true ↔
    line = [46, 13, 10] ∧ (front.flatten = [] ∨ crlf <:+ front.flatten) := by
  simp only [endsStrictly, lines, find_end quiet ends, take_to_end quiet ends]
  rw [Bool.and_eq_true, Bool.or_eq_true, decide_eq_true_iff, decide_eq_true_iff,
    List.isSuffixOf_iff_suffix]
  rfl

theorem strict_of_frames (frames : FramesStrictly stream) :
    line = [46, 13, 10] ∧ (front.flatten = [] ∨ crlf <:+ front.flatten) := by
  obtain ⟨atEnd, without⟩ := frames (2 * stream.length) (2 * stream.length) (Int.le_refl _)
    (Nat.le_refl _)
  rw [reads_to_end lines quiet ends _ _ (Int.le_refl _) (Nat.le_refl _)] at atEnd without
  by_cases present : ∃ before after, EndsBehind stream before after
  · obtain ⟨before, after, strict⟩ := present
    obtain ⟨first, later, earliest⟩ := first_end_present stream before after strict
    have read := atEnd first later earliest
    simp only [DotResult.complete.injEq] at read
    rcases strict_end_place lines quiet first later earliest.1 with ⟨same, dot, _⟩ | ⟨_, differs⟩
    · exact ⟨dot, same ▸ earliest.1.2⟩
    · exact absurd read.2.symm differs
  · cases without (fun before after strict => present ⟨before, after, strict⟩)

theorem frames_of_strict (dot : line = [46, 13, 10])
    (start : front.flatten = [] ∨ crlf <:+ front.flatten) : FramesStrictly stream := by
  have whole : stream = front.flatten ++ line ++ (back.flatten ++ (streamLines stream).2) := by
    have flat := stream_lines_flatten stream
    rw [lines] at flat
    simpa using flat.symm
  have strict : EndsBehind stream front.flatten (back.flatten ++ (streamLines stream).2) := by
    refine ⟨?_, start⟩
    rw [dot] at whole
    simpa [crlf] using whole
  intro maxSize room fits roomy
  refine ⟨?_, fun absent => absurd strict (absent _ _)⟩
  intro before after first
  rcases strict_end_place lines quiet before after first.1 with ⟨same, _, rest⟩ | ⟨longer, _⟩
  · have kept := stream_lines_append front [] fun other member =>
      stream_lines_whole stream other (by rw [lines]; simp [member])
    rw [List.append_nil] at kept
    rw [reads_to_end lines quiet ends maxSize room fits roomy, same, rest, kept]
    simp [streamLines]
  · have least := first.2 _ _ strict
    omega

end

/-- The server ends the data at the strict end exactly when the first dot line is
one. -/
theorem data_ends_strictly_iff (stream : Bytes) :
    FramesStrictly stream ↔ endsStrictly stream = true := by
  rcases lines_split (streamLines stream).1 with none | ⟨front, line, back, lines, quiet, ends⟩
  · obtain ⟨frames, strict⟩ := frames_without_end stream none
    exact ⟨fun _ => strict, fun _ => frames⟩
  · rw [ends_strictly_iff lines quiet ends]
    constructor
    · exact strict_of_frames lines quiet ends
    · rintro ⟨dot, start⟩
      exact frames_of_strict lines quiet ends dot start

/-- A dot line between bare line feeds ends the data in the middle of a message. -/
theorem bare_feed_ends_data :
    ¬FramesStrictly ([97, 10] ++ [46, 10] ++ [98, 13, 10] ++ [46, 13, 10]) := by
  intro frames
  have lines : (streamLines ([97, 10] ++ [46, 10] ++ [98, 13, 10] ++ [46, 13, 10])).1 =
      [[97, 10]] ++ [46, 10] :: [[98, 13, 10], [46, 13, 10]] := by decide
  have strict := strict_of_frames lines (by decide) (by decide) frames
  exact absurd strict.1 (by decide)

/-- What a call leaves unread. At the end of the connection that is nothing. -/
def DotResult.unread : DotResult → Bytes
  | complete _ rest | tooLarge rest | writeFailed rest => rest
  | cutShort => []

theorem roomy_result_unread (tail written : Bytes) (lines : List Bytes) :
    (roomyResult tail written lines).unread = restBehindEnd tail lines := by
  unfold roomyResult
  split
  · rfl
  · rename_i none
    have past : lines.dropWhile (fun line => !isEndLine line) = [] := by
      rw [List.dropWhile_eq_nil_iff]
      simpa using none
    simp [restBehindEnd, past, none, DotResult.unread]

/-- The size limit has no say in how much of the stream is read, as long as the
disk takes the message. -/
def FramesAlike (stream : Bytes) : Prop :=
  ∀ room, 2 * stream.length ≤ room → ∀ limit other : Int,
    (readDotStream limit room stream).unread = (readDotStream other room stream).unread

/-- The drain loop meets no line it takes for the end of data and the main loop
does not, unless nothing is left behind it. -/
def drainsToEnd (tail : Bytes) : List Bytes → Bool
  | [] => true
  | line :: lines =>
    isEndLine line ||
      if drainsAt line then (lines.flatten ++ tail).isEmpty else drainsToEnd tail lines

def framesAlike (stream : Bytes) : Bool :=
  match (streamLines stream).1 with
  | [] => true
  | line :: lines => isEndLine line || drainsToEnd (streamLines stream).2 lines

theorem end_line_drains (line : Bytes) (whole : IsLine line) (ends : isEndLine line = true) :
    drainsAt line = true := by
  rcases (end_line_cases line whole).mp ends with rfl | rfl
  · decide
  · decide

theorem flat_lines_nil (lines : List Bytes) (tail : Bytes) (whole : ∀ line ∈ lines, IsLine line)
    (nothing : lines.flatten ++ tail = []) : lines = [] := by
  cases lines with
  | nil => rfl
  | cons line lines =>
    have filled := line_length line (whole line List.mem_cons_self)
    have sizes := congrArg List.length nothing
    simp only [List.flatten_cons, List.length_append, List.length_nil] at sizes
    omega

section

variable (tail : Bytes)

theorem drain_cons (line : Bytes) (lines : List Bytes) :
    drain tail (line :: lines) = if drainsAt line then lines.flatten ++ tail else drain tail lines := by
  cases stops : drainsAt line with
  | true => simp [drain, stops]
  | false => simp [drain, stops]

theorem rest_behind_cons (line : Bytes) (lines : List Bytes) :
    restBehindEnd tail (line :: lines) =
      if isEndLine line then lines.flatten ++ tail else restBehindEnd tail lines := by
  cases ends : isEndLine line with
  | true => simp [restBehindEnd, ends]
  | false => simp [restBehindEnd, ends]

theorem rest_behind_shorter (lines : List Bytes) (whole : ∀ line ∈ lines, IsLine line)
    (some : lines.flatten ++ tail ≠ []) : restBehindEnd tail lines ≠ lines.flatten ++ tail := by
  have shorter : restBehindEnd tail lines = [] ∨
      (restBehindEnd tail lines).length < (lines.flatten ++ tail).length := by
    clear some
    induction lines with
    | nil => exact .inl rfl
    | cons line lines ih =>
      have filled := line_length line (whole line List.mem_cons_self)
      rw [rest_behind_cons]
      split
      · right
        simp only [List.flatten_cons, List.length_append]
        omega
      · rcases ih fun other member => whole other (List.mem_cons_of_mem _ member) with none | less
        · exact .inl none
        · right
          simp only [List.flatten_cons, List.length_append] at less ⊢
          omega
  rcases shorter with none | less
  · rw [none]
    exact Ne.symm some
  · intro same
    rw [same] at less
    exact Nat.lt_irrefl _ less

/-- The two tests agree on where the data ends exactly when the drain loop meets
no false end. -/
theorem drain_is_rest_iff (lines : List Bytes) (whole : ∀ line ∈ lines, IsLine line) :
    drain tail lines = restBehindEnd tail lines ↔ drainsToEnd tail lines = true := by
  induction lines with
  | nil => simp [drain, restBehindEnd, drainsToEnd]
  | cons line lines ih =>
    have later := fun other member => whole other (List.mem_cons_of_mem line member)
    rw [drain_cons, rest_behind_cons, drainsToEnd]
    cases ends : isEndLine line with
    | true => simp [end_line_drains line (whole line List.mem_cons_self) ends]
    | false =>
      cases stops : drainsAt line with
      | false => simpa using ih later
      | true =>
        simp only [if_true, Bool.false_eq_true, if_false, Bool.false_or,
          List.isEmpty_iff]
        constructor
        · intro same
          by_contra some
          exact rest_behind_shorter tail lines later some same.symm
        · intro nothing
          have last := flat_lines_nil lines tail later nothing
          rw [nothing, last]
          rfl

/-- A limit that the line behind no false end breaks is one more way to the end
of data. -/
theorem turn_unread (maxSize : Int) (room : Nat) (written line : Bytes) (lines : List Bytes)
    (whole : ∀ other ∈ line :: lines, IsLine other)
    (roomy : written.length + 2 * (line :: lines).flatten.length ≤ room)
    (goes : isEndLine line = false) (agree : drainsToEnd tail lines = true)
    (later : ∀ written : Bytes, written.length + 2 * lines.flatten.length ≤ room →
      (readDotLines maxSize room tail written lines).unread = restBehindEnd tail lines) :
    (readDotLines maxSize room tail written (line :: lines)).unread = restBehindEnd tail lines := by
  have short := stored_length line (whole line List.mem_cons_self)
  simp only [List.flatten_cons, List.length_append] at roomy
  rw [read_dot_lines_turn maxSize room tail written line lines (by omega) goes]
  split
  · exact (drain_is_rest_iff tail lines fun other member =>
      whole other (List.mem_cons_of_mem line member)).mpr agree
  · apply later
    rw [List.length_append]
    omega

theorem read_dot_lines_unread (maxSize : Int) (room : Nat) (written : Bytes) (lines : List Bytes)
    (whole : ∀ line ∈ lines, IsLine line)
    (roomy : written.length + 2 * lines.flatten.length ≤ room)
    (agree : drainsToEnd tail lines = true) :
    (readDotLines maxSize room tail written lines).unread = restBehindEnd tail lines := by
  induction lines generalizing written with
  | nil => rfl
  | cons line lines ih =>
    have later := fun other member => whole other (List.mem_cons_of_mem line member)
    rw [rest_behind_cons]
    cases ends : isEndLine line with
    | true =>
      have single : stripLineEnd line = [46] := of_decide_eq_true ends
      simp [readDotLines, single, DotResult.unread]
    | false =>
      have rest : drainsToEnd tail lines = true := by
        rw [drainsToEnd, ends, Bool.false_or] at agree
        cases stops : drainsAt line with
        | false => simpa [stops] using agree
        | true =>
          rw [stops, if_pos rfl, List.isEmpty_iff] at agree
          rw [flat_lines_nil lines tail later agree]
          rfl
      rw [if_neg Bool.false_ne_true]
      exact turn_unread tail maxSize room written line lines whole roomy ends rest
        fun written roomy => ih written later roomy rest

end

/-- The size limit leaves the framing alone exactly when no line behind the
first, up to the end of data, begins with a dot and a carriage return that do
not end it. -/
theorem framing_ignores_limit_iff (stream : Bytes) :
    FramesAlike stream ↔ framesAlike stream = true := by
  have size : (streamLines stream).1.flatten.length ≤ stream.length := by
    have whole := congrArg List.length (stream_lines_flatten stream)
    rw [List.length_append] at whole
    omega
  have whole := stream_lines_whole stream
  unfold FramesAlike framesAlike readDotStream
  cases split : (streamLines stream).1 with
  | nil => simp [readDotLines]
  | cons line lines =>
    rw [split] at size whole
    have later := fun other member => whole other (List.mem_cons_of_mem line member)
    show _ ↔ (isEndLine line || drainsToEnd (streamLines stream).2 lines) = true
    cases ends : isEndLine line with
    | true =>
      have single : stripLineEnd line = [46] := of_decide_eq_true ends
      simp [readDotLines, single]
    | false =>
      simp only [Bool.false_or]
      constructor
      · intro alike
        have same := alike (2 * stream.length) (Nat.le_refl _) 0 (2 * stream.length)
        have broken : (readDotLines 0 (2 * stream.length) (streamLines stream).2 []
            (line :: lines)).unread = drain (streamLines stream).2 lines := by
          have short := stored_length line (whole line List.mem_cons_self)
          simp only [List.flatten_cons, List.length_append] at size
          rw [read_dot_lines_turn _ _ _ _ _ _ (by rw [List.length_nil]; omega) ends, if_pos]
          · rfl
          · simp [stored, crlf]
            omega
        have read := read_dot_lines_roomy (2 * stream.length) (2 * stream.length)
          (streamLines stream).2 [] (line :: lines) whole
          (by simp only [List.length_nil]; omega) (by simp only [List.length_nil]; omega)
        rw [broken, read] at same
        rw [← drain_is_rest_iff _ _ later, same, roomy_result_unread, rest_behind_cons, ends,
          if_neg Bool.false_ne_true]
      · intro agree room roomy limit other
        have stops (limit : Int) :
            (readDotLines limit room (streamLines stream).2 [] (line :: lines)).unread =
              restBehindEnd (streamLines stream).2 lines := by
          apply turn_unread _ limit room [] line lines whole _ ends agree
          · intro written roomy
            exact read_dot_lines_unread _ limit room written lines later roomy agree
          · simp only [List.length_nil]
            omega
        rw [stops limit, stops other]

/-- Under a limit that the first line breaks, a line that goes on behind its dot
and carriage return ends the data early. -/
theorem limit_moves_end : ¬FramesAlike ([97, 13, 10] ++ [46, 13, 98, 10] ++ [46, 13, 10]) := by
  intro alike
  have same := alike 20 (by decide) 0 20
  exact absurd same (by decide)

end Herold.Smtp

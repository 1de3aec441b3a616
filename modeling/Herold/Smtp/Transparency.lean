import Herold.Smtp.Framing

/-!
# The data of a message from the client to the server

The client writes the body with a dot before each line that begins with one, a
CRLF when the last line has none, and the end of data. Two clients do so, one
chunk by chunk and one line by line with the unfinished line kept back; they
write the same bytes. The server stores the body with each bare line feed made
a CRLF. A receiver that knows the strict end of data alone also finds it there,
unless the body ends in a bare line feed.
-/

namespace Herold.Smtp

open Herold.Go

namespace OutboundSession

def stuffChunk (atLineStart : Bool) : Nat → Bytes → Bytes × Bool
  | 0, _ | _ + 1, [] => ([], atLineStart)
  | fuel + 1, byte :: rest =>
    let dot := if atLineStart && byte = 46 then [46] else []
    match cutFirstByte 10 (byte :: rest) with
    | none => (dot ++ byte :: rest, false)
    | some (line, after) =>
      let (out, ended) := stuffChunk true fuel after
      (dot ++ line ++ [10] ++ out, ended)

/-- `writeDotStuffed` of the queue's client, over the reads of the body. -/
def writeDotStuffed (atLineStart : Bool) : List Bytes → Bytes × Bool
  | [] => ([], atLineStart)
  | chunk :: chunks =>
    let (out, ended) := stuffChunk atLineStart chunk.length chunk
    let (more, atEnd) := writeDotStuffed ended chunks
    (out ++ more, atEnd)

end OutboundSession

namespace SharedSession

def dotted (line : Bytes) : Bytes := if hasPrefix line [46] then 46 :: line else line

def flushLines : Nat → Bytes → Bytes × Bytes
  | 0, pending => ([], pending)
  | fuel + 1, pending =>
    match cutFirstByte 10 pending with
    | none => ([], pending)
    | some (line, after) =>
      let (out, rest) := flushLines fuel after
      (dotted (line ++ [10]) ++ out, rest)

/-- `writeDotStuffed` of the session that the callers outside the queue share. -/
def writeDotStuffed (pending : Bytes) : List Bytes → Bytes × Bool
  | [] => if pending = [] then ([], true) else (dotted pending, false)
  | chunk :: chunks =>
    let (out, rest) := flushLines ((pending ++ chunk).length) (pending ++ chunk)
    let (more, atEnd) := writeDotStuffed rest chunks
    (out ++ more, atEnd)

end SharedSession

theorem dotted_cons (byte : UInt8) (rest : Bytes) :
    SharedSession.dotted (byte :: rest) = (if byte = 46 then [46] else []) ++ byte :: rest := by
  by_cases dot : byte = 46
  · simp [SharedSession.dotted, hasPrefix, dot]
  · simp [SharedSession.dotted, hasPrefix, dot, Ne.symm dot]

section

variable (body : Bytes) (atLineStart : Bool) (lines : List Bytes) (text : Bytes)
  (chunks : List Bytes) (line : Bytes)

theorem stuff_line (unbroken : 10 ∉ line) : stuff atLineStart line =
      (if atLineStart then SharedSession.dotted line else line, line = [] && atLineStart) := by
  cases line with
  | nil =>
    cases atLineStart with
    | true => rfl
    | false => rfl
  | cons byte rest =>
    rw [List.mem_cons, not_or] at unbroken
    have plain (rest : Bytes) (unbroken : 10 ∉ rest) : stuff false rest = (rest, false) := by
      induction rest with
      | nil => rfl
      | cons next rest ih =>
        rw [List.mem_cons, not_or] at unbroken
        simp [stuff, Ne.symm unbroken.1, ih unbroken.2]
    simp only [stuff, decide_eq_false (Ne.symm unbroken.1), plain rest unbroken.2, dotted_cons]
    by_cases dot : byte = 46
    · simp [dot]
    · simp [dot]

theorem stuff_whole_line (unbroken : 10 ∉ text) : stuff atLineStart (text ++ [10]) =
      (if atLineStart then SharedSession.dotted (text ++ [10]) else text ++ [10], true) := by
  rw [stuff_append, stuff_line atLineStart text unbroken]
  cases text with
  | nil => simp [stuff, SharedSession.dotted, hasPrefix]
  | cons byte rest =>
    cases atLineStart with
    | false => simp [stuff]
    | true => simp [stuff, dotted_cons]

theorem stuff_lines (tail : Bytes) (whole : ∀ line ∈ lines, IsLine line) (unbroken : 10 ∉ tail) :
    stuff true (lines.flatten ++ tail) =
      ((lines.map SharedSession.dotted).flatten ++ SharedSession.dotted tail, decide (tail = [])) := by
  induction lines with
  | nil => simp [stuff_line true tail unbroken]
  | cons line lines ih =>
    obtain ⟨text, rfl, free⟩ := whole line List.mem_cons_self
    have later := ih fun other member => whole other (List.mem_cons_of_mem _ member)
    rw [List.flatten_cons, List.append_assoc, stuff_append, stuff_whole_line true text free, later]
    simp

theorem stuff_chunk_is_stuff (fuel : Nat) (chunk : Bytes) (enough : chunk.length ≤ fuel) :
    OutboundSession.stuffChunk atLineStart fuel chunk = stuff atLineStart chunk := by
  induction fuel generalizing atLineStart chunk with
  | zero =>
    rw [Nat.le_zero, List.length_eq_zero_iff] at enough
    rw [enough]
    rfl
  | succ fuel ih =>
    cases chunk with
    | nil => rfl
    | cons byte rest =>
      rw [OutboundSession.stuffChunk]
      cases found : cutFirstByte 10 (byte :: rest) with
      | none =>
        rw [stuff_line atLineStart _ ((cut_first_byte_none 10 _).mp found)]
        cases atLineStart with
        | false => simp
        | true => simp [dotted_cons]
      | some parts =>
        obtain ⟨line, after⟩ := parts
        obtain ⟨split, free⟩ := cut_first_byte_splits 10 _ line after found
        have less : after.length ≤ fuel := by
          have sizes := congrArg List.length split
          simp only [List.length_cons, List.length_append] at sizes enough
          omega
        have whole : byte :: rest = (line ++ [10]) ++ after := by simp [split]
        have first : line ++ [10] = byte :: (line ++ [10]).tail := by
          cases line with
          | nil => simp only [List.nil_append, List.cons.injEq] at split; simp [split.1]
          | cons head line => simp only [List.cons_append, List.cons.injEq] at split; simp [split.1]
        rw [whole, stuff_append, stuff_whole_line atLineStart line free]
        simp only [ih true after less, List.append_assoc]
        rw [← List.append_assoc line, first, dotted_cons]
        cases atLineStart with
        | false => simp
        | true => simp

theorem outbound_writes_stuffed :
    OutboundSession.writeDotStuffed atLineStart chunks = stuff atLineStart chunks.flatten := by
  induction chunks generalizing atLineStart with
  | nil => rfl
  | cons chunk chunks ih =>
    simp only [OutboundSession.writeDotStuffed, stuff_chunk_is_stuff _ _ chunk (Nat.le_refl _), ih,
      List.flatten_cons, stuff_append]

theorem flush_lines_is_lines (fuel : Nat) (pending : Bytes) (enough : pending.length ≤ fuel) :
    SharedSession.flushLines fuel pending =
      (((streamLines pending).1.map SharedSession.dotted).flatten, (streamLines pending).2) := by
  induction fuel generalizing pending with
  | zero =>
    rw [Nat.le_zero, List.length_eq_zero_iff] at enough
    rw [enough]
    rfl
  | succ fuel ih =>
    rw [SharedSession.flushLines]
    cases found : cutFirstByte 10 pending with
    | none => simp [stream_lines_tail pending ((cut_first_byte_none 10 _).mp found)]
    | some parts =>
      obtain ⟨line, after⟩ := parts
      obtain ⟨rfl, free⟩ := cut_first_byte_splits 10 _ line after found
      have less : after.length ≤ fuel := by
        simp only [List.length_append, List.length_cons] at enough
        omega
      rw [stream_lines_line line after free]
      simp [ih after less]

theorem shared_writes_stuffed (pending : Bytes) (chunks : List Bytes) (unbroken : 10 ∉ pending) :
    SharedSession.writeDotStuffed pending chunks = stuff true (pending ++ chunks.flatten) := by
  induction chunks generalizing pending with
  | nil =>
    rw [List.flatten_nil, List.append_nil, stuff_line true pending unbroken]
    by_cases empty : pending = []
    · simp [SharedSession.writeDotStuffed, empty, SharedSession.dotted, hasPrefix]
    · simp [SharedSession.writeDotStuffed, empty]
  | cons chunk chunks ih =>
    have lines := stream_lines_flatten (pending ++ chunk)
    have later := ih (streamLines (pending ++ chunk)).2 (stream_lines_unbroken _)
    simp only [SharedSession.writeDotStuffed, flush_lines_is_lines _ _ (Nat.le_refl _), later]
    have whole := stuff_lines (streamLines (pending ++ chunk)).1 [] (stream_lines_whole _) (by simp)
    rw [List.append_nil] at whole
    have split : pending ++ (chunk :: chunks).flatten =
        (streamLines (pending ++ chunk)).1.flatten ++
          ((streamLines (pending ++ chunk)).2 ++ chunks.flatten) := by
      rw [← List.append_assoc, lines]
      simp
    rw [split, stuff_append true (streamLines (pending ++ chunk)).1.flatten, whole]
    simp [SharedSession.dotted, hasPrefix]

def crlfFeeds (afterReturn : Bool) : Bytes → Bytes
  | [] => []
  | byte :: rest =>
    if byte = 10 && !afterReturn then crlf ++ crlfFeeds false rest
    else byte :: crlfFeeds (byte = 13) rest

def normalised (body : Bytes) : Bytes :=
  crlfFeeds false body ++ if body = [] || [10].isSuffixOf body then [] else crlf

def sentLines (body : Bytes) : List Bytes :=
  (streamLines body).1 ++
    if (streamLines body).2 = [] then [] else [(streamLines body).2 ++ crlf]

theorem sent_lines_whole : ∀ line ∈ sentLines body, IsLine line := by
  intro line member
  rcases List.mem_append.mp member with before | last
  · exact stream_lines_whole body line before
  · split at last
    · cases last
    · rw [List.mem_singleton.mp last]
      refine ⟨(streamLines body).2 ++ [13], by simp [crlf], ?_⟩
      simp [stream_lines_unbroken body]

theorem data_stream_lines : (stuff true body).1 ++ dataEnd (stuff true body).2 =
      ((sentLines body).map SharedSession.dotted).flatten ++ [46, 13, 10] := by
  have stuffed := stuff_lines (streamLines body).1 (streamLines body).2 (stream_lines_whole body)
    (stream_lines_unbroken body)
  rw [stream_lines_flatten] at stuffed
  rw [stuffed, sentLines]
  cases tail : (streamLines body).2 with
  | nil => simp [dataEnd, crlf, SharedSession.dotted, hasPrefix]
  | cons byte rest => simp [dataEnd, crlf, dotted_cons]

theorem dotted_is_line (whole : IsLine line) : IsLine (SharedSession.dotted line) := by
  obtain ⟨text, rfl, unbroken⟩ := whole
  unfold SharedSession.dotted
  split
  · exact ⟨46 :: text, rfl, by simpa using unbroken⟩
  · exact ⟨text, rfl, unbroken⟩

theorem dotted_goes_on (whole : IsLine line) : isEndLine (SharedSession.dotted line) = false := by
  rw [← Bool.not_eq_true, end_line_cases _ (dotted_is_line line whole)]
  cases line with
  | nil => simp [SharedSession.dotted, hasPrefix]
  | cons byte rest =>
    rw [dotted_cons]
    by_cases dot : byte = 46
    · simp [dot]
    · simp [dot]

theorem strip_crlf : stripLineEnd (text ++ [13, 10]) = text := by
  have ends : crlf.isSuffixOf (text ++ [13, 10]) = true := by
    rw [List.isSuffixOf_iff_suffix]
    exact List.suffix_append text _
  rw [stripLineEnd, if_pos ends]
  simp

theorem strip_feed (bare : text.getLast? ≠ some 13) : stripLineEnd (text ++ [10]) = text := by
  have unclosed : ¬crlf.isSuffixOf (text ++ [10]) = true := by
    rw [List.isSuffixOf_iff_suffix]
    rintro ⟨before, same⟩
    have halves : before ++ [13] ++ [10] = text ++ [10] := by simpa [crlf] using same
    rw [← List.append_cancel_right halves] at bare
    simp at bare
  have feed : [10].isSuffixOf (text ++ [10]) = true := by
    rw [List.isSuffixOf_iff_suffix]
    exact List.suffix_append text _
  rw [stripLineEnd, if_neg unclosed, if_pos feed]
  simp

theorem line_end_cases : (∃ before, text = before ++ [13]) ∨ text.getLast? ≠ some 13 := by
  rcases List.eq_nil_or_concat' text with rfl | ⟨before, last, rfl⟩
  · exact .inr (by simp)
  · by_cases back : last = 13
    · exact .inl ⟨before, by rw [back]⟩
    · exact .inr (by simpa using back)

theorem strip_dot_cons :
    stripLineEnd (46 :: (text ++ [10])) = 46 :: stripLineEnd (text ++ [10]) := by
  rcases line_end_cases text with ⟨before, rfl⟩ | bare
  · have plain := strip_crlf before
    have longer := strip_crlf (46 :: before)
    simp only [List.append_assoc, List.cons_append, List.nil_append] at plain longer ⊢
    rw [longer, plain]
  · have longer := strip_feed (46 :: text) (by
      cases text with
      | nil => decide
      | cons byte rest => simpa [List.getLast?_cons_cons] using bare)
    rw [strip_feed text bare]
    exact longer

theorem stored_dotted (whole : IsLine line) :
    stored (SharedSession.dotted line) = stripLineEnd line ++ crlf := by
  obtain ⟨text, rfl, _⟩ := whole
  have kept : dropDot (stripLineEnd (SharedSession.dotted (text ++ [10]))) =
      stripLineEnd (text ++ [10]) := by
    unfold SharedSession.dotted
    split
    case isTrue =>
      rw [strip_dot_cons]
      simp [dropDot, hasPrefix]
    case isFalse plain =>
      rw [dropDot, if_neg]
      intro dot
      apply plain
      have inside : stripLineEnd (text ++ [10]) <+: text ++ [10] := by
        unfold stripLineEnd
        split_ifs
        · exact List.take_prefix _ _
        · exact List.take_prefix _ _
        · exact List.prefix_refl _
      exact List.isPrefixOf_iff_prefix.mpr
        ((List.isPrefixOf_iff_prefix.mp dot).trans inside)
  rw [stored, kept]

theorem read_dot_lines_to_end (maxSize : Int) (room : Nat) (written tail : Bytes)
    (front back : List Bytes) (line : Bytes) (quiet : ∀ other ∈ front, isEndLine other = false)
    (ends : isEndLine line = true)
    (fits : (written.length : Int) + (front.flatMap stored).length ≤ maxSize)
    (roomy : written.length + (front.flatMap stored).length ≤ room) :
    readDotLines maxSize room tail written (front ++ line :: back) =
      .complete (written ++ front.flatMap stored) (back.flatten ++ tail) := by
  induction front generalizing written with
  | nil =>
    have single : stripLineEnd line = [46] := of_decide_eq_true ends
    simp [readDotLines, single]
  | cons first front ih =>
    simp only [List.flatMap_cons, List.length_append] at fits roomy
    have later := ih (written ++ stored first)
      (fun other member => quiet other (List.mem_cons_of_mem _ member))
      (by rw [List.length_append]; omega) (by rw [List.length_append]; omega)
    rw [List.cons_append, read_dot_lines_turn maxSize room tail written first _ (by omega)
      (quiet first List.mem_cons_self), if_neg (by omega), later]
    simp

theorem crlf_feeds_text (afterReturn : Bool) (text rest : Bytes) (unbroken : 10 ∉ text) :
    crlfFeeds afterReturn (text ++ rest) =
      text ++ crlfFeeds (if text = [] then afterReturn else text.getLast? = some 13) rest := by
  induction text generalizing afterReturn with
  | nil => simp
  | cons byte text ih =>
    rw [List.mem_cons, not_or] at unbroken
    rw [List.cons_append, crlfFeeds, ih (byte = 13) unbroken.2]
    cases text with
    | nil => simp [Ne.symm unbroken.1]
    | cons next text => simp [Ne.symm unbroken.1]

theorem crlf_feeds_line (text rest : Bytes) (unbroken : 10 ∉ text) :
    crlfFeeds false (text ++ [10] ++ rest) =
      stripLineEnd (text ++ [10]) ++ crlf ++ crlfFeeds false rest := by
  rw [List.append_assoc, crlf_feeds_text false text _ unbroken]
  rcases line_end_cases text with ⟨before, rfl⟩ | bare
  · have stripped : stripLineEnd (before ++ [13] ++ [10]) = before := by
      simpa using strip_crlf before
    rw [stripped]
    simp [crlfFeeds, crlf]
  · rw [strip_feed text bare]
    simp [crlfFeeds, bare]

theorem crlf_feeds_lines (tail : Bytes) (whole : ∀ line ∈ lines, IsLine line)
    (unbroken : 10 ∉ tail) :
    crlfFeeds false (lines.flatten ++ tail) =
      (lines.flatMap fun line => stripLineEnd line ++ crlf) ++ tail := by
  induction lines with
  | nil => simpa [crlfFeeds] using crlf_feeds_text false tail [] unbroken
  | cons line lines ih =>
    obtain ⟨text, rfl, free⟩ := whole line List.mem_cons_self
    have later := ih fun other member => whole other (List.mem_cons_of_mem _ member)
    rw [List.flatten_cons, List.append_assoc, crlf_feeds_line text _ free, later]
    simp

theorem whole_lines_end (whole : ∀ line ∈ lines, IsLine line) :
    lines.flatten = [] ∨ [10] <:+ lines.flatten := by
  rcases List.eq_nil_or_concat' lines with rfl | ⟨before, last, rfl⟩
  · exact .inl rfl
  · obtain ⟨text, rfl, _⟩ := whole last (by simp)
    refine .inr ⟨before.flatten ++ text, ?_⟩
    simp

theorem finished_iff : (body = [] || [10].isSuffixOf body) = true ↔ (streamLines body).2 = [] := by
  rw [Bool.or_eq_true, decide_eq_true_iff, List.isSuffixOf_iff_suffix]
  constructor
  · rintro (rfl | ⟨before, rfl⟩)
    · rfl
    · exact stream_lines_closed before
  · intro closed
    have flat := stream_lines_flatten body
    rw [closed, List.append_nil] at flat
    have ends := whole_lines_end _ (stream_lines_whole body)
    rwa [flat] at ends

theorem normalised_lines :
    normalised body = (sentLines body).flatMap fun line => stripLineEnd line ++ crlf := by
  have lines := crlf_feeds_lines (streamLines body).1 (streamLines body).2 (stream_lines_whole body)
    (stream_lines_unbroken body)
  rw [stream_lines_flatten] at lines
  rw [normalised, sentLines, lines]
  by_cases closed : (streamLines body).2 = []
  · rw [if_pos ((finished_iff body).mpr closed)]
    simp [closed]
  · rw [if_neg fun ended => closed ((finished_iff body).mp ended)]
    have stripped := strip_crlf (streamLines body).2
    simp [closed, crlf, stripped]

theorem data_stream_split (body following : Bytes) :
    streamLines ((stuff true body).1 ++ dataEnd (stuff true body).2 ++ following) =
      ((sentLines body).map SharedSession.dotted ++ [46, 13, 10] :: (streamLines following).1,
        (streamLines following).2) := by
  have lines := stream_lines_append ((sentLines body).map SharedSession.dotted ++ [[46, 13, 10]])
    following (by
      intro line member
      rcases List.mem_append.mp member with sent | last
      · obtain ⟨plain, inside, rfl⟩ := List.mem_map.mp sent
        exact dotted_is_line plain (sent_lines_whole body plain inside)
      · rw [List.mem_singleton.mp last]
        exact dot_is_line)
  rw [data_stream_lines]
  simpa using lines

theorem dotted_lines_go_on :
    ∀ line ∈ (sentLines body).map SharedSession.dotted, isEndLine line = false := by
  intro line member
  obtain ⟨line, sent, rfl⟩ := List.mem_map.mp member
  exact dotted_goes_on line (sent_lines_whole body line sent)

theorem stored_lines :
    ((sentLines body).map SharedSession.dotted).flatMap stored = normalised body := by
  rw [normalised_lines, List.flatMap_map]
  apply List.flatMap_congr
  intro line sent
  exact stored_dotted line (sent_lines_whole body line sent)

/-- Both clients write the same, however the body is read, and the server stores
the body with its line feeds made CRLFs and leaves the next command unread. -/
theorem data_reaches_server (chunks : List Bytes) (following : Bytes) (maxSize : Int) (room : Nat)
    (fits : (normalised chunks.flatten).length ≤ maxSize)
    (roomy : (normalised chunks.flatten).length ≤ room) :
    SharedSession.writeDotStuffed [] chunks = OutboundSession.writeDotStuffed true chunks ∧
      readDotStream maxSize room ((OutboundSession.writeDotStuffed true chunks).1 ++
          dataEnd (OutboundSession.writeDotStuffed true chunks).2 ++ following) =
        .complete (normalised chunks.flatten) following := by
  rw [outbound_writes_stuffed]
  refine ⟨shared_writes_stuffed [] chunks (by simp), ?_⟩
  have stores := stored_lines chunks.flatten
  unfold readDotStream
  rw [data_stream_split, read_dot_lines_to_end]
  · rw [stores, stream_lines_flatten]
    rfl
  · exact dotted_lines_go_on _
  · exact dot_is_end
  · simpa [stores] using fits
  · simpa [stores] using roomy

theorem data_reaches_server_across_reads :
    OutboundSession.writeDotStuffed true [[46], [97, 13], [10, 46], [], [10, 98]] =
        ([46, 46, 97, 13, 10, 46, 46, 10, 98], false) ∧
      readDotStream 12 12 (([46, 46, 97, 13, 10, 46, 46, 10, 98] : Bytes) ++ dataEnd false ++ [81]) =
        .complete [46, 97, 13, 10, 46, 13, 10, 98, 13, 10] [81] := by
  have written : OutboundSession.writeDotStuffed true [[46], [97, 13], [10, 46], [], [10, 98]] =
      ([46, 46, 97, 13, 10, 46, 46, 10, 98], false) := by decide
  refine ⟨written, ?_⟩
  have reaches := data_reaches_server [[46], [97, 13], [10, 46], [], [10, 98]] [81] 12 12
    (by decide) (by decide)
  rw [written] at reaches
  exact reaches.2

def EndsOnce (stream : Bytes) : Prop :=
  (∃ before, EndsBehind stream before []) ∧
    ∀ before after, EndsBehind stream before after → after = []

def dataStream (chunks : List Bytes) : Bytes :=
  (OutboundSession.writeDotStuffed true chunks).1 ++
    dataEnd (OutboundSession.writeDotStuffed true chunks).2

def endsWell (body : Bytes) : Bool := !([10] : Bytes).isSuffixOf body || crlf.isSuffixOf body

theorem crlf_suffix_line (front : List Bytes) (text : Bytes) (whole : ∀ line ∈ front, IsLine line) :
    crlf <:+ front.flatten ++ (text ++ [10]) ↔ text.getLast? = some 13 := by
  have before : crlf <:+ front.flatten ++ (text ++ [10]) ↔
      (front.flatten ++ text).getLast? = some 13 := by
    rw [← List.append_assoc]
    constructor
    · rintro ⟨start, same⟩
      have halves : start ++ [13] ++ [10] = front.flatten ++ text ++ [10] := by
        simpa [crlf] using same
      rw [← List.append_cancel_right halves]
      simp
    · intro last
      obtain ⟨start, same⟩ := List.getLast?_eq_some_iff.mp last
      refine ⟨start, ?_⟩
      rw [same]
      simp [crlf]
  rw [before, List.getLast?_append]
  cases last : text.getLast? with
  | some byte => simp
  | none =>
    rw [Option.none_or]
    rcases whole_lines_end front whole with empty | ⟨start, feed⟩
    · simp [empty]
    · rw [← feed]
      simp

theorem data_stream_is_stuffed : dataStream chunks =
      ((sentLines chunks.flatten).map SharedSession.dotted).flatten ++ [46, 13, 10] := by
  rw [dataStream, outbound_writes_stuffed, data_stream_lines]

theorem data_ends_at_end (before after : Bytes)
    (ends : EndsBehind (dataStream chunks) before after) : after = [] := by
  obtain ⟨lines, tail, _⟩ := ends_behind_line _ before after ends
  have sent := data_stream_split chunks.flatten []
  rw [List.append_nil, ← outbound_writes_stuffed] at sent
  have stream : streamLines (dataStream chunks) = _ := sent
  rw [stream] at lines tail
  have flat := stream_lines_flatten after
  rcases front_is_prefix _ _ _ _ _ _ (dotted_lines_go_on chunks.flatten) dot_is_end lines
    with ⟨_, _, rest⟩ | ⟨between, _, rest⟩
  · rw [← rest, ← tail] at flat
    exact flat.symm
  · cases between with
    | nil => cases rest
    | cons _ _ => cases rest

theorem dotted_end : ∃ more, SharedSession.dotted (text ++ [10]) = more ++ [10] ∧
      (more.getLast? = some 13 ↔ text.getLast? = some 13) := by
  unfold SharedSession.dotted
  split
  · refine ⟨46 :: text, rfl, ?_⟩
    cases text with
    | nil => decide
    | cons byte rest => rw [List.getLast?_cons_cons]
  · exact ⟨text, rfl, Iff.rfl⟩

theorem data_end_strict_iff : (((sentLines body).map SharedSession.dotted).flatten = [] ∨
      crlf <:+ ((sentLines body).map SharedSession.dotted).flatten) ↔ endsWell body = true := by
  have dottedWhole (lines : List Bytes) (whole : ∀ line ∈ lines, IsLine line) :
      ∀ line ∈ lines.map SharedSession.dotted, IsLine line := by
    intro line member
    obtain ⟨plain, inside, rfl⟩ := List.mem_map.mp member
    exact dotted_is_line plain (whole plain inside)
  have whole := stream_lines_whole body
  have flat := stream_lines_flatten body
  by_cases closed : (streamLines body).2 = []
  · rw [closed, List.append_nil] at flat
    rw [sentLines, if_pos closed, List.append_nil]
    rcases List.eq_nil_or_concat' (streamLines body).1 with none | ⟨front, last, lines⟩
    · rw [none] at flat ⊢
      rw [← flat]
      exact ⟨fun _ => by decide, fun _ => .inl rfl⟩
    · rw [lines] at whole flat
      obtain ⟨text, rfl, _⟩ := whole last (by simp)
      have frontWhole : ∀ line ∈ front, IsLine line := fun line member => whole line (by simp [member])
      obtain ⟨more, same, ends⟩ := dotted_end text
      have sent := crlf_suffix_line _ more (dottedWhole front frontWhole)
      have plain := crlf_suffix_line front text frontWhole
      rw [List.flatten_append, List.flatten_singleton] at flat
      rw [flat] at plain
      have fed : ([10] : Bytes).isSuffixOf body = true := by
        rw [← flat, List.isSuffixOf_iff_suffix]
        exact ⟨front.flatten ++ text, by simp⟩
      rw [lines, List.map_append, List.flatten_append, List.map_singleton, List.flatten_singleton,
        same, sent, ends, ← plain, endsWell, fed, Bool.not_true, Bool.false_or,
        List.isSuffixOf_iff_suffix]
      simp
  · have fed : ([10] : Bytes).isSuffixOf body = false := by
      rw [← Bool.not_eq_true]
      intro fed
      exact closed ((finished_iff body).mp (by rw [fed, Bool.or_true]))
    have ends : crlf <:+ ((sentLines body).map SharedSession.dotted).flatten := by
      rw [sentLines, if_neg closed, List.map_append, List.flatten_append, List.map_singleton,
        List.flatten_singleton]
      apply List.IsSuffix.trans _ (List.suffix_append _ _)
      unfold SharedSession.dotted
      split
      · exact ⟨46 :: (streamLines body).2, rfl⟩
      · exact List.suffix_append _ _
    rw [endsWell, fed]
    exact ⟨fun _ => rfl, fun _ => .inr ends⟩

end

/-- The client sends the strict end of data once, at the end, exactly when the
body does not end in a bare line feed. -/
theorem data_ends_once_iff (chunks : List Bytes) :
    EndsOnce (dataStream chunks) ↔ endsWell chunks.flatten = true := by
  rw [← data_end_strict_iff]
  constructor
  · rintro ⟨⟨before, same, start⟩, _⟩
    rw [data_stream_is_stuffed, List.append_nil, List.append_assoc] at same
    rwa [List.append_cancel_right same]
  · intro start
    refine ⟨⟨_, ?_, start⟩, data_ends_at_end chunks⟩
    rw [data_stream_is_stuffed]
    simp [crlf]

/-- Behind a bare line feed the client adds no CRLF, and the end of data stands
behind none. -/
theorem bare_feed_hides_end : ¬EndsOnce (dataStream [[97, 10]]) := by
  rintro ⟨⟨before, same, start⟩, _⟩
  rw [data_stream_is_stuffed, List.append_nil, List.append_assoc] at same
  rw [← List.append_cancel_right same, data_end_strict_iff] at start
  exact absurd start (by decide)

end Herold.Smtp

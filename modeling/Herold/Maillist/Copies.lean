import Herold.Maillist.Shape

/-!
# What the copies of a post keep

A copy is the post with the list's fields on top exactly where the edits do not need the
line end that the header has lost: where there is a Subject to tag, and where the last
field stays. The lines that a pass leaves over are compared with the fields that are
wanted, first with the last line ended and then without.
-/

namespace Herold.Maillist

open Herold.Go Herold.Mail

theorem tagged_header_lines (ml : FanOutList) (header decodedSubject : Bytes) :
    taggedHeader ml header decodedSubject =
      (wantedTag ml decodedSubject).elim header fun tag =>
        (tagLines tag (linesWithFeed header)).flatten := by
  unfold taggedHeader wantedTag applySubjectTag
  cases ml.subjectTag with
  | none => rfl
  | some text =>
    by_cases blank : trimSpace text = []
    · simp [blank, Option.filter]
    · by_cases has : hasPrefix decodedSubject (subjectPrefix (trimSpace text)) = true
      · simp [blank, has, Option.filter]
      · simp [blank, has, Option.filter]

def taggedLines (tag : Option Bytes) (lines : List Bytes) : List Bytes :=
  tag.elim lines fun tag => tagLines tag lines

def taggedFields (tag : Option Bytes) (fields : List (List Bytes)) : List (List Bytes) :=
  tag.elim fields fun tag => tagFirst tag fields

theorem tagged_fields_flatten (tag : Option Bytes) (lines : List Bytes) :
    (taggedFields tag (gatherFields lines)).flatten = taggedLines tag lines := by
  cases tag with
  | none => exact gather_fields_flatten lines
  | some tag => exact tag_first_lines tag lines

theorem tag_field_whole (tag : Bytes) (field : List Bytes) (whole : IsWholeField field)
    (named : fieldNamed (names "Subject") field = true) : IsWholeField (tagField tag field) := by
  obtain ⟨first, more, rfl, begins, blanks⟩ := whole
  have subject : names "Subject" first = true := (Bool.and_eq_true_iff.mp named).2
  rw [← tag_line_plain]
  exact ⟨_, more, rfl, tag_line_solid tag first begins subject, blanks⟩

theorem tagged_fields_whole (tag : Option Bytes) (fields : List (List Bytes))
    (whole : ∀ field ∈ fields, IsWholeField field) :
      ∀ field ∈ taggedFields tag fields, IsWholeField field := by
  cases tag with
  | none => exact whole
  | some tag =>
    show ∀ field ∈ tagFirst tag fields, IsWholeField field
    induction fields with
    | nil =>
      intro field member
      rw [tagFirst, List.mem_singleton] at member
      rw [member]
      exact ⟨_, [], rfl, rfl, by simp⟩
    | cons field fields ih =>
      have later := fun other member => whole other (List.mem_cons_of_mem field member)
      have own := whole field List.mem_cons_self
      intro other member
      rw [tagFirst] at member
      split at member
      case isTrue named =>
        rcases List.mem_cons.mp member with rfl | behind
        · exact tag_field_whole tag field own named
        · exact later other behind
      case isFalse =>
        rcases List.mem_cons.mp member with rfl | behind
        · exact own
        · exact ih later other behind

theorem head_of_lines (header : Bytes) (solid : startsBlank header = false) :
    ∀ line, (linesWithFeed (header ++ [13, 10])).head? = some line → startsBlank line = false := by
  intro line leads
  have whole := lines_with_feed_flatten (header ++ [13, 10])
  have proper := lines_with_feed_proper (header ++ [13, 10])
  rw [← starts_blank_ended, ← whole] at solid
  cases read : linesWithFeed (header ++ [13, 10]) with
  | nil =>
    rw [read] at leads
    cases leads
  | cons first lines =>
    rw [read] at leads solid proper
    cases leads
    have filled := proper_lines_filled _ proper line List.mem_cons_self
    cases line with
    | nil => exact absurd rfl filled
    | cons byte line => exact solid

theorem last_line_feed_iff (header : Bytes) :
    (∃ last, (linesWithFeed header).getLast? = some last ∧ 10 ∈ last) ↔ header.getLast? = some 10 := by
  have whole := lines_with_feed_flatten header
  have proper := lines_with_feed_proper header
  rcases List.eq_nil_or_concat' (linesWithFeed header) with none | ⟨lines, last, shape⟩
  · rw [none] at whole
    rw [none, ← whole]
    simp
  · have member : last ∈ linesWithFeed header := by
      rw [shape]
      exact List.mem_append_right lines List.mem_cons_self
    have filled := proper_lines_filled _ proper last member
    have same : header.getLast? = some (last.getLast filled) := by
      rw [← whole, shape, List.flatten_append, List.getLast?_append, List.flatten_singleton,
        List.getLast?_eq_some_getLast filled, Option.some_or]
    rw [same, shape, List.getLast?_concat]
    constructor
    · rintro ⟨other, here, feed⟩
      cases here
      rcases proper_lines_kind _ proper last member with ⟨content, rfl, -⟩ | free
      · simp
      · exact absurd feed free
    · intro ends
      refine ⟨last, rfl, ?_⟩
      rw [← Option.some.inj ends]
      exact List.getLast_mem filled

section Header

variable (header : Bytes) (tag : Option Bytes)

theorem message_fields_lines (filled : header ≠ []) :
    messageFields header = gatherFields (endLines (linesWithFeed header)) := by
  rw [messageFields, if_neg filled, lines_of_ended_text header filled]

theorem wanted_fields_whole (filled : header ≠ []) (solid : startsBlank header = false) :
    ∀ field ∈ wantedFields tag header, IsWholeField field := by
  intro field member
  have among := (List.mem_filter.mp member).1
  rw [messageFields, if_neg filled] at among
  exact tagged_fields_whole tag _ (gather_fields_whole _ (head_of_lines header solid)) field among

theorem wanted_fields_lines (filled : header ≠ []) (solid : startsBlank header = false) :
    (wantedFields tag header).flatten =
      stripLines (names "Auto-Submitted") false
        (taggedLines tag (endLines (linesWithFeed header))) := by
  have whole := tagged_fields_whole tag _ (gather_fields_whole _ (head_of_lines header solid))
  rw [lines_of_ended_text header filled] at whole
  rw [strip_lines_top, ← tagged_fields_flatten, gather_fields_of_whole _ whole,
    ← message_fields_lines header filled]
  rfl

/-- A tag on one line that has a Subject to stand in: the tagged text is read as the
tagged lines, which end as the lines did. -/
theorem tagged_lines_end (tagged : ∀ text, tag = some text → 10 ∉ text ∧ hasSubject header = true) :
    linesWithFeed (tag.elim header fun tag => (tagLines tag (linesWithFeed header)).flatten) =
        taggedLines tag (linesWithFeed header) ∧
      taggedLines tag (endLines (linesWithFeed header)) =
        endLines (taggedLines tag (linesWithFeed header)) ∧
      skipsLast (names "Auto-Submitted") false (taggedLines tag (linesWithFeed header)) =
        skipsLast (names "Auto-Submitted") false (linesWithFeed header) ∧
      ((∃ last, (taggedLines tag (linesWithFeed header)).getLast? = some last ∧ 10 ∈ last) ↔
        header.getLast? = some 10) := by
  rw [← last_line_feed_iff]
  cases tag with
  | none => exact ⟨rfl, rfl, rfl, Iff.rfl⟩
  | some text =>
    obtain ⟨single, subject⟩ := tagged text rfl
    have proper := tag_lines_proper text _ single subject (lines_with_feed_proper header)
    obtain ⟨skips, feeds⟩ := tag_lines_last text "Auto-Submitted" false (linesWithFeed header)
      single subject
    exact ⟨lines_of_proper _ proper, tag_lines_end text _ single subject, skips, feeds⟩

theorem tagged_lines_filled (filled : header ≠ []) : taggedLines tag (linesWithFeed header) ≠ [] := by
  have lines : linesWithFeed header ≠ [] := by
    intro none
    have whole := lines_with_feed_flatten header
    rw [none] at whole
    exact filled whole.symm
  cases tag with
  | none => exact lines
  | some text =>
    cases read : linesWithFeed header with
    | nil => exact absurd read lines
    | cons line more =>
      show tagLines text (line :: more) ≠ []
      rw [tagLines]
      split <;> simp

section Tagged

variable (filled : header ≠ []) (solid : startsBlank header = false)
variable (tagged : ∀ text, tag = some text → 10 ∉ text ∧ hasSubject header = true)

include filled solid tagged

/-- Where the last line is ended or stays, the wanted header is the shaped one with its
last line ended. -/
theorem shaped_header_wanted
    (kept : header.getLast? = some 10 ∨
      skipsLast (names "Auto-Submitted") false (linesWithFeed header) = false) :
    (wantedFields tag header).flatten.flatten =
      stripHeader (tag.elim header fun tag => (tagLines tag (linesWithFeed header)).flatten)
        "Auto-Submitted" ++
        [13, 10] := by
  obtain ⟨read, ends, skips, feeds⟩ := tagged_lines_end header tag tagged
  rw [wanted_fields_lines header tag filled solid, stripHeader, read, ends]
  apply strip_lines_end "Auto-Submitted" false _ (tagged_lines_filled header tag filled) (by decide)
  rw [feeds, skips]
  exact kept

theorem shaped_header_short (unended : ¬header.getLast? = some 10)
    (skipped : skipsLast (names "Auto-Submitted") false (linesWithFeed header) = true) :
    (wantedFields tag header).flatten.flatten =
      stripHeader (tag.elim header fun tag => (tagLines tag (linesWithFeed header)).flatten)
        "Auto-Submitted" := by
  obtain ⟨read, ends, skips, feeds⟩ := tagged_lines_end header tag tagged
  rw [wanted_fields_lines header tag filled solid, stripHeader, read, ends]
  rw [strip_lines_end_skipped "Auto-Submitted" false _ (tagged_lines_filled header tag filled) ?_
    (skips.trans skipped)]
  intro last here feed
  exact unended (feeds.mp ⟨last, here, feed⟩)

theorem wanted_lines_ended : ∀ line ∈ (wantedFields tag header).flatten, EndedLine line := by
  have proper := lines_with_feed_proper header
  obtain ⟨-, ends, -⟩ := tagged_lines_end header tag tagged
  intro line member
  rw [wanted_fields_lines header tag filled solid, ends] at member
  have among := strip_lines_subset _ _ _ line member
  apply end_lines_ended _ _ line among
  cases tag with
  | none => exact proper
  | some text =>
    obtain ⟨single, subject⟩ := tagged text rfl
    exact tag_lines_proper text _ single subject proper

end Tagged

end Header

theorem has_prefix_shorter (text rest needle : Bytes) (room : needle.length ≤ text.length) :
    hasPrefix (text ++ rest) needle = hasPrefix text needle := by
  rw [hasPrefix, hasPrefix, Bool.eq_iff_iff, List.isPrefixOf_iff_prefix, List.isPrefixOf_iff_prefix]
  constructor
  · intro starts
    exact List.prefix_of_prefix_length_le starts (List.prefix_append text rest) room
  · intro starts
    exact starts.trans (List.prefix_append text rest)

theorem blank_line_first_iff (front body : Bytes) :
    cutFirst [13, 10, 13, 10] (front ++ [13, 10, 13, 10] ++ body) = some (front, body) ↔
      cutFirst [13, 10, 13, 10] (front ++ [13, 10, 13]) = none := by
  have shape : front ++ [13, 10, 13, 10] ++ body = front ++ [13, 10, 13] ++ (10 :: body) := by simp
  have within : ∀ offset < front.length,
      hasPrefix ((front ++ [13, 10, 13, 10] ++ body).drop offset) [13, 10, 13, 10] =
        hasPrefix ((front ++ [13, 10, 13]).drop offset) [13, 10, 13, 10] := by
    intro offset inside
    have room : offset ≤ (front ++ [13, 10, 13]).length := by
      rw [List.length_append]
      omega
    rw [shape, List.drop_append_of_le_length room]
    apply has_prefix_shorter
    simp only [List.length_drop, List.length_append, List.length_cons, List.length_nil]
    omega
  constructor
  · intro found
    cases cut : cutFirst [13, 10, 13, 10] (front ++ [13, 10, 13]) with
    | none => rfl
    | some halves =>
      obtain ⟨here, -⟩ := cut_first_some _ _ halves.1 halves.2 cut
      have inside : halves.1.length < front.length := by
        have lengths := congrArg List.length (cut_first_splits cut)
        simp only [List.length_append, List.length_cons, List.length_nil] at lengths
        omega
      have earlier := (cut_first_some _ _ front body found).2 _ inside
      rw [within _ inside, here] at earlier
      cases earlier
  · intro none
    have quiet : ∀ offset < front.length,
        hasPrefix ((front ++ ([13, 10, 13, 10] ++ body)).drop offset) [13, 10, 13, 10] = false := by
      intro offset inside
      rw [← List.append_assoc, within offset inside]
      exact cut_first_none _ _ none offset
    rw [List.append_assoc, cut_first_skip _ front _ quiet]
    simp [cutFirst, hasPrefix]

section Copy

variable (raw : Bytes) (ml : FanOutList) (decodedSubject : Bytes)

def shapedHeader : Bytes :=
  buildPrependedHeaders ml ++
    stripHeader (taggedHeader ml (splitHeaderBody raw).1 decodedSubject) "Auto-Submitted"

theorem prepended_ends : ∃ front, buildPrependedHeaders ml = front ++ [10] := by
  have tail : ascii "Auto-Submitted: auto-forwarded\r\n" =
    ascii "Auto-Submitted: auto-forwarded\r" ++ [10] := by decide
  rw [buildPrependedHeaders, tail, ← List.append_assoc]
  exact ⟨_, rfl⟩

theorem preserved_iff :
    Preserved raw ml decodedSubject ↔
      cutFirst [13, 10, 13, 10] (shapedHeader raw ml decodedSubject ++ [13, 10, 13]) = none ∧
        gatherFields (linesWithFeed (shapedHeader raw ml decodedSubject ++ [13, 10])) =
          gatherFields (linesWithFeed (buildPrependedHeaders ml)) ++
            wantedFields (wantedTag ml decodedSubject) (splitHeaderBody raw).1 := by
  have written : shapeMessage raw ml decodedSubject =
      shapedHeader raw ml decodedSubject ++ [13, 10, 13, 10] ++ (splitHeaderBody raw).2 := rfl
  rw [← blank_line_first_iff _ (splitHeaderBody raw).2, ← written]
  constructor
  · rintro ⟨header, splits, fields⟩
    have found : cutFirst [13, 10, 13, 10] (shapeMessage raw ml decodedSubject) =
        some (header, (splitHeaderBody raw).2) := by
      cases cut : cutFirst [13, 10, 13, 10] (shapeMessage raw ml decodedSubject) with
      | some halves =>
        nth_rewrite 1 [splitHeaderBody] at splits
        rw [cut] at splits
        rw [← splits]
      | none =>
        have absent := cut_first_none _ _ cut (shapedHeader raw ml decodedSubject).length
        rw [written, List.append_assoc, List.drop_left] at absent
        simp [hasPrefix] at absent
    have whole := cut_first_splits found
    rw [written, List.append_assoc, List.append_assoc] at whole
    have same : shapedHeader raw ml decodedSubject = header := List.append_cancel_right whole
    rw [same]
    exact ⟨found, fields⟩
  · rintro ⟨found, fields⟩
    refine ⟨_, ?_, fields⟩
    rw [splitHeaderBody, found]

theorem keepable_preserved (keepable : Keepable raw ml decodedSubject) :
    Preserved raw ml decodedSubject := by
  obtain ⟨filled, solid, tagged, kept, noBlank⟩ := keepable
  have wanted := shaped_header_wanted _ _ filled solid tagged kept
  have ended := wanted_lines_ended _ _ filled solid tagged
  have whole := wanted_fields_whole _ (wantedTag ml decodedSubject) filled solid
  have header : shapedHeader raw ml decodedSubject ++ [13, 10] = buildPrependedHeaders ml ++
      (wantedFields (wantedTag ml decodedSubject) (splitHeaderBody raw).1).flatten.flatten := by
    rw [wanted, shapedHeader, tagged_header_lines, List.append_assoc]
  rw [preserved_iff]
  constructor
  · have tail : shapedHeader raw ml decodedSubject ++ [13, 10, 13] =
        shapedHeader raw ml decodedSubject ++ [13, 10] ++ [13] := by simp
    rw [tail, header]
    exact noBlank
  · obtain ⟨front, ends⟩ := prepended_ends ml
    have read := lines_of_ended _ [] ended
    rw [List.append_nil, show linesWithFeed [] = [] from rfl, List.append_nil] at read
    rw [header, ends, lines_with_feed_append, read, gather_fields_join _ _ (whole_fields_begin _ whole),
      gather_fields_of_whole _ whole]

theorem subject_not_auto (line : Bytes) (subject : names "Subject" line = true) :
    names "Auto-Submitted" line = false := by
  rw [Bool.eq_false_iff]
  intro auto
  rw [names, equalFold, decide_eq_true_eq] at subject auto
  exact absurd (subject.symm.trans auto) (by decide)

theorem added_subject_named (tag : Bytes) : names "Subject" (addedSubject tag) = true := by
  have cut : cutFirstByte 58 (addedSubject tag) =
    some (ascii "Subject", [32] ++ subjectPrefix tag ++ [13, 10]) := by
    rw [← cut_first_byte_append 58 (ascii "Subject") _ (by decide)]
    rfl
  rw [names, headerNameOf, cut]
  show equalFold (ascii "Subject") (ascii "Subject") = true
  decide

theorem added_subject_shape (tag : Bytes) (single : 10 ∉ tag) :
    ∃ content, addedSubject tag = content ++ [13, 10] ∧ 10 ∉ content := by
  refine ⟨ascii "Subject: " ++ subjectPrefix tag, rfl, ?_⟩
  simp only [subjectPrefix, List.mem_append, not_or]
  exact ⟨by decide, ⟨by decide, single⟩, by decide⟩

theorem added_subject_line (tag : Bytes) (single : 10 ∉ tag) : linesWithFeed (addedSubject tag) =
    [addedSubject tag] := by
  obtain ⟨content, shape, free⟩ := added_subject_shape tag single
  have first := ended_line_first (addedSubject tag) []
    ⟨content ++ [13], by rw [shape]; simp, by simp [free]⟩
  rwa [List.append_nil] at first

theorem added_subject_kept (tag : Bytes) (skipping : Bool) :
    stripLines (names "Auto-Submitted") skipping [addedSubject tag] = [addedSubject tag] := by
  have skip : skipsNext (names "Auto-Submitted") skipping (addedSubject tag) = false :=
    subject_not_auto _ (added_subject_named tag)
  rw [strip_lines_cons, skip]
  rfl

theorem tag_stands (tag : Bytes) (fields : List (List Bytes)) :
    ∃ line more, line :: more ∈ tagFirst tag fields ∧ names "Subject" line = true ∧
      ∃ front back, line = front ++ tag ++ back ∧ back ≠ [] := by
  induction fields with
  | nil =>
    refine ⟨addedSubject tag, [], List.mem_cons_self, added_subject_named tag,
      ascii "Subject: " ++ ascii "[", ascii "] " ++ [13, 10], ?_, by simp⟩
    simp [addedSubject, subjectPrefix]
  | cons field fields ih =>
    rw [tagFirst]
    split
    case isTrue named =>
      cases field with
      | nil => cases named
      | cons line more =>
        have subject : names "Subject" line = true := (Bool.and_eq_true_iff.mp named).2
        obtain ⟨name, rest, cut⟩ := subject_has_colon line subject
        refine ⟨tagLine tag line, more, ?_, ?_, name ++ [58, 32] ++ ascii "[",
          ascii "] " ++ trimPrefix rest [32], ?_, by simp [ascii]⟩
        · rw [← tag_line_plain]
          exact List.mem_cons_self
        · rw [tag_line_names tag line _ subject, subject]
        · rw [tag_line_cut tag line _ _ cut, subjectPrefix]
          simp only [List.append_assoc]
    case isFalse =>
      obtain ⟨line, more, member, stands⟩ := ih
      exact ⟨line, more, List.mem_cons_of_mem _ member, stands⟩

theorem tag_wanted (tag header : Bytes) :
    ∃ line ∈ (wantedFields (some tag) header).flatten, ∃ front back, line = front ++ tag ++
      back ∧ back ≠ [] := by
  obtain ⟨line, more, member, subject, stands⟩ := tag_stands tag (messageFields header)
  refine ⟨line, List.mem_flatten.mpr
    ⟨line :: more, List.mem_filter.mpr ⟨member, ?_⟩, List.mem_cons_self⟩,
    stands⟩
  simp [fieldNamed, subject_not_auto line subject]

theorem shaped_header_solid : startsBlank (shapedHeader raw ml decodedSubject) = false := rfl

theorem blank_start_not_whole (header : Bytes) (tag : Option Bytes)
    (blank : startsBlank header = true) :
    ∃ field ∈ wantedFields tag header, ¬IsWholeField field := by
  have filled : header ≠ [] := by
    rintro rfl
    cases blank
  have proper := lines_with_feed_proper (header ++ [13, 10])
  have whole := lines_with_feed_flatten (header ++ [13, 10])
  cases read : linesWithFeed (header ++ [13, 10]) with
  | nil =>
    rw [read] at whole
    simp at whole
  | cons line lines =>
    rw [read] at proper whole
    have first : startsBlank line = true := by
      have solid := proper_lines_filled _ proper line List.mem_cons_self
      rw [← starts_blank_ended, ← whole] at blank
      cases line with
      | nil => exact absurd rfl solid
      | cons byte line => exact blank
    have fields : messageFields header =
        (line :: lines.takeWhile startsBlank) :: gatherFields (lines.dropWhile startsBlank) := by
      rw [messageFields, if_neg filled, read, gather_fields_cons]
    refine ⟨line :: lines.takeWhile startsBlank,
      List.mem_filter.mpr ⟨?_, by simp [fieldNamed, first]⟩, ?_⟩
    · rw [fields]
      cases tag with
      | none => exact List.mem_cons_self
      | some tag =>
        show _ ∈ tagFirst tag _
        rw [tagFirst, if_neg (by simp [fieldNamed, first])]
        exact List.mem_cons_self
    · rintro ⟨other, more, same, solid, -⟩
      cases same
      rw [first] at solid
      cases solid

theorem crlf_end_blank (front : Bytes) : cutFirst [13, 10, 13, 10] (front ++ [13, 10] ++ [13, 10, 13]) ≠
    none := by
  intro none
  have absent := cut_first_none _ _ none front.length
  rw [List.append_assoc, List.drop_left] at absent
  simp [hasPrefix] at absent

theorem tag_lines_added (tag : Bytes) (lines : List Bytes)
    (none : lines.any beginsSubject = false) :
    tagLines tag lines = lines ++ [addedSubject tag] := by
  induction lines with
  | nil => rfl
  | cons line lines ih =>
    rw [List.any_cons, Bool.or_eq_false_iff] at none
    rw [tagLines, if_neg (by rw [none.1]; exact Bool.false_ne_true), ih none.2]
    rfl

theorem no_subject_end (lines : List Bytes)
    (none : lines.any beginsSubject = false) :
    (endLines lines).any beginsSubject = false := by
  induction lines with
  | nil => rfl
  | cons line lines ih =>
    rw [List.any_cons, Bool.or_eq_false_iff] at none
    cases lines with
    | nil =>
      rw [endLines]
      split
      · rw [List.any_cons, none.1]
        decide
      · rw [List.any_cons, begins_subject_ended, none.1]
        rfl
    | cons next lines => rw [end_lines_cons, List.any_cons, none.1, ih none.2, Bool.or_self]

section NoSubject

variable (tag last front : Bytes) (lines : List Bytes) (single : 10 ∉ tag)
variable (earlier : ∀ line ∈ lines, EndedLine line)

include single earlier

/-- Behind an ended line the added Subject stands on its own, and the header ends in
CRLF. -/
theorem added_behind_ended (ended : EndedLine last) :
    cutFirst [13, 10, 13, 10] (front ++
      stripHeader ((lines ++ [last]).flatten ++ addedSubject tag) "Auto-Submitted" ++
        [13, 10, 13]) ≠ none := by
  obtain ⟨content, shape, free⟩ := added_subject_shape tag single
  have all : ∀ line ∈ lines ++ [last], EndedLine line := by
    intro line member
    rcases List.mem_append.mp member with inside | own
    · exact earlier line inside
    · rw [List.mem_singleton.mp own]
      exact ended
  rw [stripHeader, lines_of_ended _ _ all, added_subject_line tag single, strip_lines_append,
    added_subject_kept,
    List.flatten_append, List.flatten_singleton, shape, ← List.append_assoc, ← List.append_assoc]
  exact crlf_end_blank _

/-- Behind another it runs into the line, which is left out, or ends the header in
CRLF. -/
theorem added_behind_unended (unended : 10 ∉ last)
    (noBlank : cutFirst [13, 10, 13, 10] (front ++
      stripHeader ((lines ++ [last]).flatten ++ addedSubject tag) "Auto-Submitted" ++
        [13, 10, 13]) = none) :
    stripHeader ((lines ++ [last]).flatten ++ addedSubject tag) "Auto-Submitted" =
      (stripLines (names "Auto-Submitted") false lines).flatten := by
  obtain ⟨content, shape, free⟩ := added_subject_shape tag single
  have line : EndedLine (last ++ addedSubject tag) :=
    ⟨last ++ content ++ [13], by rw [shape]; simp, by simp [free, unended]⟩
  have read : linesWithFeed ((lines ++ [last]).flatten ++ addedSubject tag) =
      lines ++ [last ++ addedSubject tag] := by
    have first := ended_line_first _ [] line
    rw [List.append_nil] at first
    rw [List.flatten_append, List.flatten_singleton, List.append_assoc,
      lines_of_ended _ _ earlier, first]
    rfl
  rw [stripHeader, read, strip_lines_append, strip_lines_cons] at noBlank ⊢
  cases skips : skipsNext (names "Auto-Submitted") (skipsLast (names "Auto-Submitted") false lines)
      (last ++ addedSubject tag) with
  | false =>
    rw [skips] at noBlank
    have tail : front ++ (stripLines (names "Auto-Submitted") false lines ++
        ((if false = true then [] else [last ++ addedSubject tag]) ++
          stripLines (names "Auto-Submitted") false [])).flatten =
        front ++ ((stripLines (names "Auto-Submitted") false lines).flatten ++ (last ++ content)) ++
          [13, 10] := by
      simp [stripLines, shape]
    rw [tail] at noBlank
    exact absurd noBlank (crlf_end_blank _)
  | true => simp [stripLines]

end NoSubject

theorem no_subject_lost (header tag : Bytes) (front : Bytes) (filled : header ≠ [])
    (solid : startsBlank header = false) (single : 10 ∉ tag) (noSubject : hasSubject header = false)
    (noBlank : cutFirst [13, 10, 13, 10]
      (front ++ stripHeader (tagLines tag (linesWithFeed header)).flatten "Auto-Submitted" ++
        [13, 10, 13]) = none) :
    stripHeader (tagLines tag (linesWithFeed header)).flatten "Auto-Submitted" ++ [13, 10] ≠
      (wantedFields (some tag) header).flatten.flatten := by
  have proper := lines_with_feed_proper header
  have whole := lines_with_feed_flatten header
  rcases List.eq_nil_or_concat' (linesWithFeed header) with none | ⟨lines, last, split⟩
  · rw [none] at whole
    exact absurd whole.symm filled
  · rw [hasSubject, split] at noSubject
    rw [split] at proper noBlank ⊢
    have earlier := proper_lines_front lines last proper
    rw [tag_lines_added tag _ noSubject, List.flatten_append, List.flatten_singleton] at noBlank ⊢
    rcases proper_lines_kind _ proper last
      (List.mem_append_right lines List.mem_cons_self) with ended | unended
    · exact absurd noBlank (added_behind_ended tag last front lines single earlier ended)
    · rw [added_behind_unended tag last front lines single earlier unended noBlank,
        wanted_fields_lines header (some tag) filled solid, split, taggedLines, Option.elim,
        tag_lines_added tag _ (no_subject_end _ noSubject), strip_lines_append, added_subject_kept,
        List.flatten_append, List.flatten_singleton, end_lines_concat, strip_lines_append,
          List.flatten_append]
      intro same
      have long : 9 ≤ (addedSubject tag).length := by
        rw [addedSubject, List.length_append, List.length_append,
          show (ascii "Subject: ").length = 9 from rfl]
        omega
      have lengths := congrArg List.length same
      simp only [List.length_append, List.length_cons, List.length_nil] at lengths
      omega

theorem empty_header_lost (tag : Option Bytes) (single : ∀ text, tag = some text → 10 ∉ text) :
    stripHeader (tag.elim [] fun tag => (tagLines tag (linesWithFeed [])).flatten)
      "Auto-Submitted" ++ [13, 10] ≠
      (wantedFields tag []).flatten.flatten := by
  intro same
  cases tag with
  | none => cases same
  | some text =>
    have named : fieldNamed (names "Auto-Submitted") [addedSubject text] = false := by
      simp [fieldNamed, subject_not_auto _ (added_subject_named text)]
    have wanted : wantedFields (some text) [] = [[addedSubject text]] := by
      show [[addedSubject text]].filter _ = _
      rw [List.filter_cons_of_pos (by rw [named]; rfl)]
      rfl
    have shaped : stripHeader (tagLines text (linesWithFeed [])).flatten "Auto-Submitted" =
      addedSubject text := by
      show stripHeader ([addedSubject text].flatten) "Auto-Submitted" = _
      rw [List.flatten_singleton, stripHeader, added_subject_line text (single text rfl),
        added_subject_kept,
        List.flatten_singleton]
    rw [wanted, Option.elim, shaped] at same
    simp at same

theorem preserved_keepable (preserved : Preserved raw ml decodedSubject) :
    Keepable raw ml decodedSubject := by
  obtain ⟨noBlank, fields⟩ := (preserved_iff raw ml decodedSubject).mp preserved
  have flat := congrArg (fun fields => fields.flatten.flatten) fields
  simp only [List.flatten_append, gather_fields_flatten, lines_with_feed_flatten] at flat
  rw [shapedHeader, List.append_assoc] at flat
  have wanted := List.append_cancel_left flat
  rw [tagged_header_lines] at wanted
  have among : ∀ field ∈ wantedFields (wantedTag ml decodedSubject) (splitHeaderBody raw).1,
      field ∈ gatherFields (linesWithFeed (shapedHeader raw ml decodedSubject ++ [13, 10])) := by
    intro field member
    rw [fields]
    exact List.mem_append_right _ member
  have solid : startsBlank (splitHeaderBody raw).1 = false := by
    rw [Bool.eq_false_iff]
    intro blank
    obtain ⟨field, member, broken⟩ := blank_start_not_whole _ (wantedTag ml decodedSubject) blank
    exact broken (gather_fields_whole _
      (head_of_lines _ (shaped_header_solid raw ml decodedSubject)) field
      (among field member))
  have single : ∀ tag, wantedTag ml decodedSubject = some tag → 10 ∉ tag := by
    intro tag given inside
    rw [given] at among
    obtain ⟨line, member, front, back, rfl, more⟩ := tag_wanted tag (splitHeaderBody raw).1
    obtain ⟨field, here, own⟩ := List.mem_flatten.mp member
    have read := List.mem_flatten.mpr ⟨field, among field here, own⟩
    rw [gather_fields_flatten] at read
    exact feed_inside_no_line (front ++ tag) back (List.mem_append_right front inside) more
      (proper_lines_kind _ (lines_with_feed_proper _) _ read)
  have filled : (splitHeaderBody raw).1 ≠ [] := by
    intro empty
    rw [empty] at wanted
    exact empty_header_lost _ single wanted
  have subject : ∀ tag, wantedTag ml decodedSubject = some tag →
    hasSubject (splitHeaderBody raw).1 = true := by
    intro tag given
    by_contra absent
    rw [shapedHeader, tagged_header_lines, given] at noBlank
    rw [given] at wanted
    exact no_subject_lost _ tag _ filled solid (single tag given) (Bool.eq_false_iff.mpr absent)
      noBlank wanted
  have both := fun tag given => And.intro (single tag given) (subject tag given)
  have kept : (splitHeaderBody raw).1.getLast? = some 10 ∨
      skipsLast (names "Auto-Submitted") false (linesWithFeed (splitHeaderBody raw).1) = false := by
    by_contra lost
    rw [not_or, Bool.not_eq_false] at lost
    rw [shaped_header_short _ _ filled solid both lost.1 lost.2] at wanted
    simp at wanted
  refine ⟨filled, solid, both, kept, ?_⟩
  have tail : shapedHeader raw ml decodedSubject ++ [13, 10, 13] =
      shapedHeader raw ml decodedSubject ++ [13, 10] ++ [13] := by simp
  rw [tail, shapedHeader, List.append_assoc (buildPrependedHeaders ml), tagged_header_lines,
    wanted] at noBlank
  exact noBlank

/-- The copies of a list keep the post exactly where no line end is missing that the
edits need. -/
theorem shaping_preserves_post_iff :
    Preserved raw ml decodedSubject ↔ Keepable raw ml decodedSubject :=
  ⟨preserved_keepable raw ml decodedSubject, keepable_preserved raw ml decodedSubject⟩

end Copy

theorem last_auto_submitted_grows_body :
    (splitHeaderBody (ascii "To: l\r\nAuto-Submitted: no\r\n\r\nhi")).2 = ascii "hi" ∧
      (splitHeaderBody (shapeMessage (ascii "To: l\r\nAuto-Submitted: no\r\n\r\nhi")
        ⟨teamList, ascii "Team", none, none⟩ [])).2 = ascii "\r\nhi" ∧
      ¬Preserved (ascii "To: l\r\nAuto-Submitted: no\r\n\r\nhi")
        ⟨teamList, ascii "Team", none, none⟩ [] := by
  have body : (splitHeaderBody (ascii "To: l\r\nAuto-Submitted: no\r\n\r\nhi")).2 = ascii "hi" := by
    decide
  have grown : (splitHeaderBody (shapeMessage (ascii "To: l\r\nAuto-Submitted: no\r\n\r\nhi")
      ⟨teamList, ascii "Team", none, none⟩ [])).2 = ascii "\r\nhi" := by decide +kernel
  refine ⟨body, grown, ?_⟩
  rintro ⟨header, splits, -⟩
  rw [splits, body] at grown
  exact absurd grown (by decide)

end Herold.Maillist

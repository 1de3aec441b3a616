import Herold.Mail.Fields
import Herold.Mail.Multipart
import Herold.Maillist.Verp

/-!
# Shaping the copies of a post

`ShapeMessage` puts the list's fields on top of a post, tags its Subject and leaves out
what it says of Auto-Submitted. The header is edited as it was cut from the message: its
last line has lost the line end. That is why a Subject added at the end runs into the
last line, and why the body gains a line when the last field is left out.
-/

namespace Herold.Maillist

open Herold.Go Herold.Mail

def maxHeaderFieldLen : Nat := 1024

def sanitizeForHeader (text : Bytes) : Bytes :=
  (text.take maxHeaderFieldLen).map fun byte => if byte < 0x20 || byte > 0x7E then 95 else byte

def splitHeaderBody (raw : Bytes) : Bytes × Bytes :=
  match cutFirst [13, 10, 13, 10] raw with
  | some halves => halves
  | none => (cutFirst [10, 10] raw).getD (raw, [])

def headerNameOf (line : Bytes) : Bytes := (cutFirstByte 58 line).elim [] Prod.fst

def names (name : String) (line : Bytes) : Bool := equalFold (headerNameOf line) (ascii name)

def stripHeader (header : Bytes) (name : String) : Bytes :=
  (stripLines (names name) false (linesWithFeed header)).flatten

def subjectPrefix (tag : Bytes) : Bytes := ascii "[" ++ tag ++ ascii "] "

def lineEnding (rest : Bytes) : Bytes :=
  if [13, 10].isSuffixOf rest then [13, 10] else if [10].isSuffixOf rest then [10] else []

def tagLine (tag line : Bytes) : Bytes :=
  match cutFirstByte 58 line with
  | none => line
  | some (name, rest) =>
    name ++ [58, 32] ++ subjectPrefix tag ++ trimPrefix (trimSuffix rest (lineEnding rest)) [32] ++
      lineEnding rest

def addedSubject (tag : Bytes) : Bytes := ascii "Subject: " ++ subjectPrefix tag ++ [13, 10]

def beginsSubject (line : Bytes) : Bool := !startsBlank line && names "Subject" line

/-- The loop over the lines: the first Subject is tagged, and one is added when none
was. -/
def tagLines (tag : Bytes) : List Bytes → List Bytes
  | [] => [addedSubject tag]
  | line :: lines =>
    if beginsSubject line then tagLine tag line :: lines
    else line :: tagLines tag lines

def applySubjectTag (header tag decodedSubject : Bytes) : Bytes :=
  if hasPrefix decodedSubject (subjectPrefix tag) then header
  else (tagLines tag (linesWithFeed header)).flatten

structure FanOutList extends MailingList where
  displayName : Bytes
  subjectTag : Option Bytes
  archiveMailboxID : Option Nat

def listIdentifier (ml : FanOutList) : Bytes := listLocalPart ml.toMailingList ++ ascii "." ++ ml.domain

/-- `%q` of printable ASCII. -/
def quoted (text : Bytes) : Bytes :=
  [34] ++ (text.flatMap fun byte => if byte = 34 || byte = 92 then [92, byte] else [byte]) ++ [34]

def listIDHeaderValue (ml : FanOutList) : Bytes :=
  quoted (sanitizeForHeader ml.displayName) ++ ascii " <" ++ listIdentifier ml ++ ascii ">"

def archiveMailboxName (ml : FanOutList) : Bytes := ascii "Lists/" ++ ml.postingAddress

def upperHexDigit (value : Nat) : UInt8 := (ascii "0123456789ABCDEF").getD value 48

def imapURLPathEscape (text : Bytes) : Bytes :=
  text.flatMap fun byte =>
    if (65 ≤ byte && byte ≤ 90) || (97 ≤ byte && byte ≤ 122) || (48 ≤ byte && byte ≤ 57) ||
        (ascii "-._~/").contains byte then [byte]
    else [37, upperHexDigit (byte.toNat / 16), upperHexDigit (byte.toNat % 16)]

def listArchiveHeaderValue (ml : FanOutList) : Bytes :=
  ascii "<imap://" ++ ml.domain ++ ascii "/" ++ imapURLPathEscape (archiveMailboxName ml) ++ ascii ">"

def buildPrependedHeaders (ml : FanOutList) : Bytes :=
  ascii "List-ID: " ++ listIDHeaderValue ml ++ [13, 10] ++
    ascii "List-Post: <mailto:" ++ sanitizeForHeader ml.postingAddress ++ ascii ">\r\n" ++
    (if ml.archiveMailboxID.isSome then ascii "List-Archive: " ++ listArchiveHeaderValue ml ++
      [13, 10] else []) ++
    ascii "Auto-Submitted: auto-forwarded\r\n"

def taggedHeader (ml : FanOutList) (header decodedSubject : Bytes) : Bytes :=
  match ml.subjectTag with
  | none => header
  | some text =>
    if trimSpace text = [] then header else applySubjectTag header (trimSpace text) decodedSubject

def shapeMessage (raw : Bytes) (ml : FanOutList) (decodedSubject : Bytes) : Bytes :=
  buildPrependedHeaders ml ++
    stripHeader (taggedHeader ml (splitHeaderBody raw).1 decodedSubject) "Auto-Submitted" ++
    [13, 10, 13, 10] ++ (splitHeaderBody raw).2

/-- The tag that is to be put in front of the Subject: none when the Subject has it. -/
def wantedTag (ml : FanOutList) (decodedSubject : Bytes) : Option Bytes :=
  (ml.subjectTag.map trimSpace).filter fun tag => !decide (tag = []) &&
    !hasPrefix decodedSubject (subjectPrefix tag)

/-- The fields of a header cut from its message, the last line ended as it was there. -/
def messageFields (header : Bytes) : List (List Bytes) :=
  if header = [] then [] else gatherFields (linesWithFeed (header ++ [13, 10]))

def tagField (tag : Bytes) : List Bytes → List Bytes
  | [] => []
  | line :: more =>
    ((cutFirstByte 58 line).elim line fun halves =>
      halves.1 ++ [58, 32] ++ subjectPrefix tag ++ trimPrefix halves.2 [32]) :: more

def tagFirst (tag : Bytes) : List (List Bytes) → List (List Bytes)
  | [] => [[addedSubject tag]]
  | field :: fields =>
    if fieldNamed (names "Subject") field then tagField tag field :: fields
      else field :: tagFirst tag fields

def wantedFields (tag : Option Bytes) (header : Bytes) : List (List Bytes) :=
  (tag.elim (messageFields header) fun tag => tagFirst tag (messageFields header)).filter fun field =>
    !fieldNamed (names "Auto-Submitted") field

/-- The copy splits at its first blank line into the body of the post and a header of
the list's fields and those wanted of the post. -/
def Preserved (raw : Bytes) (ml : FanOutList) (decodedSubject : Bytes) : Prop :=
  ∃ header, splitHeaderBody (shapeMessage raw ml decodedSubject) = (header, (splitHeaderBody raw).2) ∧
    gatherFields (linesWithFeed (header ++ [13, 10])) =
      gatherFields (linesWithFeed (buildPrependedHeaders ml)) ++
        wantedFields (wantedTag ml decodedSubject) (splitHeaderBody raw).1

def hasSubject (header : Bytes) : Bool :=
  (linesWithFeed header).any beginsSubject

/-- Where the copy keeps the post: the header is not empty and does not start with white
space, a tag is one line and has a Subject to stand in, the last line is ended or not of
Auto-Submitted, and no line of the wanted header is blank. -/
def Keepable (raw : Bytes) (ml : FanOutList) (decodedSubject : Bytes) : Prop :=
  (splitHeaderBody raw).1 ≠ [] ∧ startsBlank (splitHeaderBody raw).1 = false ∧
    (∀ tag, wantedTag ml decodedSubject = some tag → 10 ∉ tag ∧
      hasSubject (splitHeaderBody raw).1 = true) ∧
    ((splitHeaderBody raw).1.getLast? = some 10 ∨
      skipsLast (names "Auto-Submitted") false (linesWithFeed (splitHeaderBody raw).1) = false) ∧
    cutFirst [13, 10, 13, 10] (buildPrependedHeaders ml ++
      (wantedFields (wantedTag ml decodedSubject) (splitHeaderBody raw).1).flatten.flatten ++
        [13]) = none

theorem starts_blank_ended (line : Bytes) : startsBlank (line ++ [13, 10]) = startsBlank line := by
  cases line with
  | nil => rfl
  | cons byte line => rfl

theorem cut_first_byte_behind (byte : UInt8) (text rest : Bytes) (absent : byte ∉ rest) :
    cutFirstByte byte (text ++ rest) =
      (cutFirstByte byte text).map fun halves => (halves.1, halves.2 ++ rest) := by
  cases cut : cutFirstByte byte text with
  | none =>
    have free := (cut_first_byte_none byte text).mp cut
    rw [Option.map_none, cut_first_byte_none, List.mem_append, not_or]
    exact ⟨free, absent⟩
  | some halves =>
    obtain ⟨splits, free⟩ := cut_first_byte_splits byte text halves.1 halves.2 cut
    rw [splits, List.append_assoc, List.cons_append, cut_first_byte_append byte _ _ free]
    rfl

theorem names_behind (name : String) (line ending : Bytes) (colonless : 58 ∉ ending) :
    names name (line ++ ending) = names name line := by
  unfold names headerNameOf
  rw [cut_first_byte_behind 58 line ending colonless]
  cases cutFirstByte 58 line with
  | none => rfl
  | some halves => rfl

theorem begins_subject_ended (line : Bytes) :
    beginsSubject (line ++ [13, 10]) = beginsSubject line := by
  rw [beginsSubject, beginsSubject, starts_blank_ended, names_behind _ line _ (by decide)]

theorem trim_space_behind (rest ending : Bytes) (solid : startsBlank ending = false) :
    trimPrefix (rest ++ ending) [32] = trimPrefix rest [32] ++ ending := by
  cases rest with
  | nil =>
    cases ending with
    | nil => rfl
    | cons byte ending =>
      have other : ¬32 = byte := by
        rintro rfl
        simp [startsBlank] at solid
      simp [trimPrefix, hasPrefix, other]
  | cons byte rest =>
    by_cases blank : byte = 32
    · subst blank
      simp [trimPrefix, hasPrefix]
    · have other : ¬32 = byte := fun same => blank same.symm
      simp [trimPrefix, hasPrefix, other]

theorem trim_suffix_back (text ending : Bytes) (ends : ending.isSuffixOf text = true) :
    trimSuffix text ending ++ ending = text := by
  obtain ⟨front, rfl⟩ := List.isSuffixOf_iff_suffix.mp ends
  simp [trimSuffix]

theorem line_ending_found (rest : Bytes) :
    (lineEnding rest).isSuffixOf rest = true ∧ startsBlank (lineEnding rest) = false := by
  unfold lineEnding
  split
  case isTrue crlf => exact ⟨crlf, rfl⟩
  case isFalse =>
    split
    case isTrue feed => exact ⟨feed, rfl⟩
    case isFalse => exact ⟨by simp, rfl⟩

theorem tag_line_plain (tag line : Bytes) (more : List Bytes) :
    tagLine tag line :: more = tagField tag (line :: more) := by
  rw [tagLine, tagField]
  cases cutFirstByte 58 line with
  | none => rfl
  | some halves =>
    obtain ⟨ends, solid⟩ := line_ending_found halves.2
    have aside := trim_space_behind (trimSuffix halves.2 (lineEnding halves.2)) _ solid
    rw [trim_suffix_back _ _ ends] at aside
    dsimp only [Option.elim]
    rw [aside]
    simp only [List.append_assoc]

theorem tag_line_cut (tag line name rest : Bytes) (cut : cutFirstByte 58 line = some (name, rest)) :
    tagLine tag line = name ++ [58, 32] ++ subjectPrefix tag ++ trimPrefix rest [32] := by
  have plain := tag_line_plain tag line []
  rw [tagField, cut] at plain
  exact (List.cons.inj plain).1

theorem subject_has_colon (line : Bytes) (named : names "Subject" line = true) :
    ∃ name rest, cutFirstByte 58 line = some (name, rest) := by
  cases cut : cutFirstByte 58 line with
  | none =>
    rw [names, headerNameOf, cut] at named
    exact absurd named (by decide)
  | some halves => exact ⟨halves.1, halves.2, rfl⟩

theorem tag_line_behind (tag line ending : Bytes) (colonless : 58 ∉ ending)
    (solid : startsBlank ending = false)
    (named : names "Subject" line = true) :
      tagLine tag (line ++ ending) = tagLine tag line ++ ending := by
  obtain ⟨name, rest, cut⟩ := subject_has_colon line named
  have behind := cut_first_byte_behind 58 line ending colonless
  rw [cut, Option.map_some] at behind
  rw [tag_line_cut tag _ _ _ behind, tag_line_cut tag line _ _ cut, trim_space_behind _ _ solid]
  simp only [List.append_assoc]

theorem trim_space_feeds (rest : Bytes) : 10 ∈ trimPrefix rest [32] ↔ 10 ∈ rest := by
  cases rest with
  | nil => rfl
  | cons byte rest =>
    by_cases blank : byte = 32
    · subst blank
      simp [trimPrefix, hasPrefix]
    · have other : ¬32 = byte := fun same => blank same.symm
      simp [trimPrefix, hasPrefix, other]

theorem tag_line_feeds (tag line : Bytes) (single : 10 ∉ tag) (named : names "Subject" line = true) :
    10 ∈ tagLine tag line ↔ 10 ∈ line := by
  obtain ⟨name, rest, cut⟩ := subject_has_colon line named
  obtain ⟨splits, -⟩ := cut_first_byte_splits 58 line name rest cut
  have tagFree : 10 ∉ subjectPrefix tag := by
    simp only [subjectPrefix, List.mem_append, not_or]
    exact ⟨⟨by decide, single⟩, by decide⟩
  rw [tag_line_cut tag line _ _ cut, splits]
  simp only [List.mem_append, List.mem_cons, trim_space_feeds, tagFree]
  simp

theorem tag_line_solid (tag line : Bytes) (solid : startsBlank line = false)
    (named : names "Subject" line = true) :
    startsBlank (tagLine tag line) = false := by
  obtain ⟨name, rest, cut⟩ := subject_has_colon line named
  obtain ⟨splits, -⟩ := cut_first_byte_splits 58 line name rest cut
  rw [tag_line_cut tag line _ _ cut]
  rw [splits] at solid
  cases name with
  | nil => rfl
  | cons byte name => exact solid

theorem tag_line_line (tag line : Bytes) (single : 10 ∉ tag) (named : names "Subject" line = true)
    (ended : EndedLine line) : EndedLine (tagLine tag line) := by
  obtain ⟨content, rfl, free⟩ := ended
  rw [names_behind _ content [10] (by decide)] at named
  rw [tag_line_behind tag content [10] (by decide) rfl named]
  exact ⟨_, rfl, fun inside => free ((tag_line_feeds tag content single named).mp inside)⟩

section

variable (tag : Bytes) (name : String) (skipping : Bool) (lines : List Bytes)

theorem tag_lines_blank :
    tagLines tag lines = lines.takeWhile startsBlank ++ tagLines tag (lines.dropWhile startsBlank) := by
  induction lines with
  | nil => rfl
  | cons line lines ih =>
    by_cases blank : startsBlank line = true
    · rw [List.takeWhile_cons_of_pos blank, List.dropWhile_cons_of_pos blank,
        List.cons_append, ← ih, tagLines,
        if_neg (by simp [beginsSubject, blank])]
    · rw [List.takeWhile_cons_of_neg blank, List.dropWhile_cons_of_neg blank, List.nil_append]

theorem tag_first_lines : (tagFirst tag (gatherFields lines)).flatten = tagLines tag lines := by
  generalize size : lines.length = count
  induction count using Nat.strong_induction_on generalizing lines with
  | _ count ih =>
    cases lines with
    | nil => rfl
    | cons line lines =>
      have shorter := (List.dropWhile_sublist (p := startsBlank) (l := lines)).length_le
      have later := ih (lines.dropWhile startsBlank).length
        (by rw [← size, List.length_cons]; omega) _ rfl
      have named : fieldNamed (names "Subject") (line :: lines.takeWhile startsBlank) =
        beginsSubject line := rfl
      rw [gather_fields_cons, tagFirst, tagLines, named]
      by_cases subject : beginsSubject line = true
      · rw [if_pos subject, if_pos subject, List.flatten_cons, gather_fields_flatten, ← tag_line_plain,
          List.cons_append, List.takeWhile_append_dropWhile]
      · rw [if_neg subject, if_neg subject, List.flatten_cons, later,
          List.cons_append, ← tag_lines_blank]

theorem tag_lines_proper (single : 10 ∉ tag)
    (subject : lines.any beginsSubject = true) (proper : ProperLines lines) :
    ProperLines (tagLines tag lines) := by
  induction lines with
  | nil => cases subject
  | cons line lines ih =>
    rw [tagLines]
    by_cases here : beginsSubject line = true
    · rw [if_pos here]
      have named := (Bool.and_eq_true_iff.mp here).2
      cases lines with
      | nil =>
        refine ⟨?_, ?_⟩
        · obtain ⟨name, rest, cut⟩ := subject_has_colon line named
          rw [tag_line_cut tag line _ _ cut]
          simp
        · rcases proper.2 with ended | free
          · exact Or.inl (tag_line_line tag line single named ended)
          · exact Or.inr fun inside => free ((tag_line_feeds tag line single named).mp inside)
      | cons next lines => exact ⟨tag_line_line tag line single named proper.1, proper.2⟩
    · rw [if_neg here]
      rw [List.any_cons, Bool.or_eq_true_iff] at subject
      have later := subject.resolve_left here
      cases lines with
      | nil => cases later
      | cons next lines => exact proper_lines_cons line _ proper.1 (ih later proper.2)

theorem tag_lines_end (single : 10 ∉ tag) (subject : lines.any beginsSubject = true) :
    tagLines tag (endLines lines) = endLines (tagLines tag lines) := by
  induction lines with
  | nil => cases subject
  | cons line lines ih =>
    by_cases here : beginsSubject line = true
    · have named := (Bool.and_eq_true_iff.mp here).2
      cases lines with
      | nil =>
        rw [tagLines, if_pos here, endLines, endLines]
        by_cases feed : 10 ∈ line
        · rw [if_pos feed, if_pos ((tag_line_feeds tag line single named).mpr feed), tagLines,
            if_pos here]
        · rw [if_neg feed, if_neg fun inside => feed ((tag_line_feeds tag line single named).mp inside),
            tagLines, begins_subject_ended, if_pos here,
            tag_line_behind tag line _ (by decide) rfl named]
      | cons next lines => rw [end_lines_cons, tagLines, tagLines, if_pos here, if_pos here,
          end_lines_cons]
    · rw [List.any_cons, Bool.or_eq_true_iff] at subject
      have later := subject.resolve_left here
      cases lines with
      | nil => cases later
      | cons next lines =>
        have step : tagLines tag (line :: next :: lines) = line :: tagLines tag (next :: lines) := by
          rw [tagLines, if_neg here]
        rw [end_lines_cons, tagLines, if_neg here, ih later, step]
        cases tagged : tagLines tag (next :: lines) with
        | nil =>
          rw [tagLines] at tagged
          split at tagged <;> cases tagged
        | cons other more => rfl

theorem strip_lines_end (filled : lines ≠ []) (ending : names name [13, 10] = false)
    (kept : (∃ last, lines.getLast? = some last ∧ 10 ∈ last) ∨
      skipsLast (names name) skipping lines = false) :
    (stripLines (names name) skipping (endLines lines)).flatten =
      (stripLines (names name) skipping lines).flatten ++ [13, 10] := by
  induction lines generalizing skipping with
  | nil => exact absurd rfl filled
  | cons line lines ih =>
    cases lines with
    | nil =>
      rw [endLines]
      by_cases feed : 10 ∈ line
      · have last : skipsNext (names name) (skipsNext (names name) skipping line) [13, 10] =
          false := ending
        rw [if_pos feed, strip_lines_cons, strip_lines_cons, strip_lines_cons, last]
        simp [stripLines]
      · have state : skipsNext (names name) skipping line = false := by
          rcases kept with ⟨last, same, inside⟩ | stays
          · cases same
            exact absurd inside feed
          · exact stays
        have same : skipsNext (names name) skipping (line ++ [13, 10]) =
          skipsNext (names name) skipping line := by
          rw [skipsNext, skipsNext, starts_blank_ended, names_behind name line _ (by decide)]
        rw [if_neg feed, strip_lines_cons, strip_lines_cons, same, state]
        simp [stripLines]
    | cons next lines =>
      have later := ih (skipsNext (names name) skipping line) (by simp) (by
        rcases kept with ⟨last, same, inside⟩ | stays
        · exact Or.inl ⟨last, by simpa using same, inside⟩
        · exact Or.inr stays)
      rw [end_lines_cons, strip_lines_cons _ skipping line (endLines _),
        strip_lines_cons _ skipping line (_ :: _),
        List.flatten_append, List.flatten_append, later, List.append_assoc]

theorem strip_lines_end_skipped (filled : lines ≠ [])
    (free : ∀ last, lines.getLast? = some last → 10 ∉ last)
    (skipped : skipsLast (names name) skipping lines = true) :
    stripLines (names name) skipping (endLines lines) = stripLines (names name) skipping lines := by
  induction lines generalizing skipping with
  | nil => exact absurd rfl filled
  | cons line lines ih =>
    cases lines with
    | nil =>
      have state : skipsNext (names name) skipping line = true := skipped
      have same : skipsNext (names name) skipping (line ++ [13, 10]) =
        skipsNext (names name) skipping line := by
        rw [skipsNext, skipsNext, starts_blank_ended, names_behind name line _ (by decide)]
      rw [endLines, if_neg (free line rfl), strip_lines_cons, strip_lines_cons, same, state]
      rfl
    | cons next lines =>
      have later := ih (skipsNext (names name) skipping line) (by simp)
        (fun last ends => free last (by simpa using ends)) skipped
      rw [end_lines_cons, strip_lines_cons _ skipping line (endLines _), later,
        ← strip_lines_cons _ skipping line (_ :: _)]

theorem tag_line_names (tag line : Bytes) (name : String) (subject : names "Subject" line = true) :
    names name (tagLine tag line) = names name line := by
  obtain ⟨field, rest, cut⟩ := subject_has_colon line subject
  obtain ⟨-, free⟩ := cut_first_byte_splits 58 line field rest cut
  have again : cutFirstByte 58 (tagLine tag line) =
      some (field, [32] ++ subjectPrefix tag ++ trimPrefix rest [32]) := by
    rw [tag_line_cut tag line _ _ cut, ← cut_first_byte_append 58 field _ free]
    simp
  rw [names, names, headerNameOf, headerNameOf, cut, again]
  rfl

theorem tag_lines_last (single : 10 ∉ tag) (subject : lines.any beginsSubject = true) :
    skipsLast (names name) skipping (tagLines tag lines) = skipsLast (names name) skipping lines ∧
      ((∃ last, (tagLines tag lines).getLast? = some last ∧ 10 ∈ last) ↔
        ∃ last, lines.getLast? = some last ∧ 10 ∈ last) := by
  induction lines generalizing skipping with
  | nil => cases subject
  | cons line lines ih =>
    rw [tagLines]
    by_cases here : beginsSubject line = true
    · have named := (Bool.and_eq_true_iff.mp here).2
      have solid : startsBlank line = false := by simpa using (Bool.and_eq_true_iff.mp here).1
      have same : skipsNext (names name) skipping (tagLine tag line) =
        skipsNext (names name) skipping line := by
        rw [skipsNext, skipsNext, tag_line_solid tag line solid named, solid,
          tag_line_names tag line name named]
      rw [if_pos here, skipsLast, skipsLast, same]
      refine ⟨rfl, ?_⟩
      cases lines with
      | nil => simpa using tag_line_feeds tag line single named
      | cons next lines => simp
    · rw [List.any_cons, Bool.or_eq_true_iff] at subject
      have later := subject.resolve_left here
      obtain ⟨same, ended⟩ := ih (skipsNext (names name) skipping line) later
      rw [if_neg here, skipsLast, skipsLast, same]
      refine ⟨rfl, ?_⟩
      cases lines with
      | nil => cases later
      | cons next lines =>
        cases tagged : tagLines tag (next :: lines) with
        | nil =>
          rw [tagLines] at tagged
          split at tagged <;> cases tagged
        | cons other more =>
          rw [tagged] at ended
          simpa using ended

end

end Herold.Maillist

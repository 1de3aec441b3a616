import Herold.Mail.Sender

/-!
# Fields and their lines

A header is a list of lines, each with its line feed; a field is a line that does not
start with white space and the lines behind it that do. What a pass over the lines that
remembers whether it skips leaves over is what is left when fields are left out.
-/

namespace Herold.Mail

open Herold.Go

def startsBlank (line : Bytes) : Bool :=
  match line with
  | first :: _ => first = 32 || first = 9
  | [] => false

/-- The lines of a header in fields: a line that starts with white space belongs to the
line before it. -/
def gatherFields : List Bytes → List (List Bytes)
  | [] => []
  | line :: lines =>
    match gatherFields lines with
    | (next :: more) :: fields =>
      if startsBlank next then (line :: next :: more) :: fields else [line] :: (next :: more) :: fields
    | fields => [line] :: fields

section

variable (text : Bytes) (lines : List Bytes)

theorem lines_with_feed_flatten : (linesWithFeed text).flatten = text := by
  induction text with
  | nil => rfl
  | cons byte rest ih =>
    rw [linesWithFeed]
    split
    case isTrue feed => rw [List.flatten_cons, ih, feed, List.singleton_append]
    case isFalse =>
      split
      case h_1 none =>
        rw [none] at ih
        rw [← ih]
        rfl
      case h_2 line lines some =>
        rw [some, List.flatten_cons] at ih
        rw [List.flatten_cons, List.cons_append, ih]

def EndedLine (line : Bytes) : Prop := ∃ content, line = content ++ [10] ∧ 10 ∉ content

theorem lines_of_ended (rest : Bytes) (ended : ∀ line ∈ lines, EndedLine line) :
    linesWithFeed (lines.flatten ++ rest) = lines ++ linesWithFeed rest := by
  induction lines with
  | nil => rfl
  | cons line lines ih =>
    obtain ⟨content, rfl, free⟩ := ended _ List.mem_cons_self
    have later := ih fun other member => ended other (List.mem_cons_of_mem _ member)
    rw [List.flatten_cons, List.append_assoc, List.append_assoc, List.singleton_append,
      lines_with_feed_line content _ free, later]
    rfl

/-- Lines as a text has them: all ended but perhaps the last, and none empty. -/
def ProperLines : List Bytes → Prop
  | [] => True
  | [line] => line ≠ [] ∧ (EndedLine line ∨ 10 ∉ line)
  | line :: lines => EndedLine line ∧ ProperLines lines

theorem proper_lines_cons (line : Bytes) (lines : List Bytes) (ended : EndedLine line)
    (proper : ProperLines lines) :
    ProperLines (line :: lines) := by
  cases lines with
  | nil =>
    refine ⟨?_, Or.inl ended⟩
    obtain ⟨content, rfl, -⟩ := ended
    simp
  | cons next lines => exact ⟨ended, proper⟩

theorem proper_lines_filled (proper : ProperLines lines) : ∀ line ∈ lines, line ≠ [] := by
  induction lines with
  | nil => simp
  | cons first lines ih =>
    cases lines with
    | nil =>
      intro line member
      rw [List.mem_singleton] at member
      rw [member]
      exact proper.1
    | cons next lines =>
      intro line member
      rcases List.mem_cons.mp member with rfl | later
      · obtain ⟨content, rfl, -⟩ := proper.1
        simp
      · exact ih proper.2 line later

theorem proper_lines_kind (proper : ProperLines lines) :
    ∀ line ∈ lines, EndedLine line ∨ 10 ∉ line := by
  induction lines with
  | nil => simp
  | cons first lines ih =>
    cases lines with
    | nil =>
      intro line member
      rw [List.mem_singleton] at member
      rw [member]
      exact proper.2
    | cons next lines =>
      intro line member
      rcases List.mem_cons.mp member with rfl | later
      · exact Or.inl proper.1
      · exact ih proper.2 line later

theorem proper_lines_front (last : Bytes) (proper : ProperLines (lines ++ [last])) :
    ∀ line ∈ lines, EndedLine line := by
  induction lines with
  | nil => simp
  | cons first lines ih =>
    have both : EndedLine first ∧ ProperLines (lines ++ [last]) := by
      cases lines with
      | nil => exact proper
      | cons next lines => exact proper
    intro line member
    rcases List.mem_cons.mp member with rfl | later
    · exact both.1
    · exact ih both.2 line later

theorem feed_inside_no_line (front back : Bytes) (inside : 10 ∈ front) (more : back ≠ []) :
    ¬(EndedLine (front ++ back) ∨ 10 ∉ front ++ back) := by
  rintro (⟨content, same, free⟩ | free)
  · have kept : front ++ back.dropLast = content := by
      have cut := congrArg List.dropLast same
      rwa [List.dropLast_append_of_ne_nil more, List.dropLast_concat] at cut
    apply free
    rw [← kept]
    exact List.mem_append_left _ inside
  · exact free (List.mem_append_left _ inside)

theorem ended_line_cons (byte : UInt8) (line : Bytes) (other : byte ≠ 10) (ended : EndedLine line) :
    EndedLine (byte :: line) := by
  obtain ⟨content, rfl, free⟩ := ended
  refine ⟨byte :: content, rfl, ?_⟩
  rw [List.mem_cons, not_or]
  exact ⟨fun same => other same.symm, free⟩

theorem lines_with_feed_proper : ProperLines (linesWithFeed text) := by
  induction text with
  | nil => exact trivial
  | cons byte rest ih =>
    rw [linesWithFeed]
    by_cases feed : byte = 10
    · rw [if_pos feed]
      exact proper_lines_cons [10] _ ⟨[], rfl, by simp⟩ ih
    · rw [if_neg feed]
      have single : 10 ∉ [byte] := by
        rw [List.mem_singleton]
        exact fun same => feed same.symm
      cases read : linesWithFeed rest with
      | nil => exact ⟨by simp, Or.inr single⟩
      | cons line lines =>
        rw [read] at ih
        cases lines with
        | nil =>
          refine ⟨by simp, ?_⟩
          rcases ih.2 with ended | free
          · exact Or.inl (ended_line_cons byte line feed ended)
          · refine Or.inr ?_
            rw [List.mem_cons, not_or]
            exact ⟨fun same => feed same.symm, free⟩
        | cons next more => exact ⟨ended_line_cons byte line feed ih.1, ih.2⟩

theorem ended_line_first (line rest : Bytes) (ended : EndedLine line) :
    linesWithFeed (line ++ rest) = line :: linesWithFeed rest := by
  obtain ⟨content, rfl, free⟩ := ended
  rw [List.append_assoc, List.singleton_append, lines_with_feed_line content rest free]

theorem lines_with_feed_single (line : Bytes) (filled : line ≠ []) (free : 10 ∉ line) :
    linesWithFeed line = [line] := by
  induction line with
  | nil => exact absurd rfl filled
  | cons byte line ih =>
    rw [List.mem_cons, not_or] at free
    rw [linesWithFeed, if_neg fun same => free.1 same.symm]
    cases line with
    | nil => rfl
    | cons next line => rw [ih (by simp) free.2]

theorem lines_of_proper (proper : ProperLines lines) : linesWithFeed lines.flatten = lines := by
  induction lines with
  | nil => rfl
  | cons line lines ih =>
    cases lines with
    | nil =>
      rw [List.flatten_cons, List.flatten_nil]
      rcases proper.2 with ended | free
      · rw [ended_line_first line [] ended]
        rfl
      · rw [List.append_nil, lines_with_feed_single line proper.1 free]
    | cons next lines => rw [List.flatten_cons, ended_line_first line _ proper.1, ih proper.2]

/-- The lines with CRLF behind the last: its end, or a line of its own behind an ended
one. -/
def endLines : List Bytes → List Bytes
  | [] => []
  | [line] => if 10 ∈ line then [line, [13, 10]] else [line ++ [13, 10]]
  | line :: lines => line :: endLines lines

theorem end_lines_cons (line next : Bytes) (lines : List Bytes) :
    endLines (line :: next :: lines) = line :: endLines (next :: lines) := rfl

theorem end_lines_concat (last : Bytes) :
    endLines (lines ++ [last]) = lines ++ endLines [last] := by
  induction lines with
  | nil => rfl
  | cons line lines ih =>
    cases lines with
    | nil => rfl
    | cons next lines =>
      rw [List.cons_append, List.cons_append, end_lines_cons, ← List.cons_append, ih]
      rfl

theorem lines_of_ended_text (filled : text ≠ []) :
    linesWithFeed (text ++ [13, 10]) = endLines (linesWithFeed text) := by
  have whole := lines_with_feed_flatten text
  have proper := lines_with_feed_proper text
  generalize linesWithFeed text = lines at whole proper
  rw [← whole]
  have some : lines ≠ [] := by
    rintro rfl
    exact filled whole.symm
  clear whole filled
  induction lines with
  | nil => exact absurd rfl some
  | cons line lines ih =>
    cases lines with
    | nil =>
      rw [List.flatten_cons, List.flatten_nil, List.append_nil, endLines]
      rcases proper.2 with ended | free
      · have inside : 10 ∈ line := by
          obtain ⟨content, rfl, -⟩ := ended
          simp
        rw [if_pos inside, ended_line_first line _ ended]
        rfl
      · have next := lines_with_feed_line (line ++ [13]) [] (by simp [free])
        rw [if_neg free]
        simpa [linesWithFeed] using next
    | cons next lines =>
      rw [List.flatten_cons, List.append_assoc, ended_line_first line _ proper.1, ih proper.2 (by simp)]
      rfl

theorem end_lines_ended (proper : ProperLines lines) : ∀ line ∈ endLines lines, EndedLine line := by
  induction lines with
  | nil => simp [endLines]
  | cons line lines ih =>
    cases lines with
    | nil =>
      rw [endLines]
      rcases proper.2 with ended | free
      · have inside : 10 ∈ line := by
          obtain ⟨content, rfl, -⟩ := ended
          simp
        rw [if_pos inside]
        intro other member
        simp only [List.mem_cons, List.not_mem_nil, or_false] at member
        rcases member with rfl | rfl
        · exact ended
        · exact ⟨[13], rfl, by decide⟩
      · rw [if_neg free]
        intro other member
        rw [List.mem_singleton] at member
        exact ⟨line ++ [13], by rw [member, List.append_assoc]; rfl, by simp [free]⟩
    | cons next lines =>
      rw [end_lines_cons]
      intro other member
      rcases List.mem_cons.mp member with rfl | later
      · exact proper.1
      · exact ih proper.2 other later

end

theorem lines_with_feed_append (front rest : Bytes) :
    linesWithFeed (front ++ [10] ++ rest) = linesWithFeed (front ++ [10]) ++ linesWithFeed rest := by
  induction front with
  | nil => rfl
  | cons byte front ih =>
    rw [List.cons_append, List.cons_append, linesWithFeed, ih, linesWithFeed]
    by_cases feed : byte = 10
    · rw [if_pos feed, if_pos feed]
      rfl
    · rw [if_neg feed, if_neg feed]
      cases read : linesWithFeed (front ++ [10]) with
      | nil =>
        have whole := lines_with_feed_flatten (front ++ [10])
        rw [read] at whole
        simp at whole
      | cons line lines => rfl

theorem gather_fields_cons (line : Bytes) (lines : List Bytes) :
    gatherFields (line :: lines) =
      (line :: lines.takeWhile startsBlank) :: gatherFields (lines.dropWhile startsBlank) := by
  induction lines generalizing line with
  | nil => rfl
  | cons next lines ih =>
    rw [gatherFields, ih next]
    dsimp only
    by_cases blank : startsBlank next = true
    · rw [if_pos blank, List.takeWhile_cons_of_pos blank, List.dropWhile_cons_of_pos blank]
    · rw [if_neg blank, List.takeWhile_cons_of_neg blank, List.dropWhile_cons_of_neg blank, ih next]

theorem gather_fields_flatten (lines : List Bytes) : (gatherFields lines).flatten = lines := by
  induction lines with
  | nil => rfl
  | cons line lines ih =>
    rw [gatherFields]
    split
    case h_1 next more fields gathered =>
      rw [gathered, List.flatten_cons] at ih
      split
      · rw [List.flatten_cons, List.cons_append, ih]
      · rw [List.flatten_cons, List.flatten_cons, ih, List.singleton_append]
    case h_2 => rw [List.flatten_cons, ih, List.singleton_append]

def IsWholeField (field : List Bytes) : Prop :=
  ∃ first more, field = first :: more ∧ startsBlank first = false ∧
    ∀ line ∈ more, startsBlank line = true

theorem gather_fields_join (front lines : List Bytes)
    (begins : ∀ line, lines.head? = some line → startsBlank line = false) :
    gatherFields (front ++ lines) = gatherFields front ++ gatherFields lines := by
  induction front with
  | nil => rfl
  | cons line front ih =>
    rw [List.cons_append, gatherFields, ih, gatherFields]
    cases front with
    | nil =>
      cases lines with
      | nil => rfl
      | cons next lines =>
        rw [show gatherFields ([] : List Bytes) = [] from rfl, List.nil_append, gather_fields_cons]
        dsimp only
        rw [if_neg (by rw [begins next rfl]; exact Bool.false_ne_true)]
        rfl
    | cons next front =>
      rw [gather_fields_cons]
      dsimp only [List.cons_append]
      split
      · rfl
      · rfl

theorem whole_fields_begin (fields : List (List Bytes)) (whole : ∀ field ∈ fields, IsWholeField field) :
    ∀ line, fields.flatten.head? = some line → startsBlank line = false := by
  intro line leads
  cases fields with
  | nil => cases leads
  | cons next fields =>
    obtain ⟨first, more, rfl, begins, -⟩ := whole next List.mem_cons_self
    cases leads
    exact begins

theorem gather_fields_of_whole (fields : List (List Bytes))
    (whole : ∀ field ∈ fields, IsWholeField field) :
    gatherFields fields.flatten = fields := by
  induction fields with
  | nil => rfl
  | cons field fields ih =>
    have later := fun other member => whole other (List.mem_cons_of_mem field member)
    have single : gatherFields field = [field] := by
      obtain ⟨first, more, rfl, -, blanks⟩ := whole field List.mem_cons_self
      rw [gather_fields_cons, List.takeWhile_eq_self_iff.mpr blanks,
        List.dropWhile_eq_nil_iff.mpr blanks]
      rfl
    rw [List.flatten_cons, gather_fields_join field _ (whole_fields_begin fields later),
      ih later, single]
    rfl

theorem gather_fields_whole (lines : List Bytes)
    (begins : ∀ line, lines.head? = some line → startsBlank line = false) :
    ∀ field ∈ gatherFields lines, IsWholeField field := by
  generalize size : lines.length = count
  induction count using Nat.strong_induction_on generalizing lines with
  | _ count ih =>
    cases lines with
    | nil => simp [gatherFields]
    | cons line lines =>
      rw [gather_fields_cons]
      intro field member
      rcases List.mem_cons.mp member with rfl | later
      · exact ⟨line, _, rfl, begins line rfl, fun other among => List.mem_takeWhile_imp among⟩
      · have shorter := (List.dropWhile_sublist (p := startsBlank) (l := lines)).length_le
        refine ih (lines.dropWhile startsBlank).length ?_ _ ?_ rfl field later
        · rw [← size, List.length_cons]
          omega
        · intro other leads
          have stops := List.head?_dropWhile_not startsBlank lines
          rw [leads] at stops
          simpa using stops

section Passes

variable (named : Bytes → Bool)

/-- A field is named by its first line, unless that starts with white space. -/
def fieldNamed (field : List Bytes) : Bool :=
  match field with
  | line :: _ => !startsBlank line && named line
  | [] => false

/-- The lines that a pass leaves over which skips named lines and what continues them. -/
def stripLines : Bool → List Bytes → List Bytes
  | _, [] => []
  | skipping, line :: lines =>
    if startsBlank line then if skipping then stripLines skipping lines
      else line :: stripLines skipping lines
    else if named line then stripLines true lines
    else line :: stripLines false lines

/-- Whether such a pass skips the line, and with it what continues it. -/
def skipsNext (skipping : Bool)
    (line : Bytes) : Bool := if startsBlank line then skipping else named line

def skipsLast : Bool → List Bytes → Bool
  | skipping, [] => skipping
  | skipping, line :: lines => skipsLast (skipsNext named skipping line) lines

theorem strip_lines_cons (skipping : Bool) (line : Bytes) (lines : List Bytes) :
    stripLines named skipping (line :: lines) =
      (if skipsNext named skipping line then [] else [line]) ++
        stripLines named (skipsNext named skipping line) lines := by
  rw [stripLines, skipsNext]
  by_cases blank : startsBlank line = true
  · rw [if_pos blank, if_pos blank]
    cases skipping <;> rfl
  · rw [if_neg blank, if_neg blank]
    cases named line <;> rfl

theorem strip_lines_append (skipping : Bool) (front lines : List Bytes) :
    stripLines named skipping (front ++ lines) =
      stripLines named skipping front ++ stripLines named (skipsLast named skipping front) lines := by
  induction front generalizing skipping with
  | nil => rfl
  | cons line front ih =>
    rw [List.cons_append, strip_lines_cons, ih, strip_lines_cons, skipsLast, List.append_assoc]

theorem strip_lines_subset (skipping : Bool) (lines : List Bytes) :
    ∀ line ∈ stripLines named skipping lines, line ∈ lines := by
  induction lines generalizing skipping with
  | nil => simp [stripLines]
  | cons first lines ih =>
    intro line member
    rw [strip_lines_cons, List.mem_append] at member
    rcases member with own | later
    · split at own
      · cases own
      · rw [List.mem_singleton] at own
        rw [own]
        exact List.mem_cons_self
    · exact List.mem_cons_of_mem _ (ih _ line later)

theorem strip_lines_fields (skipping : Bool) (lines : List Bytes) :
    stripLines named skipping lines =
      (if skipping then [] else lines.takeWhile startsBlank) ++
        ((gatherFields (lines.dropWhile startsBlank)).filter fun field =>
          !fieldNamed named field).flatten := by
  induction lines generalizing skipping with
  | nil => cases skipping <;> rfl
  | cons line lines ih =>
    rw [stripLines]
    by_cases blank : startsBlank line = true
    · rw [if_pos blank, ih, List.takeWhile_cons_of_pos blank, List.dropWhile_cons_of_pos blank]
      cases skipping <;> simp
    · rw [if_neg blank, List.takeWhile_cons_of_neg blank, List.dropWhile_cons_of_neg blank,
        gather_fields_cons,
        ih, ih]
      by_cases same : named line = true
      · rw [if_pos same, List.filter_cons_of_neg (by simp [fieldNamed, blank, same])]
        simp
      · rw [if_neg same, List.filter_cons_of_pos (by simp [fieldNamed, same])]
        simp

theorem strip_lines_top (lines : List Bytes) :
    stripLines named false lines = ((gatherFields lines).filter fun field =>
      !fieldNamed named field).flatten := by
  rw [strip_lines_fields]
  cases lines with
  | nil => rfl
  | cons line lines =>
    by_cases blank : startsBlank line = true
    · rw [gather_fields_cons, List.takeWhile_cons_of_pos blank, List.dropWhile_cons_of_pos blank,
        List.filter_cons_of_pos (by simp [fieldNamed, blank])]
      simp
    · rw [List.takeWhile_cons_of_neg blank, List.dropWhile_cons_of_neg blank]
      simp

end Passes

end Herold.Mail

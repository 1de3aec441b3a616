import Herold.Send.Message

/-!
# The header as a reader sees it

A strict RFC 5322 reader: lines end in CRLF and hold no CR or LF of their own, a
line that starts with white space continues the one before it, and the header
ends at the first empty line. Written entries read back as themselves exactly
when their names are field names and their values stay on one line.
-/

namespace Herold.Send

open Herold.Go

def isBreakless (text : Bytes) : Bool := text.all fun byte => byte != 13 && byte != 10

def isFieldChar (byte : UInt8) : Bool := 33 ≤ byte && byte ≤ 126 && byte != 58

def isFieldName (name : Bytes) : Bool := !name.isEmpty && name.all isFieldChar

/-- The lines up to the first empty one, and what stands behind it. -/
def readLines : Bytes → Bytes → Option (List Bytes × Bytes)
  | line, 13 :: 10 :: rest =>
    if line = [] then some ([], rest)
    else (readLines [] rest).map fun (lines, body) => (line :: lines, body)
  | line, byte :: rest =>
    if byte = 13 || byte = 10 then none else readLines (line ++ [byte]) rest
  | _, [] => none

def continues (line : Bytes) : Bool := line.head?.any fun byte => byte = 32 || byte = 9

def unfoldLines : List Bytes → List Bytes
  | [] => []
  | line :: rest =>
    match unfoldLines rest with
    | [] => [line]
    | next :: more => if continues next then (line ++ next) :: more else line :: next :: more

/-- The name before the first colon and the value behind it, less the space the
writer puts there. -/
def readField (line : Bytes) : Option (Bytes × Bytes) :=
  match cutFirstByte 58 line with
  | some (name, value) => if isFieldName name then some (name, trimPrefix value [32]) else none
  | none => none

def readMessage (text : Bytes) : Option (List (Bytes × Bytes) × Bytes) :=
  match readLines [] text with
  | some (lines, body) => ((unfoldLines lines).mapM readField).map fun fields => (fields, body)
  | none => none

def isCleanField (field : Bytes × Bytes) : Bool := isFieldName field.1 && isBreakless field.2

@[simp] theorem breakless_append (left right : Bytes) :
    isBreakless (left ++ right) = (isBreakless left && isBreakless right) := by
  simp [isBreakless]

theorem breakless_iff (text : Bytes) : isBreakless text = true ↔ 13 ∉ text ∧ 10 ∉ text := by
  simp only [isBreakless, List.all_eq_true, Bool.and_eq_true, bne_iff_ne, ne_eq]
  constructor
  · intro each
    exact ⟨fun inside => (each 13 inside).1 rfl, fun inside => (each 10 inside).2 rfl⟩
  · rintro ⟨noReturn, noFeed⟩ byte inside
    exact ⟨fun same => noReturn (same ▸ inside), fun same => noFeed (same ▸ inside)⟩

theorem breakless_of_subset (text larger : Bytes) (inside : ∀ byte ∈ text, byte ∈ larger)
    (clean : isBreakless larger = true) : isBreakless text = true := by
  rw [breakless_iff] at clean ⊢
  exact ⟨fun member => clean.1 (inside 13 member), fun member => clean.2 (inside 10 member)⟩

theorem field_name_breakless (name : Bytes) (named : isFieldName name = true) :
    isBreakless name = true := by
  simp only [isFieldName, Bool.and_eq_true, List.all_eq_true] at named
  rw [breakless_iff]
  constructor
  · intro inside
    exact absurd (named.2 13 inside) (by decide)
  · intro inside
    exact absurd (named.2 10 inside) (by decide)

theorem read_lines_line (text : Bytes) (clean : isBreakless text = true) (line rest : Bytes)
    (nonempty : line ++ text ≠ []) :
    readLines line (text ++ (crlf ++ rest)) =
      (readLines [] rest).map fun (lines, body) => ((line ++ text) :: lines, body) := by
  induction text generalizing line with
  | nil =>
    rw [List.append_nil] at nonempty ⊢
    rw [List.nil_append, crlf, List.cons_append, List.singleton_append, readLines, if_neg nonempty]
  | cons byte text ih =>
    simp only [isBreakless, List.all_cons, Bool.and_eq_true, bne_iff_ne, ne_eq] at clean
    obtain ⟨⟨noReturn, noFeed⟩, later⟩ := clean
    rw [List.cons_append, readLines]
    · rw [if_neg (by simp [noReturn, noFeed]), ih later (line ++ [byte]) (by simp)]
      simp
    · intro after same _
      exact noReturn same

section

variable (lines : List Bytes) (field : Bytes × Bytes) (fields : List (Bytes × Bytes))

theorem read_lines_written (body : Bytes)
    (clean : ∀ line ∈ lines, line ≠ [] ∧ isBreakless line = true) :
    readLines [] ((lines.flatMap fun line => line ++ crlf) ++ (crlf ++ body)) = some (lines, body) := by
  induction lines with
  | nil => simp [readLines, crlf]
  | cons line lines ih =>
    obtain ⟨nonempty, breakless⟩ := clean line (List.mem_cons_self ..)
    have later := ih fun other member => clean other (List.mem_cons_of_mem _ member)
    rw [List.flatMap_cons, List.append_assoc, List.append_assoc,
      read_lines_line line breakless [] _ nonempty, later]
    rfl

theorem unfold_plain_lines (plain : ∀ line ∈ lines, continues line = false) :
    unfoldLines lines = lines := by
  induction lines with
  | nil => rfl
  | cons line lines ih =>
    have later := ih fun other member => plain other (List.mem_cons_of_mem _ member)
    rw [unfoldLines, later]
    cases lines with
    | nil => rfl
    | cons next more =>
      have starts := plain next (by simp)
      simp [starts]

theorem field_name_colon (name : Bytes) (named : isFieldName name = true) : 58 ∉ name := by
  simp only [isFieldName, Bool.and_eq_true, List.all_eq_true] at named
  intro inside
  exact absurd (named.2 58 inside) (by decide)

theorem read_field_written (named : isFieldName field.1 = true) :
    readField (headerLine field) = some field := by
  have cutAt : cutFirstByte 58 (headerLine field) = some (field.1, 32 :: field.2) := by
    have line : headerLine field = field.1 ++ 58 :: (32 :: field.2) := by
      simp [headerLine, ascii]
    rw [line]
    exact cut_first_byte_append 58 field.1 _ (field_name_colon _ named)
  rw [readField, cutAt]
  simp [named, trimPrefix, hasPrefix]

theorem header_line_plain (named : isFieldName field.1 = true) :
    continues (headerLine field) = false := by
  unfold isFieldName at named
  obtain ⟨name, value⟩ := field
  cases name with
  | nil => cases named
  | cons first rest =>
    simp only [List.all_cons, Bool.and_eq_true] at named
    have char := named.2.1
    have noSpace : first ≠ 32 := by
      rintro rfl
      exact absurd char (by decide)
    have noTab : first ≠ 9 := by
      rintro rfl
      exact absurd char (by decide)
    simp [continues, headerLine, noSpace, noTab]

theorem header_line_breakless (clean : isCleanField field = true) :
    isBreakless (headerLine field) = true := by
  simp only [isCleanField, Bool.and_eq_true] at clean
  rw [headerLine, breakless_append, breakless_append, field_name_breakless _ clean.1, clean.2]
  rfl

theorem header_line_nonempty : headerLine field ≠ [] := by
  simp [headerLine, ascii]

theorem read_lines_breakless (text line : Bytes) (lines : List Bytes) (body : Bytes)
    (started : isBreakless line = true) (read : readLines line text = some (lines, body)) :
    ∀ line ∈ lines, isBreakless line = true := by
  fun_induction readLines line text generalizing lines with
  | case1 rest =>
    cases read
    simp
  | case2 line rest nonempty ih =>
    obtain ⟨⟨later, _⟩, readLater, same⟩ := Option.map_eq_some_iff.mp read
    cases same
    intro other member
    rcases List.mem_cons.mp member with rfl | below
    · exact started
    · exact ih later rfl readLater other below
  | case3 => cases read
  | case4 line byte rest _ unbroken ih =>
    apply ih lines _ read
    simp only [Bool.or_eq_true, decide_eq_true_eq, not_or] at unbroken
    rw [breakless_append, started]
    simp [isBreakless, unbroken.1, unbroken.2]
  | case5 => cases read

theorem unfold_breakless (clean : ∀ line ∈ lines, isBreakless line = true) :
    ∀ line ∈ unfoldLines lines, isBreakless line = true := by
  induction lines with
  | nil => simp [unfoldLines]
  | cons line lines ih =>
    have first := clean line (List.mem_cons_self ..)
    have later := ih fun other member => clean other (List.mem_cons_of_mem _ member)
    rw [unfoldLines]
    cases unfolded : unfoldLines lines with
    | nil => simpa using first
    | cons next more =>
      rw [unfolded] at later
      simp only [List.forall_mem_cons] at later
      dsimp only
      split
      · simp only [List.forall_mem_cons, breakless_append, first, later.1, Bool.and_self, true_and]
        exact later.2
      · simp only [List.forall_mem_cons]
        exact ⟨first, later⟩

theorem read_field_clean (line : Bytes) (field : Bytes × Bytes) (read : readField line = some field)
    (clean : isBreakless line = true) : isCleanField field = true := by
  unfold readField at read
  split at read
  case h_1 name value found =>
    split at read
    case isTrue named =>
      cases read
      have split := (cut_first_byte_splits 58 line name value found).1
      have inside : isBreakless value = true := by
        refine breakless_of_subset value line ?_ clean
        intro byte member
        rw [split]
        simp [member]
      have trimmed : isBreakless (trimPrefix value [32]) = true := by
        refine breakless_of_subset _ value ?_ inside
        intro byte member
        unfold trimPrefix at member
        split at member
        · exact List.mem_of_mem_drop member
        · exact member
      simp [isCleanField, named, trimmed]
    case isFalse => cases read
  case h_2 => cases read

theorem field_has_line (mapped : lines.mapM readField = some fields) :
    ∀ field ∈ fields, ∃ line ∈ lines, readField line = some field := by
  induction lines generalizing fields with
  | nil =>
    cases mapped
    simp
  | cons line lines ih =>
    rw [List.mapM_cons] at mapped
    obtain ⟨first, read, rest⟩ := Option.bind_eq_some_iff.mp mapped
    obtain ⟨others, mappedOthers, same⟩ := Option.bind_eq_some_iff.mp rest
    cases same
    intro field member
    rcases List.mem_cons.mp member with rfl | later
    · exact ⟨line, List.mem_cons_self .., read⟩
    · obtain ⟨source, inside, readSource⟩ := ih others mappedOthers field later
      exact ⟨source, List.mem_cons_of_mem _ inside, readSource⟩

/-- Whatever a message reads as, its names are field names and its values stay
on one line. -/
theorem read_message_clean (text body : Bytes) (fields : List (Bytes × Bytes))
    (read : readMessage text = some (fields, body)) : ∀ field ∈ fields, isCleanField field = true := by
  unfold readMessage at read
  split at read
  case h_1 lines rest readAs =>
    obtain ⟨found, mapped, same⟩ := Option.map_eq_some_iff.mp read
    cases same
    have clean := unfold_breakless lines (read_lines_breakless text [] lines _ rfl readAs)
    intro field member
    obtain ⟨line, inside, readLine⟩ := field_has_line _ _ mapped field member
    exact read_field_clean line field readLine (clean line inside)
  case h_2 => cases read

theorem map_read_field (clean : ∀ field ∈ fields, isCleanField field = true) :
    (fields.map headerLine).mapM readField = some fields := by
  induction fields with
  | nil => rfl
  | cons field fields ih =>
    have first := clean field (List.mem_cons_self ..)
    simp only [isCleanField, Bool.and_eq_true] at first
    have later := ih fun other member => clean other (List.mem_cons_of_mem _ member)
    simp [read_field_written field first.1, later]

/-- The entries written before an empty line are what the reader finds exactly
when each of them is clean. -/
theorem read_written_iff (body : Bytes) :
    readMessage ((fields.flatMap fun field => headerLine field ++ crlf) ++ (crlf ++ body)) =
        some (fields, body) ↔
      ∀ field ∈ fields, isCleanField field = true := by
  constructor
  · exact read_message_clean _ body fields
  · intro clean
    have named : ∀ field ∈ fields, isFieldName field.1 = true := by
      intro field member
      have both := clean field member
      rw [isCleanField, Bool.and_eq_true] at both
      exact both.1
    have lines : readLines []
      ((fields.flatMap fun field => headerLine field ++ crlf) ++ (crlf ++ body)) =
        some (fields.map headerLine, body) := by
      rw [← read_lines_written (fields.map headerLine) body, List.flatMap_map]
      intro line member
      obtain ⟨field, inside, rfl⟩ := List.mem_map.mp member
      exact ⟨header_line_nonempty field, header_line_breakless field (clean field inside)⟩
    have plain : unfoldLines (fields.map headerLine) = fields.map headerLine := by
      apply unfold_plain_lines
      intro line member
      obtain ⟨field, inside, rfl⟩ := List.mem_map.mp member
      exact header_line_plain field (named field inside)
    rw [readMessage, lines]
    simp only [plain, map_read_field fields clean, Option.map_some]

end

end Herold.Send

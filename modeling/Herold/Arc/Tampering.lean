import Herold.Arc.Lines

/-!
# What a body hash covers

RFC 6376 lets a body change in its blanks and in the empty lines at its end. The streaming
form loses more: it strips every carriage return before a line feed, so that a return can be
added to any body behind the hash. Both forms also read the lines rune by rune and write
back the replacement rune for a byte that is none.
-/

namespace Herold.Arc

open Herold.Go

/-- A run of spaces and tabs becomes one space; the flag says that a blank stands before. -/
def reduceBlanks : Bool → Bytes → Bytes
  | _, [] => []
  | after, byte :: rest =>
    if isBlankByte byte then
      if after then reduceBlanks true rest else 32 :: reduceBlanks true rest
    else byte :: reduceBlanks false rest

/-- The lines of the relaxed form of RFC 6376, octet by octet. A line feed on its own ends a
line as well, as it does for the sealer. -/
def standardLines (body : Bytes) : List Bytes :=
  dropTrailing List.isEmpty ((keptLines (dropCarriage body)).map fun line =>
    reduceBlanks false (dropTrailing isBlankByte (trimSuffix line [10])))

/-- No other body has the canonical form of this one, but for what RFC 6376 leaves open. -/
def DetectsTampering (canonicalise : Bytes → Bytes) (body : Bytes) : Prop :=
  ∀ other, canonicalise other = canonicalise body → standardLines other = standardLines body

def returns : Bytes := [13, 13, 10]

theorem kept_lines_returns (body : Bytes) :
    keptLines (body ++ returns) = keptLines body ++ [returns] ∨
      ∃ before last, keptLines body = before ++ [last] ∧
        keptLines (body ++ returns) = before ++ [last ++ returns] := by
  induction body with
  | nil => exact Or.inl rfl
  | cons byte rest ih =>
    rw [List.cons_append, keptLines, keptLines]
    by_cases feed : byte = 10
    · rw [if_pos feed, if_pos feed]
      rcases ih with more | ⟨before, last, kept, more⟩
      · exact Or.inl (by rw [more, List.cons_append])
      · exact Or.inr ⟨[10] :: before,
          last, by rw [kept, List.cons_append], by rw [more, List.cons_append]⟩
    · rw [if_neg feed, if_neg feed]
      rcases ih with more | ⟨before, last, kept, more⟩
      · rw [more]
        cases keptLines rest with
        | nil => exact Or.inr ⟨[], [byte], rfl, rfl⟩
        | cons line lines => exact Or.inl rfl
      · rw [more, kept]
        cases before with
        | nil => exact Or.inr ⟨[], byte :: last, rfl, rfl⟩
        | cons line lines => exact Or.inr ⟨(byte :: line) :: lines, last, rfl, rfl⟩

theorem stream_returns (body : Bytes) :
    canonicaliseBodyRelaxedStream (body ++ returns) = canonicaliseBodyRelaxedStream body := by
  have trimmed : ∀ line, trimBreaks (line ++ returns) = trimBreaks line := by
    intro line
    simp [trimBreaks, dropTrailing, returns, isLineBreak]
  unfold canonicaliseBodyRelaxedStream
  rw [canonical_lines_stream, canonical_lines_stream]
  rcases kept_lines_returns body with more | ⟨before, last, kept, more⟩
  · have blank : canonicalBodyLine (trimBreaks returns) = [] := by decide
    rw [more, List.map_append, List.map_singleton, blank]
    simp [dropTrailing]
  · rw [more, kept, List.map_append, List.map_append, List.map_singleton, List.map_singleton, trimmed]

theorem count_reduced (after : Bool) (line : Bytes) :
    (reduceBlanks after line).count 13 = line.count 13 := by
  induction line generalizing after with
  | nil => rfl
  | cons byte rest ih =>
    rw [reduceBlanks]
    by_cases blank : isBlankByte byte = true
    · have other : byte ≠ 13 := by
        rintro rfl
        cases blank
      rw [if_pos blank, List.count_cons_of_ne other]
      cases after with
      | true => exact ih true
      | false => exact (List.count_cons_of_ne (by decide)).trans (ih true)
    · rw [if_neg blank, List.count_cons, List.count_cons, ih]

theorem count_line (line : Bytes) :
    (reduceBlanks false (dropTrailing isBlankByte (trimSuffix line [10]))).count 13 =
      line.count 13 := by
  have blanks : ∀ text : Bytes, (dropTrailing isBlankByte text).count 13 = text.count 13 := by
    intro text
    obtain ⟨tail, whole, blank⟩ := drop_trailing_split isBlankByte text
    have none_ : tail.count 13 = 0 := List.count_eq_zero.mpr fun inside => by cases blank 13 inside
    conv => rhs; rw [whole, List.count_append, none_, Nat.add_zero]
  rw [count_reduced, blanks, trimSuffix]
  split
  case isTrue ends =>
    obtain ⟨core, rfl⟩ := List.isSuffixOf_iff_suffix.mp ends
    simp
  · rfl

theorem count_standard (body : Bytes) :
    (standardLines body).flatten.count 13 = (dropCarriage body).count 13 := by
  obtain ⟨tail, whole, empty⟩ :=
    drop_trailing_split List.isEmpty ((keptLines (dropCarriage body)).map fun line =>
    reduceBlanks false (dropTrailing isBlankByte (trimSuffix line [10])))
  have nothing : tail.flatten = [] := List.flatten_eq_nil_iff.mpr fun line member =>
    List.isEmpty_iff.mp (empty line member)
  have all := congrArg (fun lines => lines.flatten.count 13) whole
  simp only [List.flatten_append, nothing, List.append_nil, List.count_flatten, List.map_map] at all
  rw [standardLines, List.count_flatten, ← all, ← kept_lines_flatten (dropCarriage body),
    List.count_flatten,
    kept_lines_flatten]
  exact congrArg _ (List.map_congr_left fun line _ => count_line line)

/-- Every body can be changed behind the hash of the streaming form. -/
theorem body_tampering_undetected (body : Bytes) :
    ¬(DetectsTampering canonicaliseBodyRelaxed body ∧
      DetectsTampering canonicaliseBodyRelaxedStream body) := by
  rintro ⟨_, detects⟩
  have same := detects (body ++ returns) (stream_returns body)
  have counts := count_standard (body ++ returns)
  rw [same, count_standard, returns, drop_carriage_append, List.count_append] at counts
  have one : (dropCarriage [13, 13, 10]).count 13 = 1 := by decide
  omega

theorem invalid_byte_undetected :
    canonicaliseBodyRelaxed [0xFF] = canonicaliseBodyRelaxed [0xFE] ∧
      canonicaliseBodyRelaxedStream [0xFF] = canonicaliseBodyRelaxedStream [0xFE] ∧
        standardLines [0xFF] ≠ standardLines [0xFE] := by
  refine ⟨by decide +kernel, by decide +kernel, by decide +kernel⟩

end Herold.Arc

import Herold.Go.Base64
import Herold.Go.Strings

/-!
# Canonical bodies

The sealer canonicalises a body as a whole, the verifier line by line as it reads it.
-/

namespace Herold.Arc

open Herold.Go

def isWSP (rune : Rune) : Bool := rune = 32 || rune = 9

/-- A run of the runes at hand becomes one space; the others are written again. -/
def collapse (blank : Rune → Bool) : Bool → List (Rune × Bytes) → Bytes
  | _, [] => []
  | previous, rune :: rest =>
    if blank rune.1 then
      if previous then collapse blank true rest else 32 :: collapse blank true rest
    else encodeRune rune.1 ++ collapse blank false rest

def collapseWSP (text : Bytes) : Bytes := collapse isWSP false (runes text)

def isBlankByte (byte : UInt8) : Bool := byte = 32 || byte = 9

/-- `strings.TrimRight` of CR and LF. -/
def trimBreaks (text : Bytes) : Bytes := dropTrailing isLineBreak text

/-- `strings.ReplaceAll` of CRLF by LF. -/
def dropCarriage : Bytes → Bytes
  | 13 :: 10 :: rest => 10 :: dropCarriage rest
  | byte :: rest => byte :: dropCarriage rest
  | [] => []

def keptLines : Bytes → List Bytes
  | [] => []
  | byte :: rest =>
    if byte = 10 then [10] :: keptLines rest
    else match keptLines rest with
      | [] => [[byte]]
      | line :: lines => (byte :: line) :: lines

/-- The canonical form of the lines, with the empty ones that wait for one that is not. -/
def canonicalLines : Nat → List Bytes → Bytes
  | _, [] => []
  | pending, line :: rest =>
    let canonical := collapseWSP (dropTrailing isBlankByte (trimBreaks line))
    if canonical = [] then canonicalLines (pending + 1) rest
    else (List.replicate pending [13, 10]).flatten ++ canonical ++ [13, 10] ++ canonicalLines 0 rest

def canonicaliseBodyRelaxedStream (body : Bytes) : Bytes := canonicalLines 0 (keptLines body)

def canonicalBodyLine (line : Bytes) : Bytes := collapseWSP (dropTrailing isBlankByte line)

def canonicaliseBodyRelaxed (body : Bytes) : Bytes :=
  ((dropTrailing List.isEmpty ((splitByte 10 (dropCarriage body)).map canonicalBodyLine)).map
    (· ++ [13, 10])).flatten

theorem kept_lines_flatten (text : Bytes) : (keptLines text).flatten = text := by
  induction text with
  | nil => rfl
  | cons byte rest ih =>
    rw [keptLines]
    split
    · rename_i feed
      simp [feed, ih]
    · cases kept : keptLines rest with
      | nil =>
        rw [kept] at ih
        simp only [← ih]
        rfl
      | cons line lines =>
        rw [kept] at ih
        simp [← ih]

theorem drop_carriage_append (text tail : Bytes) :
    dropCarriage (text ++ 13 :: tail) = dropCarriage text ++ dropCarriage (13 :: tail) := by
  fun_induction dropCarriage text with
  | case1 rest ih =>
    rw [List.cons_append, List.cons_append, dropCarriage, ih]
    rfl
  | case2 byte rest other ih =>
    rw [List.cons_append, dropCarriage, ih]
    · rfl
    · intro tail isReturn isFeed
      cases rest with
      | nil => cases isFeed
      | cons next rest =>
        obtain ⟨rfl, _⟩ := List.cons.inj isFeed
        exact other rest isReturn rfl
  | case3 => rfl

theorem canonical_lines_stream (pending : Nat) (lines : List Bytes) :
    canonicalLines pending lines =
      ((dropTrailing List.isEmpty (List.replicate pending [] ++
        lines.map fun line => canonicalBodyLine (trimBreaks line))).map (· ++ [13, 10])).flatten := by
  induction lines generalizing pending with
  | nil =>
    have blank : dropTrailing List.isEmpty (List.replicate pending ([] : Bytes)) = [] := by
      simp [dropTrailing]
    simp [canonicalLines, blank]
  | cons line lines ih =>
    rw [canonicalLines]
    simp only [List.map_cons]
    change (if canonicalBodyLine (trimBreaks line) = [] then _ else _) = _
    split
    · rename_i empty
      rw [ih, empty]
      have moved : List.replicate (pending + 1) ([] : Bytes) ++
          lines.map (fun line => canonicalBodyLine (trimBreaks line)) =
          List.replicate pending [] ++ [] :: lines.map fun line =>
            canonicalBodyLine (trimBreaks line) := by
        simp [List.replicate_succ']
      rw [moved]
    · rename_i full
      have kept : (canonicalBodyLine (trimBreaks line)).isEmpty = false := by simpa using full
      rw [drop_trailing_stops _ _ _ _ kept, ih 0]
      simp [canonicalBodyLine]

end Herold.Arc

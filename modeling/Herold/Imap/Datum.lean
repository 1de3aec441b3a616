import Herold.Go.Json

/-!
# Parenthesised data as a client reads them

RFC 9051 sends envelopes and body structures as lists of strings, numbers, NIL and
further lists. The reader takes quoted strings and literals octet by octet; the only
lists that may follow one another without a space are those that stand side by side
in a list, as the parts of a multipart do.
-/

namespace Herold.Imap

open Herold.Go Herold.Go.Json

inductive Datum where
  | nil
  | number (value : Nat)
  | string (value : Bytes)
  | list (items : List Datum)

def readQuotedText : Bytes → Option (Bytes × Bytes)
  | [] => none
  | [byte] => if byte = 34 then some ([], []) else none
  | byte :: next :: rest =>
    if byte = 34 then some ([], next :: rest)
    else if byte = 92 then
      if next = 34 ∨ next = 92 then
        (readQuotedText rest).map fun found => (next :: found.1, found.2)
      else none
    else if byte = 0 ∨ byte = 10 ∨ byte = 13 then none
    else (readQuotedText (next :: rest)).map fun found => (byte :: found.1, found.2)

def readCount (input : Bytes) : Option (Nat × Bytes) :=
  let digits := input.takeWhile isDigit
  if digits = [] then none else some (decimalValue digits, input.dropWhile isDigit)

/-- The line break behind the length of a literal, with the closing brace. -/
def literalMark : Bytes := [125, 13, 10]

def readLiteralText (input : Bytes) : Option (Bytes × Bytes) := do
  let (count, rest) ← readCount input
  let data := rest.drop literalMark.length
  if hasPrefix rest literalMark ∧ count ≤ data.length then
    some (data.take count, data.drop count)
  else none

/-- The items of a list behind its first one, up to the closing parenthesis. -/
def readItems (read : Bytes → Option (Datum × Bytes)) : Nat → Bytes → Option (List Datum × Bytes)
  | 0, _ => none
  | _, [] => none
  | rounds + 1, byte :: rest =>
    if byte = 41 then some ([], rest)
    else if byte = 32 ∨ byte = 40 then do
      let (item, later) ← read (if byte = 32 then rest else byte :: rest)
      let (items, left) ← readItems read rounds later
      some (item :: items, left)
    else none

def isNil (input : Bytes) : Bool := (input.take 3).map (· &&& 0xDF) = [78, 73, 76]

/-- One datum, with lists nested at most so deep, and what follows it. -/
def readDatum : Nat → Bytes → Option (Datum × Bytes)
  | 0, _ => none
  | _, [] => none
  | depth + 1, first :: rest =>
    if first = 40 then
      if rest.head? = some 41 then some (.list [], rest.tail)
      else do
        let (item, later) ← readDatum depth rest
        let (items, left) ← readItems (readDatum depth) (later.length + 1) later
        some (.list (item :: items), left)
    else if first = 34 then (readQuotedText rest).map fun found => (.string found.1, found.2)
    else if first = 123 then (readLiteralText rest).map fun found => (.string found.1, found.2)
    else if isDigit first then
      (readCount (first :: rest)).map fun found => (.number found.1, found.2)
    else if isNil (first :: rest) then some (.nil, rest.drop 2)
    else none

/-- A datum at the front of a response; nothing is nested deeper than it is long. -/
def readData (input : Bytes) : Option (Datum × Bytes) := readDatum (input.length + 1) input

def Undigited (rest : Bytes) : Prop := ∀ byte ∈ rest.head?, isDigit byte = false

def Datum.Stops : Datum → Bytes → Prop
  | .number _, rest => Undigited rest
  | _, _ => True

theorem Datum.stops_of_undigited (datum : Datum) {rest : Bytes} (ends : Undigited rest) :
    datum.Stops rest := by
  cases datum with
  | number => exact ends
  | nil | string | list => trivial

def Reads (text : Bytes) (datum : Datum) : Prop :=
  ∀ depth rest, text.length ≤ depth → datum.Stops rest →
    readDatum depth (text ++ rest) = some (datum, rest)

/-- The text ends a list behind its first item and is read as the items. -/
def ReadsTail (text : Bytes) (items : List Datum) : Prop :=
  ∀ depth rounds rest, text.length ≤ depth → text.length ≤ rounds →
    readItems (readDatum depth) rounds (text ++ rest) = some (items, rest)

section

variable {text : Bytes} {texts : List Bytes} {datum : Datum} {items : List Datum}

theorem read_data_of_reads (reads : Reads text datum) (rest : Bytes)
    (ends : datum.Stops rest) : readData (text ++ rest) = some (datum, rest) := by
  apply reads
  · rw [List.length_append]
    omega
  · exact ends

theorem Reads.nonempty (reads : Reads text datum) : text ≠ [] := by
  rintro rfl
  have nothing := reads 1 [] (by simp) (datum.stops_of_undigited (by simp [Undigited]))
  simp [readDatum] at nothing

theorem Reads.opens (reads : Reads text datum) :
    ∃ first rest, text = first :: rest ∧ first ≠ 41 := by
  obtain ⟨first, rest, rfl⟩ := List.exists_cons_of_ne_nil reads.nonempty
  refine ⟨first, rest, rfl, ?_⟩
  rintro rfl
  have read := reads (rest.length + 1) [] (by simp) (datum.stops_of_undigited (by simp [Undigited]))
  have plain : (41 : UInt8) &&& 0xDF ≠ 78 := by decide
  simp [readDatum, isDigit, isNil, plain] at read

theorem ReadsTail.undigited (reads : ReadsTail text items)
    (rest : Bytes) : Undigited (text ++ rest) := by
  have read := reads text.length text.length [] le_rfl le_rfl
  cases text with
  | nil => simp [readItems] at read
  | cons first text =>
    intro byte member
    simp only [List.cons_append, List.head?_cons, Option.mem_some_iff] at member
    subst member
    by_cases close : first = 41
    · subst close
      decide
    · by_cases more : first = 32 ∨ first = 40
      · rcases more with rfl | rfl <;> decide
      · simp [readItems, close, more] at read

theorem reads_nil : Reads [78, 73, 76] .nil := by
  intro depth rest enough _
  obtain ⟨depth, rfl⟩ := Nat.exists_eq_add_of_lt enough
  have marked : isNil (78 :: 73 :: 76 :: rest) = true := by
    rw [isNil]
    rfl
  simp [readDatum, isDigit, marked]

/-- A written number is read back, whatever follows that is no digit. -/
theorem read_count_decimal (value : Nat) (rest : Bytes) (ends : Undigited rest) :
    readCount (decimal value ++ rest) = some (value, rest) := by
  have stops : rest.takeWhile isDigit = [] ∧ rest.dropWhile isDigit = rest := by
    cases rest with
    | nil => simp
    | cons first rest =>
      have plain := ends first (by simp)
      simp [plain]
  have digits := List.all_eq_true.mp (decimal_digits value).2
  unfold readCount
  rw [List.takeWhile_append_of_pos digits, List.dropWhile_append_of_pos digits, stops.1, stops.2]
  simp [(decimal_digits value).1, decimal_value_decimal]

theorem reads_number (value : Nat) : Reads (decimal value) (.number value) := by
  intro depth rest enough ends
  obtain ⟨first, more, written⟩ := List.exists_cons_of_ne_nil (decimal_digits value).1
  have digit : isDigit first = true := by
    apply List.all_eq_true.mp (decimal_digits value).2
    simp [written]
  have counted := read_count_decimal value rest ends
  rw [written] at counted enough ⊢
  obtain ⟨depth, rfl⟩ := Nat.exists_eq_add_of_lt (Nat.lt_of_lt_of_le (Nat.zero_lt_succ _) enough)
  have other : first ≠ 40 ∧ first ≠ 34 ∧ first ≠ 123 := by
    refine ⟨?_, ?_, ?_⟩ <;> rintro rfl <;> revert digit <;> decide
  rw [List.cons_append] at counted ⊢
  simp [readDatum, other, digit, counted]

def escaped (text : Bytes) : Bytes :=
  text.flatMap fun byte => if byte = 34 ∨ byte = 92 then [92, byte] else [byte]

theorem read_quoted_escaped (text rest : Bytes)
    (plain : ∀ byte ∈ text, byte ≠ 0 ∧ byte ≠ 10 ∧ byte ≠ 13) :
    readQuotedText (escaped text ++ 34 :: rest) = some (text, rest) := by
  induction text with
  | nil =>
    cases rest with
    | nil => rfl
    | cons first rest => simp [escaped, readQuotedText]
  | cons first text ih =>
    have later := ih (fun byte member => plain byte (List.mem_cons_of_mem _ member))
    obtain ⟨next, more, tailed⟩ : ∃ next more, escaped text ++ 34 :: rest = next :: more :=
      List.exists_cons_of_ne_nil (by simp)
    have here := plain first (by simp)
    by_cases special : first = 34 ∨ first = 92
    · have marked : escaped (first :: text) ++ 34 :: rest = 92 :: first ::
        (escaped text ++ 34 :: rest) := by
        simp [escaped, special]
      rw [marked, readQuotedText]
      simp [special, later]
    · have kept : escaped (first :: text) ++ 34 :: rest = first :: (escaped text ++ 34 :: rest) := by
        simp [escaped, special]
      rw [kept, tailed, readQuotedText, ← tailed, later]
      rw [not_or] at special
      simp [special, here]

theorem reads_quoted (text : Bytes) (plain : ∀ byte ∈ text, byte ≠ 0 ∧ byte ≠ 10 ∧ byte ≠ 13) :
    Reads (34 :: (escaped text ++ [34])) (.string text) := by
  intro depth rest enough _
  obtain ⟨depth, rfl⟩ := Nat.exists_eq_add_of_lt (Nat.lt_of_lt_of_le (Nat.zero_lt_succ _) enough)
  have read := read_quoted_escaped text rest plain
  simp [readDatum, read]

theorem reads_literal (text : Bytes) :
    Reads (123 :: (decimal text.length ++ literalMark ++ text)) (.string text) := by
  intro depth rest enough _
  obtain ⟨depth, rfl⟩ := Nat.exists_eq_add_of_lt (Nat.lt_of_lt_of_le (Nat.zero_lt_succ _) enough)
  have counted : readCount (decimal text.length ++ (literalMark ++ (text ++ rest))) =
      some (text.length, literalMark ++ (text ++ rest)) := by
    apply read_count_decimal
    intro byte member
    simp only [literalMark, List.cons_append, List.head?_cons, Option.mem_some_iff] at member
    subst member
    decide
  have marked : hasPrefix (literalMark ++ (text ++ rest)) literalMark = true := by
    simp [hasPrefix]
  have read : readLiteralText (decimal text.length ++ (literalMark ++ (text ++ rest))) =
    some (text, rest) := by
    simp [readLiteralText, counted, marked]
  simp [readDatum, read]

theorem tail_closes : ReadsTail [41] [] := by
  intro depth rounds rest _ enough
  obtain ⟨rounds, rfl⟩ := Nat.exists_eq_add_of_lt enough
  simp [readItems]

theorem tail_spaced {text tail : Bytes} {item : Datum} {items : List Datum} (reads : Reads text item)
    (readsTail : ReadsTail tail items) : ReadsTail (32 :: (text ++ tail)) (item :: items) := by
  intro depth rounds rest deep enough
  simp only [List.length_cons, List.length_append] at deep enough
  obtain ⟨rounds, rfl⟩ : ∃ left, rounds = left + 1 := ⟨rounds - 1, by omega⟩
  have first := reads depth (tail ++ rest) (by omega)
    (item.stops_of_undigited (readsTail.undigited rest))
  have later := readsTail depth rounds rest (by omega) (by omega)
  simp [readItems, first, later]

theorem tail_adjacent {text tail : Bytes} {item : Datum} {items : List Datum}
    (reads : Reads (40 :: text) item) (readsTail : ReadsTail tail items) :
    ReadsTail (40 :: (text ++ tail)) (item :: items) := by
  intro depth rounds rest deep enough
  simp only [List.length_cons, List.length_append] at deep enough
  obtain ⟨rounds, rfl⟩ : ∃ left, rounds = left + 1 := ⟨rounds - 1, by omega⟩
  have first := reads depth (tail ++ rest) (by simp; omega)
    (item.stops_of_undigited (readsTail.undigited rest))
  have later := readsTail depth rounds rest (by omega) (by omega)
  rw [List.cons_append] at first
  simp [readItems, first, later]

theorem reads_list {text tail : Bytes} {item : Datum} {items : List Datum} (reads : Reads text item)
    (readsTail : ReadsTail tail items) : Reads (40 :: (text ++ tail)) (.list (item :: items)) := by
  intro depth rest deep _
  simp only [List.length_cons, List.length_append] at deep
  obtain ⟨depth, rfl⟩ : ∃ left, depth = left + 1 := ⟨depth - 1, by omega⟩
  have first := reads depth (tail ++ rest) (by omega)
    (item.stops_of_undigited (readsTail.undigited rest))
  have later := readsTail depth (tail.length + rest.length + 1) rest (by omega) (by omega)
  obtain ⟨byte, more, rfl, opens⟩ := reads.opens
  simp only [List.cons_append, List.append_assoc] at first ⊢
  simp [readDatum, opens, first, later]

theorem Reads.list_opens (reads : Reads text (.list items)) : ∃ rest, text = 40 :: rest := by
  obtain ⟨first, rest, rfl, _⟩ := reads.opens
  refine ⟨rest, ?_⟩
  by_contra other
  have read := reads (rest.length + 1) [] (by simp) trivial
  have first_other : first ≠ 40 := fun same => other (by rw [same])
  simp only [List.append_nil, readDatum, first_other, if_false] at read
  split_ifs at read
  all_goals simp at read

theorem adjacent_reads {lists : List (List Datum)} {tail : Bytes} {items : List Datum}
    (reads : List.Forall₂ (fun text list => Reads text (.list list)) texts lists)
    (readsTail : ReadsTail tail items) :
      ReadsTail (texts.flatten ++ tail) (lists.map .list ++ items) := by
  induction reads with
  | nil => exact readsTail
  | cons first _ ih =>
    obtain ⟨text, rfl⟩ := first.list_opens
    have joined := tail_adjacent first ih
    simpa using joined

def parens (texts : List Bytes) : Bytes := [40] ++ [32].intercalate texts ++ [41]

/-- Texts behind the first item of a list, each with a space before it. -/
def trailing (texts : List Bytes) : Bytes := texts.flatMap (fun text => 32 :: text) ++ [41]

theorem parens_cons (text : Bytes) (texts : List Bytes) :
    parens (text :: texts) = 40 :: (text ++ trailing texts) := by
  have joined : [32].intercalate (text :: texts) = text ++ texts.flatMap fun text => 32 :: text := by
    induction texts generalizing text with
    | nil => simp
    | cons next texts ih =>
      rw [List.intercalate_cons_cons, ih next]
      simp
  rw [parens, joined]
  simp [trailing]

theorem trailing_reads (reads : List.Forall₂ Reads texts items) :
    ReadsTail (trailing texts) items := by
  induction reads with
  | nil => exact tail_closes
  | cons first _ ih =>
    have spaced := tail_spaced first ih
    simpa [trailing] using spaced

theorem parens_reads (reads : List.Forall₂ Reads (text :: texts) items) :
    Reads (parens (text :: texts)) (.list items) := by
  cases reads with
  | cons first later =>
    rw [parens_cons]
    exact reads_list first (trailing_reads later)

theorem adjacent_list_reads {lists : List (List Datum)} {tail : Bytes}
    {items : List Datum} (filled : texts ≠ [])
    (reads : List.Forall₂ (fun text list => Reads text (.list list)) texts lists)
    (readsTail : ReadsTail tail items) :
    Reads (40 :: (texts.flatten ++ tail)) (.list (lists.map .list ++ items)) := by
  cases reads with
  | nil => exact absurd rfl filled
  | cons first later =>
    have whole := reads_list first (adjacent_reads later readsTail)
    simpa using whole

end

end Herold.Imap

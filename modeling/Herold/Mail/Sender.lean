import Herold.Send.Raw

/-!
# The sender that is checked and the sender that is shown

DMARC scans the header for the From field on its own, `mailparse.Parse` reads it through
`mail.ReadMessage` and decodes encoded words before it looks for addresses. The results
say for which messages both come to the same sender.
-/

namespace Herold.Mail

open Herold.Go
open Herold.Send (splitLines split_lines_line continues trimBlanks isBlank gather logicalLines
    parseFields readRawHeader
  canonicalMIMEHeaderKey)

structure Address where
  name : Bytes
  address : Bytes
  deriving DecidableEq

/-- The library functions under both paths: `mail.ParseAddressList`, `WordDecoder.DecodeHeader`
and what else `Parse` may refuse a message for. -/
structure NetMail where
  parseAddressList : Bytes → Option (List Address)
  decodeHeader : Bytes → Option Bytes
  accepts : Bytes → Bool
  /-- A text without the start of an encoded word is its own decoding. -/
  decode_plain : ∀ text, cutFirst (ascii "=?") text = none → decodeHeader text = some text
  address_clean : ∀ text addresses, 0 ∉ text → parseAddressList text = some addresses →
    ∀ item ∈ addresses, 0 ∉ item.address

def maxHeaderSize : Nat := 256 * 1024

/-- The lines that `ReadBytes` hands out, each with its line feed. -/
def linesWithFeed : Bytes → List Bytes
  | [] => []
  | byte :: rest =>
    if byte = 10 then [10] :: linesWithFeed rest
    else match linesWithFeed rest with
      | [] => [[byte]]
      | line :: lines => (byte :: line) :: lines

def isLineEnd (byte : UInt8) : Bool := byte = 13 || byte = 10

/-- The loop of `readHeaderBlock`: the lines up to the first blank one, as far as they fit. -/
def readHeaderBlock (buffered : Bytes) : List Bytes → Bytes
  | [] => buffered
  | line :: rest =>
    if buffered.length < maxHeaderSize then
      if dropTrailing isLineEnd line = [] then buffered ++ line
      else readHeaderBlock (buffered ++ line) rest
    else buffered

def headerSection (raw : Bytes) : Bytes :=
  match cutFirst [13, 10, 13, 10] raw with
  | some (before, _) => before
  | none =>
    match cutFirst [10, 10] raw with
    | some (before, _) => before
    | none => raw

def flush (current : Bytes) : List Bytes := if current = [] then [] else [current]

/-- The unfolding loop of `extractHeaderFromBytes`. -/
def unfoldFields (current : Bytes) : List Bytes → List Bytes
  | [] => flush current
  | line :: rest =>
    let trimmed := dropTrailing (fun byte => byte = 13) line
    if trimmed = [] then unfoldFields current rest
    else if continues trimmed then unfoldFields (current ++ [32] ++ trimmed.dropWhile isBlank) rest
    else flush current ++ unfoldFields trimmed rest

def isFrom (name : Bytes) : Bool := equalFold (trimSpace name) (ascii "From")

def firstFrom : List Bytes → Bytes
  | [] => []
  | line :: rest =>
    match cutFirstByte 58 line with
    | none => firstFrom rest
    | some (name, value) => if isFrom name then trimSpace value else firstFrom rest

def extractHeaderFromBytes (raw : Bytes) : Bytes :=
  firstFrom (unfoldFields [] (splitByte 10 (headerSection raw)))

def extractHeaderFromReader (raw : Bytes) : Bytes :=
  extractHeaderFromBytes (readHeaderBlock [] (linesWithFeed raw))

def parseHeaderFromDomain (net : NetMail) (header : Bytes) : Option Bytes :=
  if trimSpace header = [] then none
  else match net.parseAddressList header with
    | some [item] => (cutLastByte 64 item.address).map fun halves => toLower halves.2
    | _ => none

def headerFromDomain (net : NetMail) (raw : Bytes) : Option Bytes :=
  parseHeaderFromDomain net (extractHeaderFromReader raw)

def stripNUL (text : Bytes) : Bytes := text.filter fun byte => byte != 0

def derefAddrs (addresses : List Address) : List Address :=
  addresses.map fun item => ⟨stripNUL item.name, stripNUL item.address⟩

def parseAddrsLenient (net : NetMail) (text : Bytes) : List Address :=
  let trimmed := trimSpace text
  if trimmed = [] then [] else ((net.parseAddressList trimmed).map derefAddrs).getD []

def decodeHeaderOrRaw (net : NetMail) (header : Bytes) : Bytes := (net.decodeHeader header).getD header

def parseAddrField (net : NetMail) (raw : Bytes) : List Address :=
  match net.parseAddressList (stripNUL (decodeHeaderOrRaw net raw)) with
  | some addresses => derefAddrs addresses
  | none => parseAddrsLenient net raw

/-- `mimeHeaderToHeaders`, which drops NULs as it adds a field. -/
def mimeHeaderToHeaders (fields : List (Bytes × Bytes)) : Headers :=
  ⟨fields.map fun field => (canonicalHeaderKey field.1, stripNUL field.2)⟩

/-- `Envelope.From` of `Parse`, where it succeeds. -/
def envelopeFrom (net : NetMail) (raw : Bytes) : Option (List Address) :=
  match readRawHeader raw with
  | .error _ => none
  | .ok fields =>
    if net.accepts raw then some (parseAddrField net ((mimeHeaderToHeaders fields).get (ascii "From")))
    else none

def HasDomain (domain : Bytes) (item : Address) : Prop :=
  ∃ before after, cutLastByte 64 item.address = some (before, after) ∧ toLower after = domain

/-- Each field of the header as DMARC unfolds it, which keeps the blanks at the ends of its
lines, and as `net/mail` does. -/
def unfoldings (lines : List Bytes) : List (Bytes × Bytes) :=
  (unfoldFields [] lines).zip (logicalLines lines)

def takesFrom (text : Bytes) : Bool := (cutFirstByte 58 text).any fun halves => isFrom halves.1

/-- A From field that both readers take alike: no white space before its colon, the same text
after it either way it is unfolded, and in the text no encoded word, no NUL and no white space
around it other than blanks and tabs. -/
def PlainFrom (unfolding : Bytes × Bytes) : Prop :=
  ∃ name scanned value, cutFirstByte 58 unfolding.1 = some (name, scanned) ∧
    cutFirstByte 58 unfolding.2 = some (name, value) ∧ canonicalHeaderKey name = ascii "From" ∧
      trimSpace scanned = value.dropWhile isBlank ∧ 0 ∉ value ∧
        cutFirst (ascii "=?") (value.dropWhile isBlank) = none

def FirstFromPlain (unfolded : List (Bytes × Bytes)) : Prop :=
  ∀ front field back, unfolded = front ++ field :: back →
    (∀ other ∈ front, takesFrom other.1 = false ∧ takesFrom other.2 = false) →
      (takesFrom field.1 = true ∨ takesFrom field.2 = true) → PlainFrom field

/-- A header in lines without a bare carriage return that fits the buffer of the DMARC reader,
with a plain first From field. -/
structure PlainHeader (lineEnd : Bytes) (lines : List Bytes) : Prop where
  ends : lineEnd = [13, 10] ∨ lineEnd = [10]
  filled : ∀ line ∈ lines, line ≠ []
  breakless : ∀ line ∈ lines, 13 ∉ line ∧ 10 ∉ line
  small : (lines.flatMap fun line => line ++ lineEnd).length < maxHeaderSize
  first : FirstFromPlain (unfoldings lines)

def messageOf (lineEnd : Bytes) (lines : List Bytes) (body : Bytes) : Bytes :=
  (lines.flatMap fun line => line ++ lineEnd) ++ (lineEnd ++ body)

theorem strip_nul_clean (text : Bytes) (clean : 0 ∉ text) : stripNUL text = text := by
  rw [stripNUL, List.filter_eq_self]
  intro byte inside
  have solid : byte ≠ 0 := fun isNul => clean (isNul ▸ inside)
  simpa using solid

theorem lines_with_feed_line (text rest : Bytes) (single : 10 ∉ text) :
    linesWithFeed (text ++ 10 :: rest) = (text ++ [10]) :: linesWithFeed rest := by
  induction text with
  | nil => simp [linesWithFeed]
  | cons byte text ih =>
    rw [List.mem_cons, not_or] at single
    rw [List.cons_append, linesWithFeed, if_neg fun feed => single.1 feed.symm, ih single.2]
    rfl

section

variable (lineEnd : Bytes) (line : Bytes) (lines : List Bytes) (body : Bytes)

theorem split_lines_message (ends : lineEnd = [13, 10] ∨ lineEnd = [10])
    (breakless : ∀ line ∈ lines, 13 ∉ line ∧ 10 ∉ line) :
    splitLines (messageOf lineEnd lines body) = lines ++ [] :: splitLines body := by
  induction lines with
  | nil =>
    have blank := split_lines_line lineEnd [] body ends (by simp)
    simpa [messageOf] using blank
  | cons line lines ih =>
    rw [List.forall_mem_cons] at breakless
    have first := split_lines_line lineEnd line (messageOf lineEnd lines body) ends breakless.1
    rw [ih breakless.2] at first
    simpa [messageOf, List.append_assoc] using first

theorem header_block_message (ends : lineEnd = [13, 10] ∨ lineEnd = [10])
    (filled : ∀ line ∈ lines, line ≠ [])
    (breakless : ∀ line ∈ lines, 13 ∉ line ∧ 10 ∉ line) :
    Send.headerBlock (splitLines (messageOf lineEnd lines body)) = lines := by
  rw [split_lines_message lineEnd lines body ends breakless, Send.headerBlock]
  rw [List.takeWhile_append_of_pos]
  · simp
  · intro line inside
    simpa using filled line inside

theorem line_not_blank (lineEnd line : Bytes) (filled : line ≠ []) (breakless : 13 ∉ line ∧ 10 ∉ line) :
    dropTrailing isLineEnd (line ++ lineEnd) ≠ [] := by
  intro dropped
  rw [dropTrailing, List.reverse_eq_nil_iff, List.dropWhile_eq_nil_iff] at dropped
  obtain ⟨byte, inside⟩ := List.exists_mem_of_ne_nil line filled
  have ending := dropped byte (List.mem_reverse.mpr (List.mem_append_left _ inside))
  simp only [isLineEnd, Bool.or_eq_true, decide_eq_true_eq] at ending
  rcases ending with rfl | rfl
  · exact breakless.1 inside
  · exact breakless.2 inside

theorem lines_with_feed_message (ends : lineEnd = [13, 10] ∨ lineEnd = [10])
    (breakless : ∀ line ∈ lines, 13 ∉ line ∧ 10 ∉ line) :
    linesWithFeed (messageOf lineEnd lines body) =
      (lines.map fun line => line ++ lineEnd) ++ lineEnd :: linesWithFeed body := by
  have one (line rest : Bytes) (single : 10 ∉ line) :
      linesWithFeed (line ++ (lineEnd ++ rest)) = (line ++ lineEnd) :: linesWithFeed rest := by
    rcases ends with rfl | rfl
    · have marked := lines_with_feed_line (line ++ [13]) rest (by simpa using single)
      simpa using marked
    · simpa using lines_with_feed_line line rest single
  induction lines with
  | nil => simpa [messageOf] using one [] body (by simp)
  | cons line lines ih =>
    rw [List.forall_mem_cons] at breakless
    have first := one line (messageOf lineEnd lines body) breakless.1.2
    rw [ih breakless.2] at first
    simpa [messageOf, List.append_assoc] using first

theorem read_header_block_lines (lineEnd buffered : Bytes) (lines rest : List Bytes)
    (ends : lineEnd = [13, 10] ∨ lineEnd = [10]) (filled : ∀ line ∈ lines, line ≠ [])
    (breakless : ∀ line ∈ lines, 13 ∉ line ∧ 10 ∉ line)
    (small : (buffered ++ lines.flatMap fun line => line ++ lineEnd).length < maxHeaderSize) :
    readHeaderBlock buffered ((lines.map fun line => line ++ lineEnd) ++ lineEnd :: rest) =
      buffered ++ ((lines.flatMap fun line => line ++ lineEnd) ++ lineEnd) := by
  induction lines generalizing buffered with
  | nil =>
    have blank : dropTrailing isLineEnd lineEnd = [] := by
      rcases ends with rfl | rfl
      · rfl
      · rfl
    rw [List.map_nil, List.nil_append, readHeaderBlock, if_pos (by simpa using small), if_pos blank]
    rfl
  | cons line lines ih =>
    rw [List.forall_mem_cons] at filled breakless
    have room : buffered.length < maxHeaderSize := by
      rw [List.length_append] at small
      omega
    rw [List.map_cons, List.cons_append, readHeaderBlock, if_pos room,
      if_neg (line_not_blank lineEnd line filled.1 breakless.1)]
    rw [ih (buffered ++ (line ++ lineEnd)) filled.2 breakless.2
      (by simpa [List.append_assoc] using small)]
    simp [List.append_assoc]

theorem cut_first_skip (needle front rest : Bytes)
    (quiet : ∀ offset < front.length, hasPrefix ((front ++ rest).drop offset) needle = false) :
    cutFirst needle (front ++ rest) =
      (cutFirst needle rest).map fun halves => (front ++ halves.1, halves.2) := by
  induction front with
  | nil => simp
  | cons byte front ih =>
    have here : hasPrefix (byte :: (front ++ rest)) needle = false := by simpa using quiet 0 (by simp)
    have behind := ih fun offset inside => by simpa using quiet (offset + 1) (by simpa using inside)
    rw [List.cons_append, cutFirst, here, if_neg (by decide), behind, Option.map_map]
    rfl

theorem cut_first_absent (byte : UInt8) (needle text : Bytes) (absent : byte ∉ text) :
    cutFirst (byte :: needle) text = none := by
  induction text with
  | nil => simp [cutFirst]
  | cons first text ih =>
    rw [List.mem_cons, not_or] at absent
    have differs : hasPrefix (first :: text) (byte :: needle) = false := by
      simp [hasPrefix, List.isPrefixOf_cons_cons, absent.1]
    rw [cutFirst, differs, if_neg (by decide), ih absent.2]
    rfl

theorem quiet_in_line (line rest needle : Bytes) (offset : Nat) (first : UInt8)
    (absent : first ∉ line) (inside : offset < line.length) :
    hasPrefix ((line ++ rest).drop offset) (first :: needle) = false := by
  rw [List.drop_append_of_le_length (Nat.le_of_lt inside), List.drop_eq_getElem_cons inside,
    List.cons_append]
  have differs : first ≠ line.get ⟨offset, inside⟩ := fun same =>
    absent (same ▸ List.get_mem line ⟨offset, inside⟩)
  simp only [hasPrefix, List.isPrefixOf_cons_cons]
  simpa using fun same => absurd same differs

theorem cut_blank_line (lineEnd line : Bytes) (ends : lineEnd = [13, 10] ∨ lineEnd = [10])
    (breakless : 13 ∉ line ∧ 10 ∉ line) :
    cutFirst (lineEnd ++ lineEnd) (line ++ (lineEnd ++ lineEnd)) = some (line, []) := by
  rw [cut_first_skip]
  · rcases ends with rfl | rfl
    · simp [cutFirst, hasPrefix]
    · simp [cutFirst, hasPrefix]
  · intro offset inside
    rcases ends with rfl | rfl
    · exact quiet_in_line line _ _ offset 13 breakless.1 inside
    · exact quiet_in_line line _ _ offset 10 breakless.2 inside

theorem cut_past_line (lineEnd line rest : Bytes) (first : UInt8)
    (ends : lineEnd = [13, 10] ∨ lineEnd = [10])
    (breakless : 13 ∉ line ∧ 10 ∉ line) (differs : first ≠ 13 ∧ first ≠ 10) :
    cutFirst (lineEnd ++ lineEnd) (line ++ (lineEnd ++ first :: rest)) =
      (cutFirst (lineEnd ++ lineEnd) (first :: rest)).map fun halves =>
        (line ++ (lineEnd ++ halves.1), halves.2) := by
  have pastLine : cutFirst (lineEnd ++ lineEnd) (line ++ (lineEnd ++ first :: rest)) =
      (cutFirst (lineEnd ++ lineEnd) (lineEnd ++ first :: rest)).map fun halves =>
        (line ++ halves.1, halves.2) := by
    apply cut_first_skip
    intro offset inside
    rcases ends with rfl | rfl
    · exact quiet_in_line line _ _ offset 13 breakless.1 inside
    · exact quiet_in_line line _ _ offset 10 breakless.2 inside
  have pastEnd : cutFirst (lineEnd ++ lineEnd) (lineEnd ++ first :: rest) =
      (cutFirst (lineEnd ++ lineEnd) (first :: rest)).map fun halves =>
        (lineEnd ++ halves.1, halves.2) := by
    apply cut_first_skip
    intro offset inside
    rcases ends with rfl | rfl
    · have cases : offset = 0 ∨ offset = 1 := by
        simp only [List.length_cons, List.length_nil] at inside
        omega
      rcases cases with rfl | rfl
      · simp [hasPrefix, List.isPrefixOf_cons_cons, differs.1.symm]
      · simp [hasPrefix, List.isPrefixOf_cons_cons]
    · obtain rfl : offset = 0 := by
        simp only [List.length_cons, List.length_nil] at inside
        omega
      simp [hasPrefix, List.isPrefixOf_cons_cons, differs.2.symm]
  rw [pastLine, pastEnd, Option.map_map]
  rfl

theorem cut_header_lines (first : Bytes) (more : List Bytes)
    (ends : lineEnd = [13, 10] ∨ lineEnd = [10]) (filled : ∀ line ∈ first :: more, line ≠ [])
    (breakless : ∀ line ∈ first :: more, 13 ∉ line ∧ 10 ∉ line) :
    cutFirst (lineEnd ++ lineEnd) (((first :: more).flatMap fun line => line ++ lineEnd) ++ lineEnd) =
      some (List.intercalate lineEnd (first :: more), []) := by
  induction more generalizing first with
  | nil =>
    have last := cut_blank_line lineEnd first ends (breakless first (by simp))
    simpa [List.append_assoc] using last
  | cons second more ih =>
    rw [List.forall_mem_cons] at filled breakless
    have later := ih second filled.2 breakless.2
    obtain ⟨byte, secondRest, isSecond⟩ := List.exists_cons_of_ne_nil (filled.2 second (by simp))
    have clean := breakless.2 second (by simp)
    rw [isSecond] at clean
    simp only [List.mem_cons, not_or] at clean
    have past := cut_past_line lineEnd first
      (secondRest ++ (lineEnd ++ ((more.flatMap fun line => line ++ lineEnd) ++ lineEnd))) byte ends
        breakless.1
      ⟨fun same => clean.1.1 same.symm, fun same => clean.2.1 same.symm⟩
    have text : byte :: (secondRest ++
      (lineEnd ++ ((more.flatMap fun line => line ++ lineEnd) ++ lineEnd))) =
        ((second :: more).flatMap fun line => line ++ lineEnd) ++ lineEnd := by
      simp [isSecond, List.append_assoc]
    rw [text, later] at past
    have whole : ((first :: second :: more).flatMap fun line => line ++ lineEnd) ++ lineEnd =
        first ++ (lineEnd ++ (((second :: more).flatMap fun line => line ++ lineEnd) ++ lineEnd)) := by
      simp [List.append_assoc]
    rw [whole, past]
    simp [List.intercalate, List.intersperse]

theorem header_section_lines (first : Bytes) (more : List Bytes)
    (ends : lineEnd = [13, 10] ∨ lineEnd = [10]) (filled : ∀ line ∈ first :: more, line ≠ [])
    (breakless : ∀ line ∈ first :: more, 13 ∉ line ∧ 10 ∉ line) :
    headerSection (((first :: more).flatMap fun line => line ++ lineEnd) ++ lineEnd) =
      List.intercalate lineEnd (first :: more) := by
  have found := cut_header_lines lineEnd first more ends filled breakless
  rcases ends with rfl | rfl
  · rw [headerSection]
    simp only [List.cons_append, List.nil_append] at found
    rw [found]
  · have noCarriage : 13 ∉ ((first :: more).flatMap fun line => line ++ [10]) ++ [10] := by
      simp only [List.mem_append, List.mem_flatMap, List.mem_singleton, not_or, not_exists, not_and]
      exact ⟨fun line inside => ⟨(breakless line inside).1, by decide⟩, by decide⟩
    rw [headerSection, cut_first_absent 13 _ _ noCarriage]
    simp only [List.cons_append, List.nil_append] at found
    rw [found]

/-- The lines as they stand between the line feeds: each but the last with the carriage
return of its line end. -/
def carried (carriage : Bytes) : List Bytes → List Bytes
  | [] => []
  | [line] => [line]
  | line :: next :: rest => (line ++ carriage) :: carried carriage (next :: rest)

theorem intercalate_carried (carriage first : Bytes) (more : List Bytes) :
    List.intercalate (carriage ++ [10]) (first :: more) =
      List.intercalate [10] (carried carriage (first :: more)) := by
  induction more generalizing first with
  | nil => rfl
  | cons second more ih =>
    rw [carried]
    have later := ih second
    cases rest : carried carriage (second :: more) with
    | nil => cases more <;> simp [carried] at rest
    | cons next others =>
      rw [rest] at later
      rw [List.intercalate_cons_cons, later, List.intercalate_cons_cons]
      simp [List.append_assoc]

theorem unfold_carried (current carriage : Bytes) (lines : List Bytes)
    (isCarriage : carriage = [13] ∨ carriage = []) :
    unfoldFields current (carried carriage lines) = unfoldFields current lines := by
  have drop (line : Bytes) :
      dropTrailing (fun byte => byte = 13) (line ++ carriage) =
        dropTrailing (fun byte => byte = 13) line := by
    rcases isCarriage with rfl | rfl
    · simp [dropTrailing]
    · simp
  induction lines generalizing current with
  | nil => rfl
  | cons line lines ih =>
    cases lines with
    | nil => rfl
    | cons next rest =>
      rw [carried, unfoldFields, unfoldFields, drop line]
      simp only [ih]

theorem drop_carriage (clean : 13 ∉ line) :
    dropTrailing (fun byte => decide (byte = 13)) line = line := by
  rw [dropTrailing, List.reverse_eq_iff]
  cases reversed : line.reverse with
  | nil => rfl
  | cons last rest =>
    have inside : last ∈ line := List.mem_reverse.mp (reversed ▸ List.mem_cons_self ..)
    have other : last ≠ 13 := fun same => clean (same ▸ inside)
    simp [other]

end

theorem unfold_lengths (current gathered : Bytes) (lines : List Bytes) (started : current ≠ [])
    (filled : ∀ line ∈ lines, line ≠ []) (clean : ∀ line ∈ lines, 13 ∉ line) :
    (unfoldFields current lines).length = (gather gathered lines).length := by
  induction lines generalizing current gathered with
  | nil => simp [unfoldFields, gather, flush, started]
  | cons line lines ih =>
    rw [List.forall_mem_cons] at filled clean
    rw [unfoldFields, gather]
    simp only [drop_carriage line clean.1, if_neg filled.1]
    split
    · exact ih _ _ (by simp) filled.2 clean.2
    · rw [flush, if_neg started, List.singleton_append, List.length_cons, List.length_cons,
        ih _ (trimBlanks line) filled.1 filled.2 clean.2]

/-- Both readers see the same number of fields. -/
theorem unfoldings_halves (first : Bytes) (more : List Bytes) (starts : continues first = false)
    (filled : ∀ line ∈ first :: more, line ≠ []) (clean : ∀ line ∈ first :: more, 13 ∉ line) :
    (unfoldings (first :: more)).map Prod.fst = unfoldFields [] (first :: more) ∧
      (unfoldings (first :: more)).map Prod.snd = logicalLines (first :: more) := by
  rw [List.forall_mem_cons] at filled clean
  have lengths : (unfoldFields [] (first :: more)).length = (logicalLines (first :: more)).length := by
    rw [unfoldFields, logicalLines]
    simp only [drop_carriage first clean.1, if_neg filled.1, starts, Bool.false_eq_true, if_false]
    exact unfold_lengths _ _ more filled.1 filled.2 clean.2
  exact ⟨List.map_fst_zip (Nat.le_of_eq lengths), List.map_snd_zip (Nat.le_of_eq lengths.symm)⟩

def lowerByte (byte : UInt8) : UInt8 := if 65 ≤ byte && byte ≤ 90 then byte + 32 else byte

theorem every_byte {Holds : UInt8 → Prop} (each : ∀ value < 256, Holds (UInt8.ofNat value))
    (byte : UInt8) :
    Holds byte := by
  simpa using each byte.toNat byte.toNat_lt

theorem canonical_from_lower (upper : Bool) (name : Bytes) :
    (canonicalFrom upper name).map lowerByte = name.map lowerByte := by
  have byteLower : ∀ (upper : Bool) (byte : UInt8),
      lowerByte (if (upper && 97 ≤ byte && byte ≤ 122) = true then byte - 32
        else if (!upper && 65 ≤ byte && byte ≤ 90) = true then byte + 32 else byte) =
          lowerByte byte := by
    intro upper
    apply every_byte
    cases upper with
    | false => decide +kernel
    | true => decide +kernel
  induction name generalizing upper with
  | nil => rfl
  | cons byte name ih =>
    rw [canonicalFrom, List.map_cons, List.map_cons, ih]
    exact congrArg (· :: name.map lowerByte) (byteLower upper byte)

theorem mime_key_lower (name : Bytes) :
    (canonicalMIMEHeaderKey name).map lowerByte = name.map lowerByte := by
  unfold canonicalMIMEHeaderKey
  split
  · exact canonical_from_lower true name
  · rfl

def fromSpellings : List Bytes :=
  [70, 102].flatMap fun first => [82, 114].flatMap fun second => [79, 111].flatMap fun third =>
    [77, 109].map fun fourth => [first, second, third, fourth]

theorem spelling_of_lower (name : Bytes) (same : name.map lowerByte = ascii "from") :
    name ∈ fromSpellings := by
  have f : ∀ byte, lowerByte byte = 102 → byte = 70 ∨ byte = 102 := every_byte (by decide +kernel)
  have r : ∀ byte, lowerByte byte = 114 → byte = 82 ∨ byte = 114 := every_byte (by decide +kernel)
  have o : ∀ byte, lowerByte byte = 111 → byte = 79 ∨ byte = 111 := every_byte (by decide +kernel)
  have m : ∀ byte, lowerByte byte = 109 → byte = 77 ∨ byte = 109 := every_byte (by decide +kernel)
  have letters : name.map lowerByte = [102, 114, 111, 109] := same
  obtain ⟨first, afterFirst, rfl, isFirst, restFirst⟩ := List.map_eq_cons_iff.mp letters
  obtain ⟨second, afterSecond, rfl, isSecond, restSecond⟩ := List.map_eq_cons_iff.mp restFirst
  obtain ⟨third, afterThird, rfl, isThird, restThird⟩ := List.map_eq_cons_iff.mp restSecond
  obtain ⟨fourth, afterFourth, rfl, isFourth, restFourth⟩ := List.map_eq_cons_iff.mp restThird
  obtain rfl := List.map_eq_nil_iff.mp restFourth
  simp only [fromSpellings, List.mem_flatMap, List.mem_map]
  exact ⟨first, by simpa using f first isFirst, second, by simpa using r second isSecond, third,
    by simpa using o third isThird, fourth, by simpa using m fourth isFourth, rfl⟩

theorem spellings_taken : ∀ name ∈ fromSpellings, isFrom name = true ∧
    canonicalHeaderKey (canonicalMIMEHeaderKey name) = ascii "From" := by decide

/-- The field that `Parse` files under From is one that DMARC takes for it. -/
theorem filed_under_from (name : Bytes)
    (filed : canonicalHeaderKey (canonicalMIMEHeaderKey name) = ascii "From") :
    isFrom name = true := by
  have lowered : name.map lowerByte = ascii "from" := by
    rw [← mime_key_lower, ← canonical_from_lower true, ← canonicalHeaderKey, filed]
    rfl
  exact (spellings_taken name (spelling_of_lower name lowered)).1

theorem plain_name_taken (name : Bytes) (named : canonicalHeaderKey name = ascii "From") :
    isFrom name = true ∧ canonicalHeaderKey (canonicalMIMEHeaderKey name) = ascii "From" := by
  have lowered : name.map lowerByte = ascii "from" := by
    rw [← canonical_from_lower true, ← canonicalHeaderKey, named]
    rfl
  exact spellings_taken name (spelling_of_lower name lowered)

theorem first_from_get (unfolded : List (Bytes × Bytes)) (fields : List (Bytes × Bytes))
    (read : parseFields (unfolded.map Prod.snd) = .ok fields) (plain : FirstFromPlain unfolded) :
    firstFrom (unfolded.map Prod.fst) = (mimeHeaderToHeaders fields).get (ascii "From") ∧
      0 ∉ firstFrom (unfolded.map Prod.fst) ∧
        cutFirst (ascii "=?") (firstFrom (unfolded.map Prod.fst)) = none := by
  have key : canonicalHeaderKey (ascii "From") = ascii "From" := by decide
  induction unfolded generalizing fields with
  | nil =>
    cases read
    exact ⟨rfl, by simp [firstFrom], rfl⟩
  | cons field unfolded ih =>
    rw [List.map_cons, parseFields] at read
    cases cut : cutFirstByte 58 field.2 with
    | none => simp [cut] at read
    | some halves =>
      obtain ⟨name, value⟩ := halves
      simp only [cut] at read
      cases rest : parseFields (unfolded.map Prod.snd) with
      | error error => simp [rest] at read
      | ok later =>
        simp only [rest] at read
        rw [List.map_cons]
        by_cases taken : takesFrom field.1 = true ∨ takesFrom field.2 = true
        · obtain ⟨other, scanned, text, cutScanned, cutText, named, trimmed, noNul, noWord⟩ :=
            plain [] field unfolded rfl (by simp) taken
          obtain ⟨rfl, rfl⟩ := Prod.mk.inj (Option.some.inj (cut.symm.trans cutText))
          obtain ⟨isTaken, filed⟩ := plain_name_taken name named
          have nonempty : name ≠ [] := by
            rintro rfl
            exact absurd isTaken (by decide)
          rw [if_neg nonempty] at read
          obtain rfl := Except.ok.inj read
          have clean : 0 ∉ value.dropWhile isBlank := fun inside =>
            noNul ((List.dropWhile_sublist isBlank).subset inside)
          have kept := strip_nul_clean (value.dropWhile isBlank) clean
          simp only [firstFrom, cutScanned, isTaken, if_true, trimmed]
          refine ⟨?_, clean, noWord⟩
          simp [mimeHeaderToHeaders, Headers.get, Headers.getAll, key, filed, kept]
        · rw [not_or, Bool.not_eq_true, Bool.not_eq_true] at taken
          have behind := ih later rest fun front other back same before =>
            plain (field :: front) other back (by rw [same, List.cons_append])
              (List.forall_mem_cons.mpr ⟨taken, before⟩)
          have skipped : firstFrom (field.1 :: unfolded.map Prod.fst) =
            firstFrom (unfolded.map Prod.fst) := by
            rw [firstFrom]
            split
            · rfl
            · rename_i other scanned cutScanned
              have untaken := taken.1
              rw [takesFrom, cutScanned] at untaken
              rw [if_neg (by simpa using untaken)]
          rw [skipped]
          refine ⟨?_, behind.2⟩
          rw [behind.1]
          have other : canonicalHeaderKey (canonicalMIMEHeaderKey name) ≠ ascii "From" := fun same => by
            have untaken := taken.2
            rw [takesFrom, cut] at untaken
            rw [Option.any_some, filed_under_from name same] at untaken
            cases untaken
          split at read
          · rw [← Except.ok.inj read]
          · rw [← Except.ok.inj read]
            simp [mimeHeaderToHeaders, Headers.get, Headers.getAll, key, other]

theorem carried_free (carriage : Bytes) (lines : List Bytes) (clean : 10 ∉ carriage)
    (breakless : ∀ line ∈ lines, 10 ∉ line) : ∀ line ∈ carried carriage lines, 10 ∉ line := by
  induction lines with
  | nil => simp [carried]
  | cons line lines ih =>
    rw [List.forall_mem_cons] at breakless
    cases lines with
    | nil => simpa [carried] using breakless.1
    | cons next rest =>
      rw [carried, List.forall_mem_cons]
      refine ⟨?_, ih breakless.2⟩
      rw [List.mem_append, not_or]
      exact ⟨breakless.1, clean⟩

theorem carried_nonempty (carriage first : Bytes) (more : List Bytes) :
    carried carriage (first :: more) ≠ [] := by
  cases more with
  | nil => simp [carried]
  | cons next rest => simp [carried]

theorem header_block_read {lineEnd : Bytes} {lines : List Bytes} (plain : PlainHeader lineEnd lines)
    (body : Bytes) :
    readHeaderBlock [] (linesWithFeed (messageOf lineEnd lines body)) =
      (lines.flatMap fun line => line ++ lineEnd) ++ lineEnd := by
  rw [lines_with_feed_message lineEnd _ body plain.ends plain.breakless,
    read_header_block_lines lineEnd [] _ _ plain.ends plain.filled plain.breakless
      (by simpa using plain.small)]
  rfl

section

variable {lineEnd first : Bytes} {more : List Bytes} (plain : PlainHeader lineEnd (first :: more))

include plain

theorem scanned_lines :
    unfoldFields [] (splitByte 10 (List.intercalate lineEnd (first :: more))) =
      unfoldFields [] (first :: more) := by
  obtain ⟨carriage, isEnd, isCarriage⟩ : ∃ carriage, lineEnd = carriage ++ [10] ∧
      (carriage = [13] ∨ carriage = []) := by
    rcases plain.ends with same | same
    · exact ⟨[13], same, .inl rfl⟩
    · exact ⟨[], same, .inr rfl⟩
  have clean : 10 ∉ carriage := by
    rcases isCarriage with rfl | rfl
    · decide
    · simp
  have parts := split_intercalate 10 _ (carried carriage (first :: more))
    (carried_nonempty carriage first more)
    (carried_free carriage _ clean fun line inside => (plain.breakless line inside).2)
    (Nat.lt_succ_self _)
  rw [isEnd, intercalate_carried, splitByte, parts, unfold_carried [] carriage _ isCarriage]

theorem extracted_from (body : Bytes) :
    extractHeaderFromReader (messageOf lineEnd (first :: more) body) =
      firstFrom (unfoldFields [] (first :: more)) := by
  rw [extractHeaderFromReader, header_block_read plain body, extractHeaderFromBytes,
    header_section_lines lineEnd first more plain.ends plain.filled plain.breakless,
      scanned_lines plain]

end

/-- On a plain header the text that DMARC checks is the one that `Parse` reads, and decoding
leaves it as it is. -/
theorem plain_from_shared (lineEnd : Bytes) (lines : List Bytes) (body : Bytes)
    (plain : PlainHeader lineEnd lines) (fields : List (Bytes × Bytes))
    (read : readRawHeader (messageOf lineEnd lines body) = .ok fields) :
    extractHeaderFromReader (messageOf lineEnd lines body) =
        (mimeHeaderToHeaders fields).get (ascii "From") ∧
      0 ∉ extractHeaderFromReader (messageOf lineEnd lines body) ∧
        cutFirst (ascii "=?") (extractHeaderFromReader (messageOf lineEnd lines body)) = none := by
  rw [readRawHeader] at read
  simp only [header_block_message lineEnd lines body plain.ends plain.filled plain.breakless] at read
  split at read
  · cases read
  rename_i starts
  cases parsed : parseFields (logicalLines lines) with
  | error error => simp [parsed] at read
  | ok all =>
    simp only [parsed] at read
    split at read
    · cases read
    obtain rfl := Except.ok.inj read
    cases lines with
    | nil =>
      -- no field at all: both come to the empty text
      have none : extractHeaderFromReader (messageOf lineEnd [] body) = [] := by
        rw [extractHeaderFromReader, header_block_read plain body]
        rcases plain.ends with rfl | rfl
        · decide
        · decide
      cases parsed
      rw [none]
      exact ⟨rfl, by simp, rfl⟩
    | cons first more =>
      have solid : continues first = false := by
        have filled := plain.filled first (by simp)
        obtain ⟨byte, rest, rfl⟩ := List.exists_cons_of_ne_nil filled
        simpa [messageOf, continues] using starts
      obtain ⟨scanned, gathered⟩ := unfoldings_halves first more solid plain.filled
        fun line inside => (plain.breakless line inside).1
      rw [extracted_from plain body, ← scanned]
      exact first_from_get _ all (gathered ▸ parsed) plain.first

def encodedFrom : Bytes := ascii "=?utf-8?q?a=40evil.com=2C?= <b@bank.com>"

def decodedFrom : Bytes := ascii "a@evil.com, <b@bank.com>"

def plainFrom : Bytes := ascii "Bea <b@bank.com>"

def sampleAddresses : List (Bytes × List Address) :=
  [(encodedFrom, [⟨ascii "a@evil.com,", ascii "b@bank.com"⟩]),
    (decodedFrom, [⟨[], ascii "a@evil.com"⟩, ⟨[], ascii "b@bank.com"⟩]),
    (plainFrom, [⟨ascii "Bea", ascii "b@bank.com"⟩])]

def sampleMail : NetMail where
  parseAddressList text := (sampleAddresses.find? fun entry => entry.1 = text).map Prod.snd
  decodeHeader text := some (if text = encodedFrom then decodedFrom else text)
  accepts _ := true
  decode_plain := by
    intro text plain
    have other : text ≠ encodedFrom := by
      rintro rfl
      exact absurd plain (by decide)
    rw [if_neg other]
  address_clean := by
    intro text addresses _ parsed item inside
    obtain ⟨entry, found, rfl⟩ := Option.map_eq_some_iff.mp parsed
    have clean : ∀ entry ∈ sampleAddresses, ∀ item ∈ entry.2, 0 ∉ item.address := by decide
    exact clean entry (List.mem_of_find?_eq_some found) item inside

/-- A blank ends the subject, and a second From field holds an encoded word. -/
def beaLines : List Bytes :=
  [ascii "Subject: Hi ", ascii "From: Bea", ascii " <b@bank.com>", ascii "From: " ++ encodedFrom]

theorem bea_plain : PlainHeader [13, 10] beaLines where
  ends := .inl rfl
  filled := by decide
  breakless := by decide
  small := by decide
  first := by
    intro front field back same before taken
    have shape : unfoldings beaLines = [_, _, _] := rfl
    rw [shape] at same
    match front, before with
    | [], _ =>
      obtain ⟨rfl, _⟩ := List.cons.inj same
      exact absurd taken (by decide)
    | [first], _ =>
      obtain ⟨_, same⟩ := List.cons.inj same
      obtain ⟨rfl, _⟩ := List.cons.inj same
      exact ⟨ascii "From", _, _, rfl, rfl, by decide, by decide, by decide, by decide⟩
    | first :: second :: _, before =>
      have passed := (before second (by simp)).1
      obtain ⟨_, same⟩ := List.cons.inj same
      obtain ⟨rfl, _⟩ := List.cons.inj same
      exact absurd passed (by decide)

end Herold.Mail

import Herold.Go.Utf8
import Herold.Sieve.Fuel
import Herold.Sieve.Managed

/-!
# Reading back what was written

The pieces compiled rules are written from, and what the parser reads them as:
literals, arguments, tests, commands and blocks. A literal that was quoted ends
where its text ends, whatever the text is, so what follows it is read as it was
written.
-/

namespace Herold.Sieve

open Herold.Go Herold.Machine

/-- The rune a literal holds in place of a rune of the quoted text. -/
def sanitizeRune (rune : Rune) : Rune := if rune < 0x20 ∨ rune = 0x7F then 0xFFFD else rune

def literal (text : Bytes) : Bytes := expandEncodedChars (mapRunes sanitizeRune text)

theorem quoted_rune_reads (rune : Nat) (scalar : IsScalar rune) (written rest : Bytes) :
    quotedFrom written (runes (quoteRune rune ++ rest)) =
      quotedFrom (written ++ encodeRune (sanitizeRune rune)) (runes rest) := by
  have plain : ∀ rune : Nat, IsScalar rune → rune ≠ 34 → rune ≠ 92 →
      quotedFrom written (runes (encodeRune rune ++ rest)) =
        quotedFrom (written ++ encodeRune rune) (runes rest) := by
    intro rune scalar quote backslash
    rw [runes_encode rune scalar, quotedFrom.eq_def]
    dsimp only
    rw [if_neg quote, if_neg backslash]
  have escaped : ∀ byte : UInt8, byte = 34 ∨ byte = 92 →
      quotedFrom written (runes ([92, byte] ++ rest)) =
        quotedFrom (written ++ encodeRune byte.toNat) (runes rest) := by
    intro byte special
    have small : byte < 0x80 := by rcases special with rfl | rfl <;> decide
    have kind : byte.toNat = 34 ∨ byte.toNat = 92 := by rcases special with rfl | rfl <;> decide
    rw [List.cons_append, List.singleton_append, runes_ascii_cons 92 _ (by decide),
      runes_ascii_cons byte _ small, quotedFrom.eq_def]
    dsimp only
    rw [if_neg (by decide), if_pos (by decide), if_pos kind]
  by_cases quote : rune = 34
  · rw [quote]
    exact escaped 34 (Or.inl rfl)
  by_cases backslash : rune = 92
  · rw [backslash]
    exact escaped 92 (Or.inr rfl)
  rw [quoteRune, sanitizeRune, if_neg quote, if_neg backslash]
  split_ifs
  · exact plain 0xFFFD (Or.inr ⟨by decide, by decide⟩) (by decide) (by decide)
  · exact plain rune scalar quote backslash

theorem quoted_text_reads (text : Text) (scalar : ∀ rune ∈ text, IsScalar rune.1)
    (written rest : Bytes) :
    quotedFrom written (runes ((text.flatMap fun rune => quoteRune rune.1) ++ 34 :: rest)) =
      .ok (expandEncodedChars (written ++ text.flatMap fun rune => encodeRune (sanitizeRune rune.1)),
        runes rest) := by
  induction text generalizing written with
  | nil =>
    rw [List.flatMap_nil, List.nil_append, runes_ascii_cons 34 rest (by decide), quotedFrom.eq_def]
    dsimp only
    rw [if_pos (by decide), List.flatMap_nil, List.append_nil]
  | cons rune text ih =>
    rw [List.flatMap_cons, List.append_assoc, quoted_rune_reads rune.1 (scalar rune (by simp)),
      ih (fun other member => scalar other (by simp [member])), List.flatMap_cons, List.append_assoc]

theorem literal_reads (text rest : Bytes) :
    readQuotedString (runes (sieveQuote text ++ rest)) = .ok (literal text, runes rest) := by
  have opened : runes (sieveQuote text ++ rest) =
      (34, [34]) :: runes (((runes text).flatMap fun rune => quoteRune rune.1) ++ 34 :: rest) := by
    have written : sieveQuote text ++ rest =
        34 :: (((runes text).flatMap fun rune => quoteRune rune.1) ++ 34 :: rest) := by
      simp [sieveQuote]
    rw [written, runes_ascii_cons 34 _ (by decide)]
    rfl
  rw [opened, readQuotedString, if_pos (by rfl)]
  exact quoted_text_reads (runes text) (runes_scalar text) [] rest

def beginsToken (rune : Rune) : Bool := !isSpaceRune rune && rune != 35 && rune != 47

theorem skip_from_space (here : Rune × Bytes) (space : isSpaceRune here.1 = true) (rest : Text) :
    skipFrom .plain (here :: rest) = skipFrom .plain rest := by
  delta skipFrom
  exact if_pos space

theorem skip_from_token {here : Rune × Bytes} (word : ¬isSpaceRune here.1 = true) (hash : here.1 ≠ 35)
    (slash : here.1 ≠ 47) (rest : Text) : skipFrom .plain (here :: rest) = .ok (here :: rest) := by
  delta skipFrom
  refine (if_neg word).trans ?_
  refine (if_neg hash).trans ?_
  exact if_neg slash

theorem skip_at_token {text : Text} (token : beginsToken (peek text) = true) :
    skipWhitespaceAndComments text = .ok text := by
  cases text with
  | nil => rfl
  | cons here rest =>
    simp only [beginsToken, peek, Bool.and_eq_true, Bool.not_eq_true', bne_iff_ne] at token
    exact skip_from_token (by simp [token.1.1]) token.1.2 token.2 rest

def isBlank (text : Bytes) : Bool := text.all fun byte => byte == 32 || byte == 10

theorem skip_blank (blank rest : Bytes) (spaces : isBlank blank = true) :
    skipWhitespaceAndComments (runes (blank ++ rest)) = skipWhitespaceAndComments (runes rest) := by
  induction blank with
  | nil => rfl
  | cons byte blank ih =>
    rw [isBlank, List.all_cons, Bool.and_eq_true, Bool.or_eq_true, beq_iff_eq, beq_iff_eq] at spaces
    have space : byte < 0x80 ∧ isSpaceRune byte.toNat = true := by
      rcases spaces.1 with rfl | rfl <;> decide
    rw [List.cons_append, runes_ascii_cons byte _ space.1, skipWhitespaceAndComments,
      skip_from_space (byte.toNat, [byte]) space.2]
    exact ih spaces.2

def isWord (word : Bytes) : Bool :=
  (word.head?.any fun byte => isIdentStart byte.toNat) &&
    word.all fun byte => byte < 0x80 && isIdentPart byte.toNat

theorem word_runes (word rest : Bytes) (small : ∀ byte ∈ word, byte < 0x80) :
    runes (word ++ rest) = (word.map fun byte => (byte.toNat, [byte])) ++ runes rest := by
  induction word with
  | nil => rfl
  | cons byte word ih =>
    rw [List.cons_append, runes_ascii_cons byte _ (small byte (by simp)),
      ih fun other member => small other (by simp [member])]
    rfl

theorem write_word (word : Bytes) (small : ∀ byte ∈ word, byte < 0x80) :
    writeRunes (word.map fun byte => (byte.toNat, [byte])) = word := by
  induction word with
  | nil => rfl
  | cons byte word ih =>
    have single : encodeRune byte.toNat = [byte] := by
      have low : byte.toNat < 0x80 := small byte (by simp)
      simp [encodeRune, low]
    have later := ih fun other member => small other (by simp [member])
    simp only [writeRunes, List.map_cons, List.flatMap_cons, single] at later ⊢
    rw [later]
    rfl

theorem word_begins_token (word : Bytes) (wordly : isWord word = true) (rest : Bytes) :
    isIdentStart (peek (runes (word ++ rest))) = true := by
  cases word with
  | nil => cases wordly
  | cons byte word =>
    simp only [isWord, List.head?_cons, Option.any_some, List.all_cons, Bool.and_eq_true,
      decide_eq_true_eq] at wordly
    rw [List.cons_append, runes_ascii_cons byte _ wordly.2.1.1]
    exact wordly.1

theorem ident_small (rune : Nat) (starts : isIdentStart rune = true) : rune < 123 := by
  simp only [isIdentStart, Bool.or_eq_true, Bool.and_eq_true, decide_eq_true_eq, beq_iff_eq] at starts
  rcases starts with (⟨_, high⟩ | ⟨_, high⟩) | same
  · exact Nat.lt_of_le_of_lt high (by decide)
  · exact Nat.lt_of_le_of_lt high (by decide)
  · rw [same]
    decide

theorem ident_begins_token (rune : Nat) (starts : isIdentStart rune = true) :
    beginsToken rune = true := by
  have letters : ∀ rune : Fin 123, isIdentStart rune.val = true → beginsToken rune.val = true := by
    decide
  exact letters ⟨rune, ident_small rune starts⟩ starts

theorem identifier_reads (word rest : Bytes) (wordly : isWord word = true)
    (ends : isIdentPart (peek (runes rest)) = false) :
    readIdentifier (runes (word ++ rest)) = .ok (word, runes rest) := by
  have starts := word_begins_token word wordly rest
  have small : ∀ byte ∈ word, byte < 0x80 := by
    intro byte member
    simp only [isWord, Bool.and_eq_true, List.all_eq_true, decide_eq_true_eq] at wordly
    exact (wordly.2 byte member).1
  have inside : ∀ rune ∈ word.map fun byte => (byte.toNat, [byte]), isIdentPart rune.1 = true := by
    intro rune member
    obtain ⟨byte, here, rfl⟩ := List.mem_map.mp member
    simp only [isWord, Bool.and_eq_true, List.all_eq_true, decide_eq_true_eq] at wordly
    exact (wordly.2 byte here).2
  have stops : (runes rest).takeWhile (fun rune => isIdentPart rune.1) = [] ∧
      (runes rest).dropWhile (fun rune => isIdentPart rune.1) = runes rest := by
    cases after : runes rest with
    | nil => exact ⟨rfl, rfl⟩
    | cons here later =>
      rw [after] at ends
      exact ⟨List.takeWhile_cons_of_neg (by simp [show isIdentPart here.1 = false from ends]),
        List.dropWhile_cons_of_neg (by simp [show isIdentPart here.1 = false from ends])⟩
  rw [readIdentifier, skip_at_token (ident_begins_token _ starts)]
  rw [word_runes word rest small] at starts ⊢
  simp only [bind, Except.bind]
  split
  · rename_i empty
    rw [empty] at starts
    cases starts
  · rename_i here later split
    rw [split] at starts
    rw [if_pos (show isIdentStart here.1 = true from starts), ← split,
      List.takeWhile_append_of_pos inside,
      List.dropWhile_append_of_pos inside, stops.1, stops.2, List.append_nil, write_word word small]

inductive Item where
  | tag (word : Bytes)
  | quoted (text : Bytes)
  | quotedList (texts : List Bytes)

namespace Item

def text : Item → Bytes
  | tag word => 58 :: word
  | quoted text => sieveQuote text
  | quotedList texts => 91 :: (List.intercalate (ascii ", ") (texts.map sieveQuote) ++ [93])

def argument : Item → Argument
  | tag word => .tag (58 :: toLower word)
  | quoted text => .string (literal text)
  | quotedList texts => .stringList (texts.map literal)

def isPlain : Item → Bool
  | tag word => isWord word
  | _ => true

end Item

theorem string_list_blank (fuel : Nat) (rest : Bytes) :
    stringListFrom fuel (runes (32 :: rest)) = stringListFrom fuel (runes rest) := by
  cases fuel with
  | zero => rfl
  | succ fuel => rw [stringListFrom, stringListFrom, ← skip_blank [32] rest rfl, List.singleton_append]

theorem quote_peek (text rest : Bytes) : peek (runes (sieveQuote text ++ rest)) = 34 := by
  rw [sieveQuote, List.cons_append, List.cons_append, runes_ascii_cons 34 _ (by decide)]
  rfl

section

variable (depth : Nat) (byte : UInt8) (item : Item) (name : Bytes) (items : List Item)
  (rest : Bytes)

theorem ascii_peek (small : byte < 0x80) : peek (runes (byte :: rest)) = byte.toNat := by
  rw [runes_ascii_cons byte rest small]
  rfl

theorem ascii_advance (small : byte < 0x80) : advance (runes (byte :: rest)) = runes rest := by
  rw [runes_ascii_cons byte rest small]
  rfl

theorem string_list_reads (texts : List Bytes) (rest : Bytes) :
    Settles (fun fuel => stringListFrom fuel
      (runes (List.intercalate (ascii ", ") (texts.map sieveQuote) ++ 93 :: rest)))
        (texts.map literal, runes rest) := by
  induction texts with
  | nil =>
    refine settles_succ (settles_congr (settles_const rfl) fun fuel => ?_)
    simp only [List.map_nil, List.intercalate_nil, List.nil_append, stringListFrom]
    rw [skip_at_token (by rw [ascii_peek 93 rest (by decide)]; decide)]
    simp only [bind, Except.bind]
    rw [ascii_peek 93 rest (by decide), ascii_advance 93 rest (by decide)]
    rfl
  | cons text texts ih =>
    -- after the literal stands a comma and the next one, or the bracket
    have step : ∀ (after : Bytes) (items : List Bytes) (left : Text),
        beginsToken (peek (runes after)) = true →
        Settles (fun fuel => if peek (runes after) = 44 then
            stringListFrom fuel (advance (runes after)) >>= fun found =>
              .ok (literal text :: found.1, found.2)
          else if peek (runes after) = 93 then .ok ([literal text], advance (runes after))
          else .error .expectedCommaOrBracket) (items, left) →
        Settles (fun fuel => stringListFrom fuel (runes (sieveQuote text ++ after))) (items, left) := by
      intro after items left token settled
      refine settles_succ (settles_congr settled fun fuel => ?_)
      rw [stringListFrom, skip_at_token (by rw [quote_peek]; decide)]
      simp only [bind, Except.bind]
      rw [if_neg (by rw [quote_peek]; decide), literal_reads]
      dsimp only
      rw [skip_at_token token]
    cases texts with
    | nil =>
      have single : List.intercalate (ascii ", ") (List.map sieveQuote [text]) ++ 93 :: rest =
          sieveQuote text ++ 93 :: rest := by
        simp [List.intercalate]
      rw [single]
      refine step _ _ _ (by rw [ascii_peek 93 rest (by decide)]; decide) ?_
      rw [ascii_peek 93 rest (by decide), ascii_advance 93 rest (by decide)]
      exact settles_const rfl
    | cons next texts =>
      have more : List.intercalate (ascii ", ") (List.map sieveQuote (text :: next :: texts)) ++
          93 :: rest = sieveQuote text ++ 44 :: 32 ::
            (List.intercalate (ascii ", ") (List.map sieveQuote (next :: texts)) ++ 93 :: rest) := by
        rw [List.map_cons, List.map_cons, List.intercalate_cons_cons]
        simp only [List.append_assoc]
        rfl
      rw [more]
      refine step _ _ _ (by rw [ascii_peek 44 _ (by decide)]; decide) ?_
      rw [ascii_peek 44 _ (by decide), ascii_advance 44 _ (by decide)]
      refine settles_pos rfl ?_
      simp only [string_list_blank]
      exact settles_bind ih (settles_const rfl)

theorem item_peek : startsArgument (peek (runes (item.text ++ rest))) = true ∧
      beginsToken (peek (runes (item.text ++ rest))) = true ∧
        peek (runes (item.text ++ rest)) ≠ 59 ∧ peek (runes (item.text ++ rest)) ≠ 123 ∧
          peek (runes (item.text ++ rest)) ≠ 44 ∧ peek (runes (item.text ++ rest)) ≠ 41 := by
  cases item with
  | tag word =>
    rw [Item.text, List.cons_append, ascii_peek 58 _ (by decide)]
    decide
  | quoted text =>
    rw [Item.text, quote_peek]
    decide
  | quotedList texts =>
    rw [Item.text, List.cons_append, ascii_peek 91 _ (by decide)]
    decide

theorem item_reads (plain : item.isPlain = true) (rest : Bytes)
    (ends : isIdentPart (peek (runes rest)) = false) :
    Settles (fun fuel => parseArgument fuel (runes (item.text ++ rest)))
      (item.argument, runes rest) := by
  unfold parseArgument
  refine settles_bind (settles_const (skip_at_token (item_peek item rest).2.1)) ?_
  cases item with
  | tag word =>
    rw [Item.text, List.cons_append, ascii_peek 58 _ (by decide), ascii_advance 58 _ (by decide)]
    refine settles_pos rfl ?_
    exact settles_bind (settles_const (identifier_reads word rest plain ends)) (settles_const rfl)
  | quoted text =>
    rw [Item.text, quote_peek]
    refine settles_neg (by decide) (settles_pos rfl ?_)
    exact settles_bind (settles_const (literal_reads text rest)) (settles_const rfl)
  | quotedList texts =>
    rw [Item.text, List.cons_append, ascii_peek 91 _ (by decide), ascii_advance 91 _ (by decide),
      List.append_assoc, List.singleton_append]
    refine settles_neg (by decide) (settles_neg (by decide) (settles_neg (by decide) ?_))
    refine settles_pos (by decide) ?_
    exact settles_bind (string_list_reads texts rest) (settles_const rfl)

def itemsText (items : List Item) : Bytes := items.flatMap fun item => 32 :: item.text

theorem items_end_word (ends : isIdentPart (peek (runes rest)) = false) :
    isIdentPart (peek (runes (itemsText items ++ rest))) = false := by
  cases items with
  | nil => exact ends
  | cons item items =>
    rw [itemsText, List.flatMap_cons, List.cons_append, List.cons_append, ascii_peek 32 _ (by decide)]
    decide

theorem items_text_cons :
    itemsText (item :: items) ++ rest = [32] ++ (item.text ++ (itemsText items ++ rest)) := by
  simp [itemsText]

/-- What may follow a test, and what the parser stands at after white space. -/
structure Ends (rest : Bytes) (ended : Text) : Prop where
  skipped : skipWhitespaceAndComments (runes rest) = .ok ended
  again : skipWhitespaceAndComments ended = .ok ended
  some : ended ≠ []
  delimiter : peek ended = 44 ∨ peek ended = 41 ∨ peek ended = 123 ∨ peek ended = 59
  word : isIdentPart (peek (runes rest)) = false

theorem ends_at (blank rest : Bytes) (spaces : isBlank blank = true)
    (delimits : byte = 44 ∨ byte = 41 ∨ byte = 123 ∨ byte = 59) :
    Ends (blank ++ byte :: rest) (runes (byte :: rest)) := by
  have small : byte < 0x80 := by rcases delimits with rfl | rfl | rfl | rfl <;> decide
  have at_token : skipWhitespaceAndComments (runes (byte :: rest)) = .ok (runes (byte :: rest)) := by
    refine skip_at_token ?_
    rw [ascii_peek byte rest small]
    rcases delimits with rfl | rfl | rfl | rfl <;> decide
  refine ⟨?_, at_token, ?_, ?_, ?_⟩
  · rw [skip_blank blank _ spaces, at_token]
  · rw [runes_ascii_cons byte rest small]
    exact List.cons_ne_nil _ _
  · rw [ascii_peek byte rest small]
    rcases delimits with rfl | rfl | rfl | rfl <;> decide
  · cases blank with
    | nil =>
      rw [List.nil_append, ascii_peek byte rest small]
      rcases delimits with rfl | rfl | rfl | rfl <;> decide
    | cons space blank =>
      rw [isBlank, List.all_cons, Bool.and_eq_true, Bool.or_eq_true, beq_iff_eq, beq_iff_eq] at spaces
      rw [List.cons_append, ascii_peek space _ (by rcases spaces.1 with rfl | rfl <;> decide)]
      rcases spaces.1 with rfl | rfl <;> decide

theorem test_arguments_read (plain : ∀ item ∈ items, item.isPlain = true) {rest : Bytes}
    {ended : Text} (ends : Ends rest ended) :
    Settles (fun fuel => testArguments fuel name (runes (itemsText items ++ rest)))
      (items.map Item.argument, ended) := by
  induction items with
  | nil =>
    refine settles_succ ?_
    simp only [testArguments]
    refine settles_bind (settles_const ends.skipped) (settles_neg ends.some ?_)
    exact settles_pos ends.delimiter (settles_const rfl)
  | cons item items ih =>
    obtain ⟨starts, token, semicolon, brace, comma, paren⟩ :=
      item_peek item (itemsText items ++ rest)
    refine settles_succ ?_
    rw [items_text_cons]
    simp only [testArguments]
    refine settles_bind (settles_const ((skip_blank [32] _ rfl).trans (skip_at_token token))) ?_
    refine settles_neg ?_ (settles_neg ?_ (settles_pos starts ?_))
    · intro empty
      rw [empty] at starts
      cases starts
    · rintro (same | same | same | same)
      · exact comma same
      · exact paren same
      · exact brace same
      · exact semicolon same
    · have word := items_end_word items rest ends.word
      refine settles_bind (item_reads item (plain item (by simp)) _ word) ?_
      exact settles_bind (ih fun other member => plain other (by simp [member])) (settles_const rfl)

def ReadsTest (depth : Nat) (text : Bytes) (test : Test) : Prop :=
  ∀ rest ended, Ends rest ended → ∃ left, skipWhitespaceAndComments left = .ok ended ∧
    Settles (fun fuel => parseTest fuel depth (runes (text ++ rest))) (test, left)

def specialTests : List Bytes := ["allof", "anyof", "not", "true", "false"].map ascii

theorem leaf_test_reads (wordly : isWord name = true)
    (ordinary : specialTests.contains (toLower name) = false)
    (plain : ∀ item ∈ items, item.isPlain = true) :
    ReadsTest depth (name ++ itemsText items) ⟨toLower name, items.map Item.argument, []⟩ := by
  intro rest ended ends
  refine ⟨ended, ends.again, settles_succ ?_⟩
  have other : ∀ special ∈ specialTests, toLower name ≠ special := by
    intro special member same
    rw [same, List.contains_iff_mem.mpr member] at ordinary
    cases ordinary
  rw [List.append_assoc]
  simp only [parseTest]
  refine settles_bind (settles_const
    (identifier_reads name _ wordly (items_end_word items rest ends.word))) ?_
  refine settles_neg ?_ (settles_neg (other _ (by decide)) (settles_neg ?_ ?_))
  · exact not_or.mpr ⟨other _ (by decide), other _ (by decide)⟩
  · exact not_or.mpr ⟨other _ (by decide), other _ (by decide)⟩
  · exact settles_bind (test_arguments_read _ items plain ends) (settles_const rfl)

theorem true_test_reads : ReadsTest depth (ascii "true") ⟨ascii "true", [], []⟩ := by
  intro rest ended ends
  refine ⟨runes rest, ends.skipped, settles_succ ?_⟩
  simp only [parseTest]
  refine settles_bind (settles_const (identifier_reads (ascii "true") rest (by decide) ends.word)) ?_
  have lower : toLower (ascii "true") = ascii "true" := by decide
  simp only [lower]
  exact settles_neg (by decide) (settles_neg (by decide) (settles_pos (by decide) (settles_const rfl)))

/-- How the text of a test begins: with a letter, and not as a `text:` block. -/
def testHead (text : Bytes) : Bool :=
  match text with
  | first :: second :: _ =>
    first < 0x80 && second < 0x80 && isIdentStart first.toNat && !(first == 116 && second == 101)
  | _ => false

theorem test_head_peek (text rest : Bytes) (head : testHead text = true) :
    isIdentStart (peek (runes (text ++ rest))) = true ∧ startsText (runes (text ++ rest)) = false := by
  match text, head with
  | first :: second :: tail, head =>
    simp only [testHead, Bool.and_eq_true, decide_eq_true_eq, Bool.not_eq_true', Bool.and_eq_false_iff,
      beq_eq_false_iff_ne] at head
    obtain ⟨⟨⟨small, alsoSmall⟩, starts⟩, other⟩ := head
    rw [List.cons_append, List.cons_append, runes_ascii_cons first _ small,
      runes_ascii_cons second _ alsoSmall]
    refine ⟨starts, ?_⟩
    rw [startsText, decide_eq_false_iff_not]
    intro same
    have heads : first.toNat = 116 ∧ second.toNat = 101 := by
      simp only [List.take_succ_cons, List.map_cons] at same
      injection same with one later
      injection later with two _
      exact ⟨one, two⟩
    rcases other with not | not
    · exact not (UInt8.toNat_inj.mp heads.1)
    · exact not (UInt8.toNat_inj.mp heads.2)

theorem ident_runes (rune : Nat) (starts : isIdentStart rune = true) :
    rune ≠ 41 ∧ rune ≠ 59 ∧ rune ≠ 123 ∧ rune ≠ 125 ∧ startsArgument rune = false ∧
    rune ≠ runeError := by
  have letters : ∀ rune : Fin 123, isIdentStart rune.val = true → rune.val ≠ 41 ∧ rune.val ≠ 59 ∧
      rune.val ≠ 123 ∧ rune.val ≠ 125 ∧ startsArgument rune.val = false ∧ rune.val ≠ runeError := by
    decide
  exact letters ⟨rune, ident_small rune starts⟩ starts

theorem test_list_blank (fuel depth : Nat) (blank rest : Bytes) (spaces : isBlank blank = true) :
    testListFrom fuel depth (runes (blank ++ rest)) = testListFrom fuel depth (runes rest) := by
  cases fuel with
  | zero => rfl
  | succ fuel => rw [testListFrom, testListFrom, skip_blank blank rest spaces]

theorem test_list_reads (blank : Bytes) (spaces : isBlank blank = true)
    (tests : List (Bytes × Test))
    (read : ∀ test ∈ tests, testHead test.1 = true ∧ ReadsTest depth test.1 test.2) (rest : Bytes) :
    Settles (fun fuel => testListFrom fuel depth
      (runes (List.intercalate (44 :: blank) (tests.map Prod.fst) ++ 41 :: rest)))
        (tests.map Prod.snd, runes rest) := by
  induction tests with
  | nil =>
    refine settles_succ ?_
    simp only [List.map_nil, List.intercalate_nil, List.nil_append, testListFrom]
    refine settles_bind (settles_const (ends_at 41 [] rest rfl (by decide)).again) ?_
    rw [ascii_peek 41 rest (by decide), ascii_advance 41 rest (by decide)]
    exact settles_pos rfl (settles_const rfl)
  | cons test tests ih =>
    obtain ⟨head, reads⟩ := read test (by simp)
    have later := ih fun other member => read other (by simp [member])
    -- after the test stands a comma and the next one, or the parenthesis
    have step : ∀ (byte : UInt8) (after : Bytes) (found : List Test) (left : Text),
        byte = 44 ∨ byte = 41 →
        Settles (fun fuel => if byte.toNat = 44 then
            testListFrom fuel depth (runes after) >>= fun tests =>
              .ok (test.2 :: tests.1, tests.2)
          else if byte.toNat = 41 then .ok ([test.2], runes after)
          else .error .expectedCommaOrParen) (found, left) →
        Settles (fun fuel => testListFrom fuel depth (runes (test.1 ++ byte :: after)))
          (found, left) := by
      intro byte after found left delimits settled
      have small : byte < 0x80 := by rcases delimits with rfl | rfl <;> decide
      have ends : Ends (byte :: after) (runes (byte :: after)) :=
        ends_at byte [] after rfl (by rcases delimits with rfl | rfl <;> decide)
      obtain ⟨ended, skipped, parsed⟩ := reads _ _ ends
      obtain ⟨starts, _⟩ := test_head_peek test.1 (byte :: after) head
      refine settles_succ ?_
      simp only [testListFrom]
      refine settles_bind (settles_const (skip_at_token (ident_begins_token _ starts))) ?_
      refine settles_neg (ident_runes _ starts).1 (settles_bind parsed ?_)
      refine settles_bind (settles_const skipped) ?_
      rw [ascii_peek byte after small, ascii_advance byte after small]
      exact settled
    cases tests with
    | nil =>
      simp only [List.map_cons, List.map_nil, List.intercalate_singleton]
      exact step 41 rest _ _ (by decide) (settles_neg (by decide) (settles_pos rfl (settles_const rfl)))
    | cons next tests =>
      simp only [List.map_cons, List.intercalate_cons_cons, List.append_assoc, List.cons_append]
      refine step 44 _ _ _ (by decide) (settles_pos rfl ?_)
      simp only [test_list_blank _ _ blank _ spaces]
      exact settles_bind later (settles_const rfl)

theorem group_test_reads (name blank : Bytes) (group : name = ascii "allof" ∨ name = ascii "anyof")
    (spaces : isBlank blank = true) (tests : List (Bytes × Test))
    (shallow : depth + 1 ≤ defaultMaxNestingDepth)
    (read : ∀ test ∈ tests, testHead test.1 = true ∧ ReadsTest (depth + 1) test.1 test.2) :
    ReadsTest depth (name ++ ascii " (" ++
      List.intercalate (44 :: blank) (tests.map Prod.fst) ++ ascii ")")
      ⟨name, [], tests.map Prod.snd⟩ := by
  intro rest ended ends
  refine ⟨runes rest, ends.skipped, settles_succ ?_⟩
  have wordly : isWord name = true ∧ toLower name = name := by rcases group with rfl | rfl <;> decide
  have written : name ++ ascii " (" ++ List.intercalate (44 :: blank) (tests.map Prod.fst) ++
    ascii ")" ++ rest =
      name ++ 32 :: 40 :: (List.intercalate (44 :: blank) (tests.map Prod.fst) ++ 41 :: rest) := by
    simp only [List.append_assoc]
    rfl
  rw [written]
  simp only [parseTest]
  refine settles_bind (settles_const (identifier_reads name _ wordly.1 ?_)) ?_
  · rw [ascii_peek 32 _ (by decide)]
    decide
  simp only [wordly.2]
  refine settles_pos group ?_
  have opened : skipWhitespaceAndComments
      (runes (32 :: 40 :: (List.intercalate (44 :: blank) (tests.map Prod.fst) ++ 41 :: rest))) =
        .ok (runes (40 :: (List.intercalate (44 :: blank) (tests.map Prod.fst) ++ 41 :: rest))) := by
    refine (skip_blank [32] _ rfl).trans (skip_at_token ?_)
    rw [ascii_peek 40 _ (by decide)]
    decide
  refine settles_bind (settles_const opened) ?_
  rw [ascii_peek 40 _ (by decide), ascii_advance 40 _ (by decide)]
  refine settles_pos rfl (settles_bind (settles_const (if_neg (Nat.not_lt.mpr shallow))) ?_)
  exact settles_bind (test_list_reads (depth + 1) blank spaces tests read rest) (settles_const rfl)

def ReadsCommand (depth : Nat) (text : Bytes) (command : Command) : Prop :=
  ∀ rest, Settles (fun fuel => parseCommand fuel depth (runes (text ++ rest))) (command, runes rest)

theorem command_arguments_read (command : Command) (items : List Item)
    (plain : ∀ item ∈ items, item.isPlain = true) (rest : Bytes) :
    Settles (fun fuel => commandFrom fuel depth command (runes (itemsText items ++ 59 :: rest)))
      ({ command with args := command.args ++ items.map Item.argument }, runes rest) := by
  induction items generalizing command with
  | nil =>
    have ends := ends_at 59 [] rest rfl (by decide)
    refine settles_succ ?_
    simp only [commandFrom]
    refine settles_bind (settles_const ends.again) (settles_neg ends.some ?_)
    rw [ascii_peek 59 rest (by decide), ascii_advance 59 rest (by decide)]
    refine settles_pos rfl (settles_const ?_)
    rw [List.map_nil, List.append_nil]
    cases command
    rfl
  | cons item items ih =>
    obtain ⟨starts, token, semicolon, brace, _⟩ := item_peek item (itemsText items ++ 59 :: rest)
    refine settles_succ ?_
    rw [items_text_cons]
    simp only [commandFrom]
    refine settles_bind (settles_const ((skip_blank [32] _ rfl).trans (skip_at_token token))) ?_
    refine settles_neg ?_ (settles_neg semicolon (settles_neg brace (settles_pos (Or.inl starts) ?_)))
    · intro empty
      rw [empty] at starts
      cases starts
    have word := items_end_word items (59 :: rest) (by rw [ascii_peek 59 rest (by decide)]; decide)
    refine settles_bind (item_reads item (plain item (by simp)) _ word) ?_
    have later := ih { command with args := command.args ++ [item.argument] }
      fun other member => plain other (by simp [member])
    rw [List.append_assoc] at later
    exact later

theorem simple_command_reads (wordly : isWord name = true)
    (plain : ∀ item ∈ items, item.isPlain = true) :
    ReadsCommand depth (name ++ itemsText items ++ [59])
      ⟨toLower name, items.map Item.argument, none, []⟩ := by
  intro rest
  rw [List.append_assoc, List.append_assoc, List.singleton_append]
  refine settles_succ ?_
  simp only [parseCommand]
  have word := items_end_word items (59 :: rest) (by rw [ascii_peek 59 rest (by decide)]; decide)
  refine settles_bind (settles_const (identifier_reads name _ wordly word)) ?_
  exact command_arguments_read depth ⟨toLower name, [], none, []⟩ items plain rest

def ReadsBlock (depth : Nat) (text : Bytes) (block : List Command) : Prop :=
  ∀ rest, Settles (fun fuel => blockFrom fuel depth (runes (text ++ 125 :: rest))) (block, runes rest)

theorem empty_block_reads : ReadsBlock depth [] [] := by
  intro rest
  refine settles_succ ?_
  have token : beginsToken (peek (runes (125 :: rest))) = true := by
    rw [ascii_peek 125 rest (by decide)]
    decide
  simp only [List.nil_append, blockFrom]
  refine settles_bind (settles_const (skip_at_token token)) (settles_neg ?_ ?_)
  · rw [runes_ascii_cons 125 rest (by decide)]
    exact List.cons_ne_nil _ _
  rw [ascii_peek 125 rest (by decide), ascii_advance 125 rest (by decide)]
  exact settles_pos rfl (settles_const rfl)

theorem block_blank (fuel depth : Nat) (blank rest : Bytes) (spaces : isBlank blank = true) :
    blockFrom fuel depth (runes (blank ++ rest)) = blockFrom fuel depth (runes rest) := by
  cases fuel with
  | zero => rfl
  | succ fuel => rw [blockFrom, blockFrom, skip_blank blank rest spaces]

theorem blank_block_reads (blank text : Bytes) (block : List Command)
    (spaces : isBlank blank = true) (read : ReadsBlock depth text block) :
    ReadsBlock depth (blank ++ text) block := by
  intro rest
  refine settles_congr (read rest) fun fuel => ?_
  rw [List.append_assoc, block_blank fuel depth blank _ spaces]

theorem block_reads (text more : Bytes) (command : Command) (block : List Command)
    (starts : ∀ rest, isIdentStart (peek (runes (text ++ rest))) = true)
    (first : ReadsCommand depth text command) (later : ReadsBlock depth more block) :
    ReadsBlock depth (text ++ more) (command :: block) := by
  intro rest
  refine settles_succ ?_
  rw [List.append_assoc]
  have begins := starts (more ++ 125 :: rest)
  simp only [blockFrom]
  refine settles_bind (settles_const (skip_at_token (ident_begins_token _ begins))) ?_
  refine settles_neg ?_ (settles_neg (ident_runes _ begins).2.2.2.1 ?_)
  · intro empty
    rw [empty] at begins
    cases begins
  · exact settles_bind (first _) (settles_bind (later rest) (settles_const rfl))

theorem if_command_reads (condition body : Bytes) (test : Test) (block : List Command)
    (shallow : depth + 1 ≤ defaultMaxNestingDepth) (head : testHead condition = true)
    (tested : ReadsTest depth condition test) (read : ReadsBlock (depth + 1) body block) :
    ReadsCommand depth (ascii "if " ++ condition ++ ascii " \x7b\n" ++ body ++ ascii "\x7d")
      ⟨ascii "if", [], some test, block⟩ := by
  intro rest
  have written : ascii "if " ++ condition ++ ascii " \x7b\n" ++ body ++ ascii "\x7d" ++ rest =
      ascii "if" ++ 32 :: (condition ++ ([32] ++ 123 :: 10 :: (body ++ 125 :: rest))) := by
    simp only [List.append_assoc]
    rfl
  have ends := ends_at 123 [32] (10 :: (body ++ 125 :: rest)) rfl (by decide)
  obtain ⟨starts, notText⟩ := test_head_peek condition ([32] ++ 123 :: 10 :: (body ++ 125 :: rest)) head
  obtain ⟨_, semicolon, brace, _, argument, _⟩ := ident_runes _ starts
  obtain ⟨left, skipped, parsed⟩ := tested _ _ ends
  rw [written]
  refine settles_succ ?_
  simp only [parseCommand]
  refine settles_bind (settles_const (identifier_reads (ascii "if") _ (by decide) ?_)) (settles_succ ?_)
  · rw [ascii_peek 32 _ (by decide)]
    decide
  simp only [commandFrom]
  have begins := (skip_blank [32] _ rfl).trans (skip_at_token (ident_begins_token _ starts))
  refine settles_bind (settles_const begins)
    (settles_neg ?_ (settles_neg semicolon (settles_neg brace ?_)))
  · intro empty
    rw [empty] at starts
    cases starts
  refine settles_neg (by rw [argument, notText]; decide)
    (settles_pos starts (settles_neg (by decide) ?_))
  refine settles_bind parsed (settles_succ ?_)
  simp only [commandFrom]
  refine settles_bind (settles_const skipped) (settles_neg ends.some ?_)
  rw [ascii_peek 123 _ (by decide), ascii_advance 123 _ (by decide)]
  refine settles_neg (by decide) (settles_pos rfl ?_)
  refine settles_bind (settles_const (if_neg (Nat.not_lt.mpr shallow))) ?_
  have inside := blank_block_reads (depth + 1) [10] body block rfl read rest
  exact settles_bind inside (settles_const rfl)

end

theorem script_blank (fuel : Nat) (blank rest : Bytes) (spaces : isBlank blank = true) :
    scriptFrom fuel (runes (blank ++ rest)) = scriptFrom fuel (runes rest) := by
  cases fuel with
  | zero => rfl
  | succ fuel => rw [scriptFrom, scriptFrom, skip_blank blank rest spaces]

theorem script_reads (text rest : Bytes) (command : Command) (script : Script)
    (starts : ∀ rest, isIdentStart (peek (runes (text ++ rest))) = true)
    (other : command.name ≠ ascii "require") (first : ReadsCommand 0 text command)
    (later : Settles (fun fuel => scriptFrom fuel (runes rest)) script) :
    Settles (fun fuel => scriptFrom fuel (runes (text ++ rest)))
      { script with commands := command :: script.commands } := by
  have begins := starts rest
  refine settles_succ ?_
  simp only [scriptFrom]
  refine settles_bind (settles_const (skip_at_token (ident_begins_token _ begins))) (settles_neg ?_ ?_)
  · intro empty
    rw [empty] at begins
    cases begins
  · exact settles_bind (first rest) (settles_neg other (settles_bind later (settles_const rfl)))

theorem script_requires (text rest : Bytes) (command : Command) (names : List Bytes) (script : Script)
    (starts : ∀ rest, isIdentStart (peek (runes (text ++ rest))) = true)
    (require : command.name = ascii "require") (named : requireNames command = .ok names)
    (first : ReadsCommand 0 text command)
    (later : Settles (fun fuel => scriptFrom fuel (runes rest)) script) :
    Settles (fun fuel => scriptFrom fuel (runes (text ++ rest)))
      { script with requires := names ++ script.requires } := by
  have begins := starts rest
  refine settles_succ ?_
  simp only [scriptFrom]
  refine settles_bind (settles_const (skip_at_token (ident_begins_token _ begins))) (settles_neg ?_ ?_)
  · intro empty
    rw [empty] at begins
    cases begins
  · refine settles_bind (first rest) (settles_pos require ?_)
    exact settles_bind (settles_const named) (settles_bind later (settles_const rfl))

end Herold.Sieve

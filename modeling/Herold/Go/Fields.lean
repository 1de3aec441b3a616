import Herold.Go.Strings
import Herold.Go.Utf8
import Mathlib.Algebra.GroupWithZero.Nat

/-!
# Fields joined again

Decoding a piece that was cut between two runes gives the runes of the piece. So the
fields of a text, joined by single spaces, are the fields of the joined text, and
folding white space is done after one pass.
-/

namespace Herold.Go

theorem decode_rune_cut (first : UInt8) (front back : Bytes)
    (inside : (decodeRune (first :: (front ++ back))).2 ≤ front.length + 1) :
    decodeRune (first :: front) = decodeRune (first :: (front ++ back)) := by
  rcases front with _ | ⟨second, _ | ⟨third, _ | ⟨fourth, front⟩⟩⟩
  · rcases back with _ | ⟨second, _ | ⟨third, _ | ⟨fourth, back⟩⟩⟩ <;>
      simp only [decodeRune, List.nil_append] at inside ⊢ <;> split_ifs at inside ⊢ <;>
      first | (exfalso; simp at inside; done) | rfl
  · rcases back with _ | ⟨third, _ | ⟨fourth, back⟩⟩ <;>
      simp only [decodeRune, List.cons_append, List.nil_append] at inside ⊢ <;>
        split_ifs at inside ⊢ <;>
      first | (exfalso; simp at inside; done) | rfl
  · rcases back with _ | ⟨fourth, back⟩ <;>
      simp only [decodeRune, List.cons_append, List.nil_append] at inside ⊢ <;>
        split_ifs at inside ⊢ <;>
      first | (exfalso; simp at inside; done) | rfl
  · rfl

theorem runes_cons (first : UInt8) (rest : Bytes) :
    runes (first :: rest) =
      ((decodeRune (first :: rest)).1, (first :: rest).take (decodeRune (first :: rest)).2) ::
        runes ((first :: rest).drop (decodeRune (first :: rest)).2) := by
  have width := decode_rune_width_le first rest
  obtain ⟨less, isSucc⟩ := Nat.exists_eq_succ_of_ne_zero (decode_rune_width_pos first rest)
  rw [runes, runesFrom, isSucc]
  have split := List.take_append_drop less rest
  have length : (rest.take less).length = less := by
    rw [List.length_take]
    omega
  have passed := runes_from_pending (rest.take less) (rest.drop less)
  rw [length, split] at passed
  rw [Nat.succ_sub_one, passed]
  rfl

def bytesOf (items : List (Rune × Bytes)) : Bytes := items.flatMap Prod.snd

theorem bytes_of_cons (item : Rune × Bytes) (items : List (Rune × Bytes)) :
    bytesOf (item :: items) = item.2 ++ bytesOf items := List.flatMap_cons ..

theorem bytes_of_append (front back : List (Rune × Bytes)) :
    bytesOf (front ++ back) = bytesOf front ++ bytesOf back :=
  List.flatMap_append

theorem bytes_of_runes (text : Bytes) : bytesOf (runes text) = text := by
  generalize size : text.length = total
  induction total using Nat.strong_induction_on generalizing text with
  | _ total ih =>
    cases text with
    | nil => rfl
    | cons first rest =>
      have pos := Nat.pos_of_ne_zero (decode_rune_width_pos first rest)
      have shorter : ((first :: rest).drop (decodeRune (first :: rest)).2).length < total := by
        rw [List.length_drop, ← size, List.length_cons]
        omega
      rw [runes_cons, bytes_of_cons, ih _ shorter _ rfl, List.take_append_drop]

def Decoded (items : List (Rune × Bytes)) : Prop := runes (bytesOf items) = items

theorem decoded_front (text : Bytes) {front back : List (Rune × Bytes)}
    (split : runes text = front ++ back) :
    Decoded front := by
  induction front generalizing text with
  | nil => rfl
  | cons item front ih =>
    cases text with
    | nil => cases split
    | cons first rest =>
      rw [runes_cons, List.cons_append] at split
      obtain ⟨rfl, later⟩ := List.cons.inj split
      have decoded := ih _ later
      have whole := bytes_of_runes ((first :: rest).drop (decodeRune (first :: rest)).2)
      rw [later, bytes_of_append] at whole
      have width := decode_rune_width_le first rest
      obtain ⟨less, isSucc⟩ := Nat.exists_eq_succ_of_ne_zero (decode_rune_width_pos first rest)
      -- the bytes of the front part begin the text
      have text : first :: rest = first :: ((rest.take less ++ bytesOf front) ++ bytesOf back) := by
        rw [List.append_assoc, whole, isSucc, List.drop_succ_cons, List.take_append_drop]
      have same : decodeRune (first :: (rest.take less ++ bytesOf front)) =
        decodeRune (first :: rest) := by
        rw [text]
        refine decode_rune_cut first _ _ ?_
        rw [← text, isSucc, List.length_append, List.length_take]
        omega
      have length : (rest.take less).length = less := by
        rw [List.length_take]
        omega
      unfold Decoded
      rw [bytes_of_cons]
      change runes ((first :: rest).take (decodeRune (first :: rest)).2 ++ bytesOf front) = _
      rw [isSucc, List.take_succ_cons, List.cons_append, runes_cons, same, isSucc, List.take_succ_cons,
        List.drop_succ_cons, List.take_append_of_le_length (Nat.le_of_eq length.symm),
        List.drop_append_of_le_length (Nat.le_of_eq length.symm)]
      rw [List.take_take, Nat.min_self, List.drop_eq_nil_of_le (Nat.le_of_eq length),
        List.nil_append, decoded]

theorem decoded_back (text : Bytes) {front back : List (Rune × Bytes)}
    (split : runes text = front ++ back) :
    Decoded back := by
  induction front generalizing text with
  | nil =>
    rw [List.nil_append] at split
    unfold Decoded
    rw [← split, bytes_of_runes]
  | cons item front ih =>
    cases text with
    | nil => cases split
    | cons first rest =>
      rw [runes_cons, List.cons_append] at split
      exact ih _ (List.cons.inj split).2

theorem decoded_inside (text : Bytes) {items : List (Rune × Bytes)} (inside : items <:+: runes text) :
    Decoded items := by
  obtain ⟨front, back, split⟩ := inside
  rw [List.append_assoc] at split
  have behind := decoded_back text split.symm
  exact decoded_front _ behind

def fieldsOf (items : List (Rune × Bytes)) : List Bytes :=
  if (takeFields items).2 = [] then (takeFields items).1
    else (takeFields items).2 :: (takeFields items).1

section

variable (text : Bytes) {item : Rune × Bytes} (items : List (Rune × Bytes))

theorem fields_eq : fields text = fieldsOf (runes text) := rfl

theorem take_fields_space (space : isSpace item = true) :
    takeFields (item :: items) = (fieldsOf items, []) := by
  simp only [takeFields, if_pos space, fieldsOf]

theorem take_fields_word (word : isSpace item = false) :
    takeFields (item :: items) = ((takeFields items).1, item.2 ++ (takeFields items).2) := by
  simp only [takeFields, word, Bool.false_eq_true, if_false]

def IsWord (items : List (Rune × Bytes)) (field : Bytes) : Prop :=
  ∃ word, word <:+: items ∧ (∀ item ∈ word, isSpace item = false) ∧ field = bytesOf word

theorem IsWord.later {items : List (Rune × Bytes)} {field : Bytes} :
    IsWord items field → IsWord (item :: items) field := by
  rintro ⟨word, inside, plain, rfl⟩
  exact ⟨word, inside.trans (List.suffix_cons item items).isInfix, plain, rfl⟩

theorem take_fields_words : (∀ field ∈ (takeFields items).1, field ≠ [] ∧ IsWord items field) ∧
      ∃ word, word <+: items ∧ (∀ item ∈ word, isSpace item = false) ∧
      (takeFields items).2 = bytesOf word := by
  induction items with
  | nil => exact ⟨fun field member => absurd member List.not_mem_nil, [], List.prefix_rfl, by simp, rfl⟩
  | cons item items ih =>
    obtain ⟨done, word, front, plain, current⟩ := ih
    cases space : isSpace item with
    | true =>
      rw [take_fields_space items space]
      refine ⟨?_, [], List.nil_prefix, by simp, rfl⟩
      intro field member
      unfold fieldsOf at member
      split_ifs at member with empty
      · exact ⟨(done field member).1, (done field member).2.later⟩
      · rcases List.mem_cons.mp member with rfl | later
        · exact ⟨empty, IsWord.later ⟨word, front.isInfix, plain, current⟩⟩
        · exact ⟨(done field later).1, (done field later).2.later⟩
    | false =>
      rw [take_fields_word items space]
      refine ⟨fun field member => ⟨(done field member).1, (done field member).2.later⟩,
        item :: word, ?_, ?_, ?_⟩
      · exact List.cons_prefix_cons.mpr ⟨rfl, front⟩
      · intro other member
        rcases List.mem_cons.mp member with rfl | later
        · exact space
        · exact plain other later
      · rw [current]
        rfl

theorem fields_words :
    ∀ field ∈ fields text, field ≠ [] ∧ ∀ item ∈ runes field, isSpace item = false := by
  have decodes : ∀ field, IsWord (runes text) field → ∀ item ∈ runes field, isSpace item = false := by
    rintro field ⟨word, inside, plain, rfl⟩
    rw [show runes (bytesOf word) = word from decoded_inside text inside]
    exact plain
  obtain ⟨done, word, front, plain, current⟩ := take_fields_words (runes text)
  intro field member
  rw [fields_eq, fieldsOf] at member
  split_ifs at member with empty
  · exact ⟨(done field member).1, decodes field (done field member).2⟩
  · rcases List.mem_cons.mp member with rfl | later
    · exact ⟨empty, decodes _ ⟨word, front.isInfix, plain, current⟩⟩
    · exact ⟨(done field later).1, decodes field (done field later).2⟩

/-- `strings.Join(strings.Fields(s), " ")`. -/
def joinFields (parts : List Bytes) : Bytes := [(32 : UInt8)].intercalate parts

theorem take_fields_append (word items : List (Rune × Bytes))
    (plain : ∀ item ∈ word, isSpace item = false) :
    takeFields (word ++ items) = ((takeFields items).1, bytesOf word ++ (takeFields items).2) := by
  induction word with
  | nil => rfl
  | cons item word ih =>
    have later := ih fun other member => plain other (List.mem_cons_of_mem _ member)
    rw [List.cons_append, take_fields_word _ (plain item (List.mem_cons_self ..)), later]
    rw [bytes_of_cons, List.append_assoc]

theorem fields_join (parts : List Bytes)
    (words : ∀ part ∈ parts, part ≠ [] ∧ ∀ item ∈ runes part, isSpace item = false) :
    fields (joinFields parts) = parts := by
  induction parts with
  | nil => rfl
  | cons part parts ih =>
    obtain ⟨nonempty, plain⟩ := words part (List.mem_cons_self ..)
    have later := ih fun other member => words other (List.mem_cons_of_mem _ member)
    rw [fields_eq, fieldsOf] at *
    cases parts with
    | nil =>
      have whole := take_fields_append (runes part) [] plain
      rw [List.append_nil, bytes_of_runes] at whole
      rw [show joinFields [part] = part by simp [joinFields], whole]
      simp [takeFields, nonempty]
    | cons second others =>
      have joined : joinFields (part :: second :: others) = part ++ 32 ::
        joinFields (second :: others) := by
        simp [joinFields, List.intercalate]
      have space : isSpace ((32 : UInt8).toNat, [32]) = true := by decide
      rw [joined, runes_before_ascii part 32 _ (by decide), runes_ascii_cons 32 _ (by decide),
        take_fields_append (runes part) _ plain, take_fields_space _ space, bytes_of_runes]
      rw [← fieldsOf] at later
      simp [nonempty, later]

theorem take_fields_spaces (items spaces : List (Rune × Bytes))
    (blank : ∀ item ∈ spaces, isSpace item = true) :
      takeFields (items ++ spaces) = takeFields items := by
  induction items with
  | nil =>
    induction spaces with
    | nil => rfl
    | cons space spaces ih =>
      have later := ih fun item member => blank item (List.mem_cons_of_mem _ member)
      rw [List.nil_append] at later
      rw [List.nil_append, take_fields_space _ (blank space (List.mem_cons_self ..)), fieldsOf, later]
      rfl
  | cons item items ih => simp only [List.cons_append, takeFields, ih]

theorem fields_of_drop (items : List (Rune × Bytes)) :
    fieldsOf (items.dropWhile isSpace) = fieldsOf items := by
  induction items with
  | nil => rfl
  | cons item items ih =>
    rw [List.dropWhile_cons]
    split
    · rename_i space
      rw [ih]
      conv_rhs => rw [fieldsOf, take_fields_space items space]
      rfl
    · rfl

theorem fields_trim_space : fields (trimSpace text) = fields text := by
  obtain ⟨tail, whole, blank⟩ := drop_trailing_split isSpace ((runes text).dropWhile isSpace)
  have inside : dropTrailing isSpace ((runes text).dropWhile isSpace) <:+: runes text := by
    have front : dropTrailing isSpace ((runes text).dropWhile isSpace) <+:
        (runes text).dropWhile isSpace := ⟨tail, whole.symm⟩
    exact front.isInfix.trans (List.dropWhile_suffix isSpace).isInfix
  have decoded : runes (bytesOf (dropTrailing isSpace ((runes text).dropWhile isSpace))) =
      dropTrailing isSpace ((runes text).dropWhile isSpace) := decoded_inside text inside
  have same := take_fields_spaces (dropTrailing isSpace ((runes text).dropWhile isSpace)) tail blank
  rw [← whole] at same
  have trimmed : trimSpace text = bytesOf (dropTrailing isSpace ((runes text).dropWhile isSpace)) := rfl
  rw [fields_eq, fields_eq, trimmed, decoded, ← fields_of_drop (runes text), fieldsOf, fieldsOf, same]

theorem fields_behind_word (part rest : Bytes) (plain : ∀ item ∈ runes part, isSpace item = false) :
    fields (part ++ 32 :: rest) = (if part = [] then [] else [part]) ++ fields rest := by
  have space : isSpace ((32 : UInt8).toNat, [32]) = true := by decide
  rw [fields_eq, fields_eq, fieldsOf, runes_before_ascii part 32 _ (by decide),
    runes_ascii_cons 32 _ (by decide), take_fields_append (runes part) _ plain,
    take_fields_space _ space, bytes_of_runes, List.append_nil]
  split
  · rfl
  · rfl

theorem fields_of_word (part : Bytes) (plain : ∀ item ∈ runes part, isSpace item = false) :
    fields part = if part = [] then [] else [part] := by
  have whole := take_fields_append (runes part) [] plain
  rw [List.append_nil, bytes_of_runes] at whole
  rw [fields_eq, fieldsOf, whole]
  split
  · rename_i empty
    have none_ : part = [] := by simpa [takeFields] using empty
    simp [none_, takeFields]
  · rename_i filled
    have some_ : part ≠ [] := by simpa [takeFields] using filled
    simp [some_, takeFields]

theorem fields_of_joined_fields : fields (joinFields (fields text)) = fields text :=
  fields_join (fields text) (fields_words text)

end

def spaced (parts : List Bytes) : Nat := (parts.map fun part => part.length + 1).sum

theorem take_fields_length (items : List (Rune × Bytes)) (nonempty : ∀ item ∈ items, item.2 ≠ []) :
    spaced (takeFields items).1 + (takeFields items).2.length ≤ (bytesOf items).length := by
  induction items with
  | nil => exact Nat.le_refl 0
  | cons item items ih =>
    have later := ih fun other member => nonempty other (List.mem_cons_of_mem _ member)
    have pos := List.length_pos_of_ne_nil (nonempty item (List.mem_cons_self ..))
    rw [bytes_of_cons, List.length_append]
    cases space : isSpace item with
    | true =>
      rw [take_fields_space items space]
      have grouped : spaced (fieldsOf items) ≤
          spaced (takeFields items).1 + (takeFields items).2.length + 1 := by
        unfold fieldsOf
        split_ifs
        · omega
        · simp only [spaced, List.map_cons, List.sum_cons]
          omega
      simp only [List.length_nil]
      omega
    | false =>
      rw [take_fields_word items space]
      dsimp only
      rw [List.length_append]
      omega

theorem join_fields_length (parts : List Bytes) : (joinFields parts).length ≤ spaced parts - 1 := by
  induction parts with
  | nil => exact Nat.le_refl 0
  | cons part parts ih =>
    cases parts with
    | nil => simp [joinFields, spaced]
    | cons second others =>
      have joined : joinFields (part :: second :: others) = part ++ 32 ::
        joinFields (second :: others) := by
        simp [joinFields, List.intercalate]
      rw [joined, List.length_append, List.length_cons]
      simp only [spaced, List.map_cons, List.sum_cons] at ih ⊢
      omega

theorem join_fields_of_length (text : Bytes) : (joinFields (fields text)).length ≤ text.length := by
  refine (join_fields_length (fields text)).trans ?_
  have within := take_fields_length (runes text) (rune_bytes 0 text)
  rw [bytes_of_runes] at within
  rw [fields_eq, fieldsOf]
  split_ifs
  · omega
  · simp only [spaced, List.map_cons, List.sum_cons] at within ⊢
    omega

end Herold.Go

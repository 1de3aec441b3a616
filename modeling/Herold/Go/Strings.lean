import Mathlib.Data.List.TakeWhile
import Herold.Go.Unicode

/-!
# The string functions the mail paths share

Positions returned by `strings.Index` and its relatives are only ever used to
slice the text around them, so the searches below return the two slices.
-/

namespace Herold.Go

def hasPrefix (text start : Bytes) : Bool := start.isPrefixOf text

/-- `strings.Index` with the slices before and after the first occurrence. -/
def cutFirst (needle : Bytes) : Bytes → Option (Bytes × Bytes)
  | [] => if needle = [] then some ([], []) else none
  | first :: rest =>
    if hasPrefix (first :: rest) needle then
      some ([], (first :: rest).drop needle.length)
    else (cutFirst needle rest).map fun (before, after) => (first :: before, after)

/-- `strings.IndexByte` with the slices before and after the first occurrence. -/
def cutFirstByte (byte : UInt8) : Bytes → Option (Bytes × Bytes)
  | [] => none
  | first :: rest =>
    if first = byte then some ([], rest)
    else (cutFirstByte byte rest).map fun (before, after) => (first :: before, after)

/-- `strings.LastIndexByte` with the slices before and after the last occurrence. -/
def cutLastByte (byte : UInt8) : Bytes → Option (Bytes × Bytes)
  | [] => none
  | first :: rest =>
    match cutLastByte byte rest with
    | some (before, after) => some (first :: before, after)
    | none => if first = byte then some ([], rest) else none

/-- `strings.SplitN` with a one-byte separator and a positive limit. -/
def splitN (byte : UInt8) : Nat → Bytes → List Bytes
  | 0, _ => []
  | 1, text => [text]
  | limit + 2, text =>
    match cutFirstByte byte text with
    | some (before, after) => before :: splitN byte (limit + 1) after
    | none => [text]

/-- `strings.Split` with a one-byte separator. -/
def splitByte (byte : UInt8) (text : Bytes) : List Bytes := splitN byte (text.length + 1) text

def trimPrefix (text start : Bytes) : Bytes :=
  if hasPrefix text start then text.drop start.length else text

def trimSuffix (text ending : Bytes) : Bytes :=
  if ending.isSuffixOf text then text.take (text.length - ending.length) else text

def equalFold (left right : Bytes) : Bool :=
  (runes left).map (fun rune => foldRune rune.1) = (runes right).map fun rune => foldRune rune.1

/-- `strings.IndexAny` for ASCII characters, with the slices around the first one found. -/
def cutFirstAny (chars : Bytes) : Bytes → Option (Bytes × Bytes)
  | [] => none
  | first :: rest =>
    if first ∈ chars then some ([], rest)
    else (cutFirstAny chars rest).map fun (before, after) => (first :: before, after)

/-- `strings.ContainsAny` for ASCII characters. -/
def containsAny (text chars : Bytes) : Bool := text.any fun byte => byte ∈ chars

/-- `strings.Cut` with a one-byte separator, less its last result. -/
def cut (byte : UInt8) (text : Bytes) : Bytes × Bytes := (cutFirstByte byte text).getD (text, [])

def isSpace (rune : Rune × Bytes) : Bool := isSpaceRune rune.1

def takeFields : List (Rune × Bytes) → List Bytes × Bytes
  | [] => ([], [])
  | rune :: rest =>
    let (done, field) := takeFields rest
    if isSpace rune then (if field = [] then done else field :: done, [])
    else (done, rune.2 ++ field)

def fields (text : Bytes) : List Bytes :=
  let (done, field) := takeFields (runes text)
  if field = [] then done else field :: done

def dropTrailing {Item : Type*} (drop : Item → Bool) (items : List Item) : List Item :=
  (items.reverse.dropWhile drop).reverse

def trimSpace (text : Bytes) : Bytes :=
  (dropTrailing isSpace ((runes text).dropWhile isSpace)).flatMap Prod.snd

def toLower (text : Bytes) : Bytes := mapRunes toLowerRune text

def toUpper (text : Bytes) : Bytes := mapRunes toUpperRune text

section

variable (byte : UInt8) {Item : Type*} (text : Bytes) (drop : Item → Bool)

theorem drop_while_stops (before : List Item)
    (stop : Item) (after : List Item) (kept : drop stop = false) :
    (before ++ stop :: after).dropWhile drop = before.dropWhile drop ++ stop :: after := by
  induction before with
  | nil => simp [kept]
  | cons first before ih =>
    by_cases dropped : drop first = true
    · simp [dropped, ih]
    · simp [dropped]

theorem drop_trailing_stops (before : List Item)
    (stop : Item) (after : List Item) (kept : drop stop = false) :
    dropTrailing drop (before ++ stop :: after) = before ++ stop :: dropTrailing drop after := by
  simp only [dropTrailing, List.reverse_append, List.reverse_cons, List.append_assoc,
    List.singleton_append]
  rw [drop_while_stops drop after.reverse stop before.reverse kept]
  simp

theorem drop_trailing_empty (items : List Item) :
    dropTrailing drop (items.dropWhile drop) = [] ↔ items.all drop = true := by
  rw [dropTrailing, List.reverse_eq_nil_iff, List.dropWhile_eq_nil_iff]
  constructor
  · intro dropped
    rw [List.all_eq_true]
    intro item member
    rw [← List.takeWhile_append_dropWhile (p := drop) (l := items), List.mem_append] at member
    rcases member with early | late
    · exact List.mem_takeWhile_imp early
    · exact dropped item (List.mem_reverse.mpr late)
  · intro all item member
    have member' := (List.dropWhile_sublist drop).subset (List.mem_reverse.mp member)
    exact List.all_eq_true.mp all item member'

theorem drop_trailing_split (items : List Item) :
    ∃ tail, items = dropTrailing drop items ++ tail ∧ ∀ item ∈ tail, drop item = true := by
  refine ⟨(items.reverse.takeWhile drop).reverse, ?_, ?_⟩
  · rw [dropTrailing, ← List.reverse_append, List.takeWhile_append_dropWhile, List.reverse_reverse]
  · intro item member
    exact List.mem_takeWhile_imp (List.mem_reverse.mp member)

theorem trim_space_empty : trimSpace text = [] ↔ (runes text).all isSpace = true := by
  rw [← drop_trailing_empty, trimSpace, List.flatMap_eq_nil_iff]
  constructor
  · intro blank
    refine List.eq_nil_iff_forall_not_mem.mpr fun item member => ?_
    have listed : item ∈ runes text := by
      rw [dropTrailing, List.mem_reverse] at member
      have kept := List.mem_reverse.mp ((List.dropWhile_sublist isSpace).subset member)
      exact (List.dropWhile_sublist isSpace).subset kept
    exact rune_bytes 0 text item listed (blank item member)
  · intro empty item member
    rw [empty] at member
    cases member

theorem runes_bytes_ascii (core : Bytes) (small : ∀ byte ∈ core, byte < 0x80) :
    (runes core).flatMap Prod.snd = core := by
  induction core with
  | nil => rfl
  | cons first core ih =>
    rw [runes_ascii_cons first core (small first (by simp)), List.flatMap_cons,
      ih (by intro byte member; exact small byte (by simp [member]))]
    rfl

/-- Trimming removes nothing of a piece of ASCII that begins and ends with
characters that are not space, whatever surrounds it. -/
theorem trim_space_around_ascii (before : Bytes) (first last : UInt8) (core after : Bytes)
    (firstSmall : first < 0x80) (coreSmall : ∀ byte ∈ core, byte < 0x80)
    (lastSmall : last < 0x80) (firstKept : isSpaceRune first.toNat = false)
    (lastKept : isSpaceRune last.toNat = false) :
    ∃ left right, trimSpace (before ++ first :: core ++ last :: after) =
      left ++ first :: core ++ last :: right := by
  have split : runes (before ++ first :: core ++ last :: after) =
      runes before ++ (first.toNat, [first]) ::
        (runes core ++ (last.toNat, [last]) :: runes after) := by
    rw [List.append_assoc, List.cons_append,
      runes_before_ascii before first _ firstSmall, runes_ascii_cons first _ firstSmall,
      runes_ascii_append core _ coreSmall, runes_ascii_cons last _ lastSmall]
  refine ⟨((runes before).dropWhile isSpace).flatMap Prod.snd,
    (dropTrailing isSpace (runes after)).flatMap Prod.snd, ?_⟩
  have firstStops : isSpace (first.toNat, [first]) = false := firstKept
  have lastStops : isSpace (last.toNat, [last]) = false := lastKept
  rw [trimSpace, split, drop_while_stops isSpace _ _ _ firstStops]
  rw [show (runes before).dropWhile isSpace ++ (first.toNat, [first]) ::
      (runes core ++ (last.toNat, [last]) :: runes after) =
      ((runes before).dropWhile isSpace ++ (first.toNat, [first]) :: runes core) ++
        (last.toNat, [last]) :: runes after by simp]
  rw [drop_trailing_stops isSpace _ _ _ lastStops]
  simp [runes_bytes_ascii core coreSmall]

theorem trim_space_keeps_head (first : UInt8) (rest : Bytes) (small : first < 0x80)
    (kept : isSpaceRune first.toNat = false) :
    ∃ tail, trimSpace (first :: rest) = first :: tail := by
  refine ⟨(dropTrailing isSpace (runes rest)).flatMap Prod.snd, ?_⟩
  have stops : isSpace (first.toNat, [first]) = false := kept
  have head := drop_while_stops isSpace [] (first.toNat, [first]) (runes rest) stops
  have tail := drop_trailing_stops isSpace [] (first.toNat, [first]) (runes rest) stops
  simp only [List.nil_append, List.dropWhile_nil] at head tail
  rw [trimSpace, runes_ascii_cons first rest small, head, tail]
  rfl

theorem to_lower_ascii_cons (first : UInt8) (rest : Bytes) (small : first < 0x80) :
    toLower (first :: rest) = encodeRune (toLowerRune first.toNat) ++ toLower rest :=
  map_runes_ascii_cons toLowerRune first rest small

theorem to_lower_around_ascii (before core after : Bytes) (nonempty : core ≠ [])
    (small : ∀ byte ∈ core, byte < 0x80) :
    toLower (before ++ core ++ after) = toLower before ++ toLower core ++ toLower after :=
  map_runes_around_ascii toLowerRune before core after nonempty small

theorem lower_rune_ascii (rune : Nat) (small : rune < 0x80) : toLowerRune rune < (0x80 : Nat) := by
  simp only [toLowerRune, if_pos small]
  split
  case isTrue capital =>
    simp only [Bool.and_eq_true, decide_eq_true_eq] at capital
    have bound : rune ≤ 0x5A := capital.2
    have raised : rune + 0x20 ≤ 0x7A := Nat.add_le_add_right bound 0x20
    exact Nat.lt_of_le_of_lt raised (by decide)
  case isFalse => exact small

theorem to_lower_ascii (small : ∀ byte ∈ text, byte < 0x80) :
    ∀ byte ∈ toLower text, byte < 0x80 := by
  induction text with
  | nil => simp [toLower, mapRunes, runes, runesFrom]
  | cons first text ih =>
    have firstSmall : first.toNat < 0x80 := small first (by simp)
    have lowered := lower_rune_ascii first.toNat firstSmall
    rw [to_lower_ascii_cons first text (small first (by simp))]
    intro byte member
    rcases List.mem_append.mp member with here | later
    · simp only [encodeRune, if_pos lowered, List.mem_singleton] at here
      rw [here, UInt8.lt_iff_toNat_lt, UInt8.toNat_ofNat']
      exact Nat.lt_of_le_of_lt (Nat.mod_le _ _) lowered
    · exact ih (by intro other inText; exact small other (by simp [inText])) byte later

theorem cut_last_byte_splits (text before after : Bytes)
    (cut : cutLastByte byte text = some (before, after)) :
    text = before ++ byte :: after := by
  induction text generalizing before with
  | nil => simp [cutLastByte] at cut
  | cons first text ih =>
    simp only [cutLastByte] at cut
    cases later : cutLastByte byte text with
    | some halves =>
      obtain ⟨left, right⟩ := halves
      simp only [later, Option.some.injEq, Prod.mk.injEq] at cut
      obtain ⟨rfl, rfl⟩ := cut
      rw [ih left later, List.cons_append]
    | none =>
      simp only [later] at cut
      split_ifs at cut with same
      simp only [Option.some.injEq, Prod.mk.injEq] at cut
      obtain ⟨rfl, rfl⟩ := cut
      rw [same, List.nil_append]

theorem cut_last_byte_extends (left right before after : Bytes)
    (cut : cutLastByte byte (left ++ byte :: right) = some (before, after)) :
    ∃ extra, before = left ++ extra := by
  induction left generalizing before with
  | nil => exact ⟨before, rfl⟩
  | cons first left ih =>
    simp only [List.cons_append, cutLastByte] at cut
    cases later : cutLastByte byte (left ++ byte :: right) with
    | some halves =>
      obtain ⟨inner, outer⟩ := halves
      simp only [later, Option.some.injEq, Prod.mk.injEq] at cut
      obtain ⟨rfl, rfl⟩ := cut
      obtain ⟨extra, rfl⟩ := ih inner later
      exact ⟨extra, rfl⟩
    | none =>
      -- the search cannot fail: the byte is there
      exfalso
      clear cut ih
      induction left with
      | nil =>
        simp only [List.nil_append, cutLastByte] at later
        cases tail : cutLastByte byte right <;> simp [tail] at later
      | cons other left inner =>
        simp only [List.cons_append, cutLastByte] at later
        cases tail : cutLastByte byte (left ++ byte :: right) with
        | some halves => simp [tail] at later
        | none => exact inner tail

theorem cut_first_splits {needle text before after : Bytes}
    (cut : cutFirst needle text = some (before, after)) :
    text = before ++ needle ++ after := by
  induction text generalizing before with
  | nil =>
    rw [cutFirst] at cut
    split at cut
    · rename_i empty
      cases cut
      simp [empty]
    · cases cut
  | cons first rest ih =>
    rw [cutFirst] at cut
    split at cut
    · rename_i found
      obtain ⟨tail, same⟩ := List.isPrefixOf_iff_prefix.mp found
      cases cut
      rw [← same]
      simp
    · obtain ⟨⟨front, back⟩, found, same⟩ := Option.map_eq_some_iff.mp cut
      cases same
      rw [ih found]
      simp

/-- A marker whose first byte occurs nowhere else in it cannot overlap itself.
The text after its first occurrence is therefore the text after a known one,
or still contains that first byte. -/
theorem cut_first_marker (head : UInt8) (tail before after left right : Bytes)
    (fresh : head ∉ tail)
    (cut : cutFirst (head :: tail) (before ++ (head :: tail) ++ after) = some (left, right)) :
    right = after ∨ head ∈ right := by
  induction before generalizing left with
  | nil =>
    left
    have found : hasPrefix ((head :: tail) ++ after) (head :: tail) = true := by
      simp [hasPrefix]
    simp only [List.nil_append, List.cons_append] at cut found
    simp only [cutFirst, found, if_true, Option.some.injEq, Prod.mk.injEq] at cut
    rw [← cut.2]
    simp
  | cons first before ih =>
    simp only [List.cons_append, cutFirst] at cut
    split_ifs at cut with found
    · right
      simp only [Option.some.injEq, Prod.mk.injEq] at cut
      obtain ⟨rfl, rfl⟩ := cut
      obtain ⟨rest, same⟩ := List.isPrefixOf_iff_prefix.mp found
      rw [← same, List.drop_left]
      have aligned : (head :: tail) ++ rest = (first :: before) ++ ((head :: tail) ++ after) := by
        simpa using same
      rcases List.append_eq_append_iff.mp aligned with ⟨middle, outer, inner⟩ | ⟨middle, outer, inner⟩
      · rw [inner]
        simp
      · cases middle with
        | nil =>
          simp only [List.nil_append] at inner
          rw [← inner]
          simp
        | cons overlap middle =>
          have same : overlap = head := by
            simpa using (List.cons.inj (by simpa using inner)).1.symm
          have inTail : overlap ∈ tail := by
            have shape := (List.cons.inj (by simpa using outer)).2
            rw [shape]
            simp
          exact absurd (same ▸ inTail) fresh
    · obtain ⟨⟨inner, outer⟩, found, same⟩ := Option.map_eq_some_iff.mp cut
      simp only [Prod.mk.injEq] at same
      obtain ⟨rfl, rfl⟩ := same
      exact ih inner found

theorem lower_rune_backslash (rune : Nat) (lowered : toLowerRune rune = (92 : Nat)) : rune = 92 := by
  unfold toLowerRune at lowered
  split_ifs at lowered with small capital
  · simp only [Bool.and_eq_true, decide_eq_true_eq] at capital
    have low : 0x41 ≤ rune := capital.1
    have shifted : rune + 0x20 = 92 := lowered
    omega
  · exact lowered
  · unfold applyCase at lowered
    split at lowered
    · rename_i row found
      have listed := List.mem_of_find?_eq_some found
      have inside := List.find?_some found
      simp only [Bool.and_eq_true, decide_eq_true_eq] at inside
      have low : row.low ≤ rune := inside.1.1
      have high : rune ≤ row.high := inside.1.2
      have misses : ∀ range ∈ lowerRanges,
          (92 : Int) < range.low + range.delta ∨ range.high + range.delta < 0 := by decide +kernel
      have shifted : ((rune : Int) + row.delta).toNat = 92 := lowered
      have far := misses row listed
      omega
    · exact lowered

theorem to_lower_backslash (text tail : Bytes) (lowered : toLower text = 92 :: tail) :
    ∃ rest, text = 92 :: rest := by
  cases text with
  | nil => simp [toLower, mapRunes] at lowered
  | cons first rest =>
    refine ⟨rest, ?_⟩
    have head : ∃ more, encodeRune (toLowerRune (decodeRune (first :: rest)).1) = 92 :: more := by
      simp only [toLower, mapRunes, runes, runesFrom, List.flatMap_cons] at lowered
      cases encoded : encodeRune (toLowerRune (decodeRune (first :: rest)).1) with
      | nil =>
        simp only [encodeRune] at encoded
        split_ifs at encoded
      | cons byte more =>
        rw [encoded, List.cons_append, List.cons.injEq] at lowered
        exact ⟨more, by rw [lowered.1]⟩
    obtain ⟨more, encoded⟩ := head
    have lowRune : toLowerRune (decodeRune (first :: rest)).1 < (0x80 : Nat) := by
      by_contra wide
      have high := encode_rune_wide _ (Nat.not_lt.mp wide) 92 (by rw [encoded]; simp)
      exact absurd high (by decide)
    have value : toLowerRune (decodeRune (first :: rest)).1 = (92 : Nat) := by
      simp only [encodeRune, if_pos lowRune, List.cons.injEq] at encoded
      have same := congrArg UInt8.toNat encoded.1
      rwa [UInt8.toNat_ofNat_of_lt' (Nat.lt_trans lowRune (by decide))] at same
    have rune := lower_rune_backslash _ value
    by_cases small : first < 0x80
    · rw [decode_rune_ascii first rest small] at rune
      rw [show first = 92 from UInt8.toNat_inj.mp rune]
    · have wide := decode_rune_wide first rest (UInt8.not_lt.mp small)
      rw [rune] at wide
      exact absurd wide (by decide)

theorem cut_first_byte_splits (text before after : Bytes)
    (cut : cutFirstByte byte text = some (before, after)) :
    text = before ++ byte :: after ∧ byte ∉ before := by
  induction text generalizing before with
  | nil => simp [cutFirstByte] at cut
  | cons first rest ih =>
    rw [cutFirstByte] at cut
    split at cut
    case isTrue here =>
      rw [Option.some.injEq, Prod.mk.injEq] at cut
      rw [← cut.1, ← cut.2, here]
      simp
    case isFalse differs =>
      obtain ⟨⟨front, back⟩, found, same⟩ := Option.map_eq_some_iff.mp cut
      rw [Prod.mk.injEq] at same
      obtain ⟨rfl, rfl⟩ := same
      obtain ⟨split, free⟩ := ih front found
      refine ⟨by rw [split, List.cons_append], ?_⟩
      rw [List.mem_cons, not_or]
      exact ⟨fun same => differs same.symm, free⟩

theorem cut_first_byte_none : cutFirstByte byte text = none ↔ byte ∉ text := by
  induction text with
  | nil => simp [cutFirstByte]
  | cons first rest ih =>
    rw [cutFirstByte]
    by_cases here : first = byte
    · simp [here]
    · rw [if_neg here, Option.map_eq_none_iff, ih, List.mem_cons, not_or]
      exact ⟨fun free => ⟨fun same => here same.symm, free⟩, fun free => free.2⟩

theorem cut_first_byte_append (before after : Bytes) (free : byte ∉ before) :
    cutFirstByte byte (before ++ byte :: after) = some (before, after) := by
  induction before with
  | nil => simp [cutFirstByte]
  | cons first before ih =>
    rw [List.mem_cons, not_or] at free
    rw [List.cons_append, cutFirstByte, if_neg fun same => free.1 same.symm, ih free.2]
    rfl

theorem split_parts_free (limit : Nat) (text part : Bytes)
    (enough : text.length < limit) (member : part ∈ splitN byte limit text) : byte ∉ part := by
  induction limit generalizing text with
  | zero => simp at enough
  | succ limit ih =>
    cases limit with
    | zero =>
      rw [splitN, List.mem_singleton] at member
      have empty : text = [] := by simpa using enough
      rw [member, empty]
      simp
    | succ limit =>
      rw [splitN] at member
      split at member
      case h_1 before after cut =>
        obtain ⟨split, free⟩ := cut_first_byte_splits byte text before after cut
        rcases List.mem_cons.mp member with rfl | later
        · exact free
        · refine ih after ?_ later
          rw [split, List.length_append, List.length_cons] at enough
          omega
      case h_2 absent =>
        rw [List.mem_singleton] at member
        rw [member]
        exact (cut_first_byte_none byte text).mp absent

theorem split_byte_free (text part : Bytes) (member : part ∈ splitByte byte text) :
    byte ∉ part := split_parts_free byte _ text part (Nat.lt_succ_self _) member

theorem split_intercalate (limit : Nat) (parts : List Bytes) (nonempty : parts ≠ [])
    (free : ∀ part ∈ parts, byte ∉ part) (enough : (List.intercalate [byte] parts).length < limit) :
    splitN byte limit (List.intercalate [byte] parts) = parts := by
  induction parts generalizing limit with
  | nil => exact absurd rfl nonempty
  | cons part parts ih =>
    have firstFree := free part List.mem_cons_self
    cases parts with
    | nil =>
      simp only [List.intercalate_singleton] at enough ⊢
      cases limit with
      | zero => simp at enough
      | succ limit =>
        cases limit with
        | zero => rfl
        | succ limit => rw [splitN, (cut_first_byte_none byte part).mpr firstFree]
    | cons next parts =>
      have joined : List.intercalate [byte] (part :: next :: parts) =
          part ++ byte :: List.intercalate [byte] (next :: parts) := by
        rw [List.intercalate_cons_cons]
        simp
      rw [joined] at enough ⊢
      rw [List.length_append, List.length_cons] at enough
      obtain ⟨limit, rfl⟩ : ∃ less, limit = less + 2 := ⟨limit - 2, by omega⟩
      rw [splitN, cut_first_byte_append byte part _ firstFree]
      simp only
      rw [ih (limit + 1) (by simp) (fun other member => free other (List.mem_cons_of_mem _ member))
        (by omega)]

end

end Herold.Go

import Herold.Jmap.CreationRefs
import Herold.Go.Split

/-!
# Result references

The pointer of a result reference is read byte by byte, and what it is applied to is found
out by decoding: into a slice first, then into a map. RFC 6901 says what a pointer denotes,
and RFC 8620 adds `*` for all the elements of an array.
-/

namespace Herold.CreationRefs

open Herold.Go Herold.Go.Json

/-- The loop of `splitPointer`; a byte is added as `string(c)`, the rune of that number. -/
def splitFrom (current : Bytes) : Bytes → List Bytes
  | [] => [current]
  | byte :: rest =>
    if byte = 47 then current :: splitFrom [] rest
    else if byte = 126 then
      match rest with
      | [] => [current ++ [126]]
      | next :: after =>
        if next = 48 then splitFrom (current ++ [126]) after
        else if next = 49 then splitFrom (current ++ [47]) after
        else splitFrom (current ++ [126]) (next :: after)
    else splitFrom (current ++ encodeRune byte.toNat) rest

def splitPointer (pointer : Bytes) : List Bytes := splitFrom [] (pointer.drop 1)

def parseIndex (token : Bytes) : Option Int64 :=
  if token = [] then none
  else if token.all isDigit then
    some (token.foldl (fun index byte => index * 10 + Int64.ofNat (byte.toNat - 48)) 0)
  else none

/-- `json.Unmarshal` into a slice, which a null leaves empty. -/
def readArray : Value → Option (List Value)
  | .null => some []
  | .array items => some items
  | _ => none

/-- `json.Unmarshal` into a map; of two members of one name it keeps the second. -/
def readObject : Value → Option Members
  | .null => some []
  | .object members => some members.reverse
  | _ => none

def spliced (value : Value) : List Value := (readArray value).getD [value]

/-- The element a token selects: `parseIndex` and the check of its range. -/
def codeIndex (token : Bytes) : Option Nat :=
  (parseIndex token).bind fun index => if index < 0 then none else some index.toInt.toNat

def evalPointerTokens : List Bytes → Value → Option Value
  | [], doc => some doc
  | token :: rest, doc =>
    if token = [42] then
      (readArray doc).bind fun items =>
        (items.mapM (evalPointerTokens rest)).map fun found => .array (found.flatMap spliced)
    else
      match readArray doc with
      | some items => (codeIndex token).bind fun index => (items[index]?).bind (evalPointerTokens rest)
      | none => (readObject doc).bind fun members =>
        (lookup token members).bind (evalPointerTokens rest)

def evalJSONPointer (doc : Value) (pointer : Bytes) : Option Value :=
  match pointer with
  | [] => some doc
  | first :: rest => if first = 47 then evalPointerTokens (splitPointer (first :: rest)) doc else none

/-- A reference token of RFC 6901; a tilde stands before 0 or 1. -/
def unescape : Bytes → Option Bytes
  | [] => some []
  | byte :: rest =>
    if byte = 126 then
      match rest with
      | [] => none
      | next :: after =>
        if next = 48 then (unescape after).map (126 :: ·)
        else if next = 49 then (unescape after).map (47 :: ·)
        else none
    else (unescape rest).map (byte :: ·)

def referenceTokens (text : Bytes) : Option (List Bytes) := (splitByte 47 text).mapM unescape

/-- `array-index` of RFC 6901: no sign and no leading zero. -/
def arrayIndex (token : Bytes) : Option Nat :=
  if token ≠ [] ∧ token.all isDigit = true ∧ (token.head? = some 48 → token = [48]) then
    some (decimalValue token)
  else none

def entries : Value → List Value
  | .array items => items
  | value => [value]

def denoted : List Bytes → Value → Option Value
  | [], doc => some doc
  | token :: rest, .array items =>
    if token = [42] then (items.mapM (denoted rest)).map fun found => .array (found.flatMap entries)
    else (arrayIndex token).bind fun index => (items[index]?).bind (denoted rest)
  | token :: rest, .object members => (lookup token members.reverse).bind (denoted rest)
  | _ :: _, _ => none

def standardPointer (doc : Value) (pointer : Bytes) : Option Value :=
  match pointer with
  | [] => some doc
  | first :: rest => if first = 47 then (referenceTokens rest).bind fun tokens => denoted tokens doc else none

/-- A token made of digits has no leading zero and is below `2 ^ 63`; with a leading zero
it is plain when what 64 bits keep of it is negative, so that it is no index either way. -/
def PlainIndex (token : Bytes) : Prop :=
  token ≠ [] → token.all isDigit = true →
    if token.head? = some 48 ∧ token ≠ [48] then 2 ^ 63 ≤ decimalValue token % 2 ^ 64
    else decimalValue token < 2 ^ 63

def PlainToken (token : Bytes) : Prop := (∀ byte ∈ token, byte < 0x80) ∧ PlainIndex token

theorem index_loop_reads (token digits : Bytes) :
    token.foldl (fun index byte => index * 10 + Int64.ofNat (byte.toNat - 48))
      (Int64.ofNat (decimalValue digits)) =
      Int64.ofNat (decimalValue (digits ++ token)) := by
  induction token generalizing digits with
  | nil => simp
  | cons byte rest ih =>
    have next : Int64.ofNat (decimalValue digits) * 10 + Int64.ofNat (byte.toNat - 48) =
        Int64.ofNat (decimalValue (digits ++ [byte])) := by
      rw [decimal_value_snoc, Int64.ofNat_add, Int64.ofNat_mul]
      rfl
    rw [List.foldl_cons, next, ih, List.append_assoc, List.singleton_append]

theorem code_index_reads (token : Bytes) (filled : token ≠ []) (digits : token.all isDigit = true) :
    codeIndex token = if decimalValue token % 2 ^ 64 < 2 ^ 63 then some (decimalValue token % 2 ^
      64) else none := by
  have start : Int64.ofNat (decimalValue []) = 0 := rfl
  have read := index_loop_reads token []
  rw [start, List.nil_append] at read
  have value : (Int64.ofNat (decimalValue token)).toInt = (decimalValue token : Int).bmod (2 ^ 64) :=
    Int64.toInt_ofNat'
  rw [Int.bmod_def] at value
  have sign : Int64.ofNat (decimalValue token) < 0 ↔ ¬decimalValue token % 2 ^ 64 < 2 ^ 63 := by
    rw [Int64.lt_iff_toInt_lt, value, Int64.toInt_zero]
    omega
  rw [codeIndex, parseIndex, if_neg filled, if_pos digits, read, Option.bind_some]
  by_cases small : decimalValue token % 2 ^ 64 < 2 ^ 63
  · rw [if_neg fun negative => sign.mp negative small, if_pos small, value, if_pos (by omega)]
    exact congrArg some (by omega)
  · rw [if_pos (sign.mpr small), if_neg small]

/-- The code gives a token the index the standard gives it just when its index is plain. -/
theorem index_plain_iff (token : Bytes) : codeIndex token = arrayIndex token ↔ PlainIndex token := by
  by_cases number : token ≠ [] ∧ token.all isDigit = true
  · obtain ⟨filled, digits⟩ := number
    have plain : PlainIndex token ↔ if token.head? = some 48 ∧ token ≠ [48] then
        2 ^ 63 ≤ decimalValue token % 2 ^ 64 else decimalValue token < 2 ^ 63 :=
      ⟨fun plain => plain filled digits, fun plain _ _ => plain⟩
    rw [code_index_reads token filled digits, plain]
    by_cases padded : token.head? = some 48 ∧ token ≠ [48]
    · have none_ : arrayIndex token = none := if_neg fun all => padded.2 (all.2.2 padded.1)
      rw [none_, if_pos padded]
      split
      · simp only [reduceCtorEq, false_iff]
        omega
      · simp only [true_iff]
        omega
    · have some_ : arrayIndex token = some (decimalValue token) :=
        if_pos ⟨filled, digits, by simpa using padded⟩
      rw [some_, if_neg padded]
      split
      · rw [Option.some.injEq]
        omega
      · simp only [reduceCtorEq, false_iff]
        omega
  · have silent : codeIndex token = none := by
      unfold codeIndex parseIndex
      split_ifs with empty digits
      · rfl
      · exact absurd ⟨empty, digits⟩ number
      · rfl
    rw [silent, arrayIndex, if_neg fun all => number ⟨all.1, all.2.1⟩]
    exact iff_of_true rfl fun filled digits => absurd ⟨filled, digits⟩ number

def Spelled (good : Bytes → Prop) (pointer : Bytes) : Prop :=
  ∀ rest, pointer = 47 :: rest → ∃ tokens, referenceTokens rest = some tokens ∧
    ∀ token ∈ tokens, good token

mutual

/-- The document has no null in it and no member with the name `*`. -/
def clean : Value → Bool
  | .null => false
  | .array items => cleanItems items
  | .object members => cleanMembers members
  | _ => true

def cleanItems : List Value → Bool
  | [] => true
  | item :: items => clean item && cleanItems items

def cleanMembers : List (Bytes × Value) → Bool
  | [] => true
  | (name, value) :: members => name ≠ [42] && clean value && cleanMembers members

end

theorem clean_items (items : List Value) :
    cleanItems items = true ↔ ∀ item ∈ items, clean item = true := by
  induction items with
  | nil => simp [cleanItems]
  | cons item items ih => simp [cleanItems, ih]

theorem clean_members (members : Members) :
    cleanMembers members = true ↔ ∀ member ∈ members, member.1 ≠ [42] ∧ clean member.2 = true := by
  induction members with
  | nil => simp [cleanMembers]
  | cons member members ih => simp [cleanMembers, ih, and_assoc]

theorem lookup_member {name : Bytes} {members : Members} {value : Value}
    (found : lookup name members = some value) : (name, value) ∈ members := by
  obtain ⟨member, taken, rfl⟩ := Option.map_eq_some_iff.mp found
  have named : member.1 = name := by simpa using List.find?_some taken
  rw [← named]
  exact List.mem_of_find?_eq_some taken

theorem lookup_clean {name : Bytes} {members : Members} {value : Value}
    (good : clean (.object members) = true)
    (found : lookup name members.reverse = some value) : name ≠ [42] ∧ clean value = true :=
  (clean_members members).mp (by simpa [clean] using good) _ (List.mem_reverse.mp (lookup_member found))

theorem mapM_same {Item Result : Type} {read other : Item → Option Result} {items : List Item}
    (same : ∀ item ∈ items, read item = other item) : items.mapM read = items.mapM other := by
  induction items with
  | nil => rfl
  | cons item items ih =>
    rw [List.mapM_cons, List.mapM_cons, same item List.mem_cons_self,
      ih fun next member => same next (List.mem_cons_of_mem _ member)]

theorem mapM_member {Item Result : Type} {read : Item → Option Result} {items : List Item}
    {found : List Result}
    (mapped : items.mapM read = some found) :
      ∀ result ∈ found, ∃ item ∈ items, read item = some result := by
  induction items generalizing found with
  | nil =>
    cases mapped
    simp
  | cons item items ih =>
    rw [List.mapM_cons] at mapped
    obtain ⟨first, here, later⟩ := Option.bind_eq_some_iff.mp mapped
    obtain ⟨others, there, whole⟩ := Option.bind_eq_some_iff.mp later
    cases whole
    intro result member
    rcases List.mem_cons.mp member with rfl | inside
    · exact ⟨item, List.mem_cons_self, here⟩
    · obtain ⟨other, listed, same⟩ := ih there result inside
      exact ⟨other, List.mem_cons_of_mem _ listed, same⟩

theorem entries_clean {value : Value} (good : clean value = true) :
    ∀ item ∈ entries value, clean item = true := by
  cases value with
  | array items => exact (clean_items items).mp (by simpa [clean] using good)
  | _ => simpa [entries] using good

theorem spliced_clean {value : Value} (good : clean value = true) : spliced value = entries value := by
  cases value with
  | null => simp [clean] at good
  | _ => rfl

section

variable (token : Bytes) (tokens : List Bytes) (rest : List Bytes) (doc : Value)

theorem denoted_clean (doc value : Value) (good : clean doc = true)
    (found : denoted tokens doc = some value) : clean value = true := by
  induction tokens generalizing doc value with
  | nil =>
    cases found
    exact good
  | cons token rest ih =>
    cases doc with
    | array items =>
      have each := (clean_items items).mp (by simpa [clean] using good)
      simp only [denoted] at found
      split at found
      · obtain ⟨results, mapped, rfl⟩ := Option.map_eq_some_iff.mp found
        rw [clean, clean_items]
        intro item member
        obtain ⟨result, listed, inside⟩ := List.mem_flatMap.mp member
        obtain ⟨source, sourced, read⟩ := mapM_member mapped result listed
        exact entries_clean (ih source result (each source sourced) read) item inside
      · obtain ⟨index, _, taken⟩ := Option.bind_eq_some_iff.mp found
        obtain ⟨item, at_, read⟩ := Option.bind_eq_some_iff.mp taken
        exact ih item value (each item (List.mem_of_getElem? at_)) read
    | object members =>
      obtain ⟨child, taken, read⟩ := Option.bind_eq_some_iff.mp found
      exact ih child value (lookup_clean good taken).2 read
    | _ => cases found

/-- Plain tokens lead where the standard says, unless a `*` meets a null or a member of its name. -/
theorem eval_plain (plain : ∀ token ∈ tokens, PlainToken token)
    (safe : clean doc = true ∨ [42] ∉ tokens) : evalPointerTokens tokens doc = denoted tokens doc := by
  induction tokens generalizing doc with
  | nil => rfl
  | cons token rest ih =>
    have later : ∀ child, clean child = true ∨ [42] ∉ rest →
        evalPointerTokens rest child = denoted rest child :=
      fun child => ih child fun other member => plain other (List.mem_cons_of_mem _ member)
    have index := (index_plain_iff token).mpr (plain token List.mem_cons_self).2
    have onward : ∀ child, (clean doc = true → clean child = true) →
        evalPointerTokens rest child = denoted rest child := by
      intro child kept
      refine later child (safe.imp kept fun absent inside => absent (List.mem_cons_of_mem _ inside))
    unfold evalPointerTokens
    split
    · rename_i star
      have good : clean doc = true := safe.resolve_right fun absent => absent (by simp [star])
      cases doc with
      | array items =>
        have each := (clean_items items).mp (by simpa [clean] using good)
        have same : items.mapM (evalPointerTokens rest) = items.mapM (denoted rest) :=
          mapM_same fun item member => onward item fun _ => each item member
        simp only [readArray, Option.bind_some, denoted, star, if_true, same]
        cases mapped : items.mapM (denoted rest) with
        | none => rfl
        | some found =>
          have flat : found.flatMap spliced = found.flatMap entries := by
            apply List.flatMap_congr
            intro result listed
            obtain ⟨item, member, read⟩ := mapM_member mapped result listed
            exact spliced_clean (denoted_clean rest item result (each item member) read)
          rw [Option.map_some, Option.map_some, flat]
      | object members =>
        have absent : lookup token members.reverse = none := by
          rw [Option.eq_none_iff_forall_ne_some]
          intro child found
          exact (lookup_clean good found).1 star
        simp [readArray, denoted, absent]
      | null => simp [clean] at good
      | _ => rfl
    · rename_i other
      cases doc with
      | array items =>
        simp only [readArray, denoted, other, if_false, index]
        cases arrayIndex token with
        | none => rfl
        | some place =>
          simp only [Option.bind_some]
          cases taken : items[place]? with
          | none => rfl
          | some item =>
            apply onward
            intro good
            exact (clean_items items).mp (by simpa [clean] using good) item (List.mem_of_getElem? taken)
      | object members =>
        simp only [readArray, readObject, Option.bind_some, denoted]
        cases taken : lookup token members.reverse with
        | none => rfl
        | some child => exact onward child fun good => (lookup_clean good taken).2
      | null => cases codeIndex token <;> rfl
      | _ => rfl

def widen (token : Bytes) : Bytes := token.flatMap fun byte => encodeRune byte.toNat

theorem widen_ascii (ascii : ∀ byte ∈ token, byte < 0x80) : widen token = token := by
  induction token with
  | nil => rfl
  | cons byte rest ih =>
    have small : byte.toNat < 0x80 := ascii byte List.mem_cons_self
    have single : encodeRune byte.toNat = [byte] := by simp [encodeRune, small]
    rw [widen, List.flatMap_cons, single, ← widen, ih fun other member =>
      ascii other (List.mem_cons_of_mem _ member)]
    rfl

theorem encode_byte_length (byte : UInt8) :
    (encodeRune byte.toNat).length = if byte < 0x80 then 1 else 2 := by
  have bound := byte.toNat_lt
  unfold encodeRune
  by_cases small : byte < 0x80
  · have low : byte.toNat < 0x80 := small
    simp [small, low]
  · have high : ¬byte.toNat < 0x80 := small
    have inside : byte.toNat < 0x800 := by omega
    simp [small, high, inside]

theorem widen_longer : token.length ≤ (widen token).length ∧
    ((∃ byte ∈ token, ¬byte < 0x80) → token.length < (widen token).length) := by
  induction token with
  | nil => simp [widen]
  | cons byte rest ih =>
    have length : (widen (byte :: rest)).length = (if byte < 0x80 then 1 else 2) +
      (widen rest).length := by
      rw [widen, List.flatMap_cons, List.length_append, encode_byte_length, ← widen]
    rw [length, List.length_cons]
    refine ⟨by split <;> omega, ?_⟩
    rintro ⟨other, member, wide⟩
    rcases List.mem_cons.mp member with rfl | inside
    · rw [if_neg wide]
      omega
    · have more := ih.2 ⟨other, inside, wide⟩
      split <;> omega

theorem split_from_slash (current rest : Bytes) :
    splitFrom current (47 :: rest) = current :: splitFrom [] rest := by
  rw [splitFrom.eq_def]
  rfl

theorem split_from_zero (current after : Bytes) :
    splitFrom current (126 :: 48 :: after) = splitFrom (current ++ [126]) after := by
  rw [splitFrom.eq_def]
  rfl

theorem split_from_one (current after : Bytes) :
    splitFrom current (126 :: 49 :: after) = splitFrom (current ++ [47]) after := by
  rw [splitFrom.eq_def]
  rfl

theorem split_from_byte (current rest : Bytes) (byte : UInt8) (slash : byte ≠ 47) (tilde : byte ≠ 126) :
    splitFrom current (byte :: rest) = splitFrom (current ++ encodeRune byte.toNat) rest := by
  rw [splitFrom.eq_def]
  simp [slash, tilde]

theorem split_from_part (part token current tail : Bytes) (free : 47 ∉ part)
    (read : unescape part = some token) :
    splitFrom current (part ++ tail) = splitFrom (current ++ widen token) tail := by
  induction part using unescape.induct generalizing token current with
  | case1 =>
    cases read
    simp [widen]
  | case2 => simp [unescape] at read
  | case3 after ih =>
    obtain ⟨short, inner, rfl⟩ :=
      Option.map_eq_some_iff.mp (show (unescape after).map (126 :: ·) = _ from read)
    simp only [List.mem_cons, not_or] at free
    rw [List.cons_append, List.cons_append, split_from_zero, ih short _ free.2.2 inner]
    simp [widen, encodeRune]
  | case4 after _ ih =>
    obtain ⟨short, inner, rfl⟩ :=
      Option.map_eq_some_iff.mp (show (unescape after).map (47 :: ·) = _ from read)
    simp only [List.mem_cons, not_or] at free
    rw [List.cons_append, List.cons_append, split_from_one, ih short _ free.2.2 inner]
    simp [widen, encodeRune]
  | case5 next after zero one => simp [unescape, zero, one] at read
  | case6 byte rest tilde ih =>
    rw [unescape.eq_def] at read
    simp only [tilde, if_false] at read
    obtain ⟨short, inner, rfl⟩ := Option.map_eq_some_iff.mp read
    simp only [List.mem_cons, not_or] at free
    rw [List.cons_append, split_from_byte _ _ _ (Ne.symm free.1) tilde, ih short _ free.2 inner]
    simp [widen]

theorem split_pointer_reads (text : Bytes) (tokens : List Bytes)
    (read : referenceTokens text = some tokens) :
    splitFrom [] text = tokens.map widen := by
  induction size : text.length using Nat.strong_induction_on generalizing text tokens with
  | _ length ih =>
    by_cases slash : 47 ∈ text
    · obtain ⟨part, rest, rfl, free⟩ := List.eq_append_cons_of_mem slash
      rw [referenceTokens, split_byte_cons 47 part rest free, List.mapM_cons] at read
      obtain ⟨token, here, later⟩ := Option.bind_eq_some_iff.mp read
      obtain ⟨others, there, whole⟩ := Option.bind_eq_some_iff.mp later
      cases whole
      have shorter : rest.length < length := by
        rw [← size, List.length_append, List.length_cons]
        omega
      rw [split_from_part part token [] _ free here, split_from_slash,
        ih rest.length shorter rest others there rfl]
      rfl
    · rw [referenceTokens, split_byte_whole 47 text slash, List.mapM_cons] at read
      obtain ⟨token, here, later⟩ := Option.bind_eq_some_iff.mp read
      cases later
      have whole := split_from_part text token [] [] slash here
      rw [List.append_nil] at whole
      rw [whole]
      rfl

def holding (token : Bytes) (doc : Value) : Value :=
  if token = [42] then .array [doc] else .object [(token, doc)]

def reachable : List Bytes → Value
  | [] => .bool true
  | token :: rest => holding token (reachable rest)

def Apart (tokens : List Bytes) (doc : Value) : Prop :=
  (evalPointerTokens (tokens.map widen) doc).isSome ≠ (denoted tokens doc).isSome

theorem holding_clean (good : clean doc = true) : clean (holding token doc) = true := by
  unfold holding
  split
  · simp [clean, cleanItems, good]
  · rename_i other
    simp [clean, cleanMembers, good, other]

theorem reachable_clean : clean (reachable tokens) = true := by
  induction tokens with
  | nil => rfl
  | cons token rest ih => exact holding_clean token _ ih

theorem eval_holding :
    (evalPointerTokens (token :: rest) (holding token doc)).isSome =
      (evalPointerTokens rest doc).isSome := by
  unfold holding
  split
  · rename_i star
    simp only [evalPointerTokens, star, if_true, readArray, Option.bind_some]
    cases found : evalPointerTokens rest doc <;> simp [found]
  · rename_i other
    simp [evalPointerTokens, other, readArray, readObject, lookup]

theorem denoted_holding :
    (denoted (token :: rest) (holding token doc)).isSome = (denoted rest doc).isSome := by
  unfold holding
  split
  · rename_i star
    simp only [denoted, star, if_true]
    cases found : denoted rest doc <;> simp [found]
  · simp [denoted, lookup]

theorem eval_reachable : (evalPointerTokens tokens (reachable tokens)).isSome = true := by
  induction tokens with
  | nil => rfl
  | cons token rest ih => rw [reachable, eval_holding, ih]

theorem denoted_reachable : (denoted tokens (reachable tokens)).isSome = true := by
  induction tokens with
  | nil => rfl
  | cons token rest ih => rw [reachable, denoted_holding, ih]

theorem clean_copies (count : Nat) (doc : Value) (good : clean doc = true) :
    clean (.array (List.replicate count doc)) = true := by
  rw [clean, clean_items]
  intro item member
  rw [List.eq_of_mem_replicate member, good]

theorem unplain_apart (unplain : ¬PlainToken token) :
    ∃ doc, clean doc = true ∧ Apart (token :: rest) doc := by
  by_cases ascii : ∀ byte ∈ token, byte < 0x80
  · have differ : codeIndex token ≠ arrayIndex token :=
      fun same => unplain ⟨ascii, (index_plain_iff token).mp same⟩
    have other : token ≠ [42] := by
      rintro rfl
      exact differ (by decide)
    -- an array too short for the larger of the two indices
    have copies : ∀ count doc, Apart (token :: rest) (.array (List.replicate count doc)) ↔
        ((codeIndex token).bind fun index => if index < count then
          evalPointerTokens (rest.map widen) doc else none).isSome ≠
        ((arrayIndex token).bind fun index => if index < count then denoted rest doc
          else none).isSome := by
      intro count doc
      simp only [Apart, List.map_cons, widen_ascii token ascii, evalPointerTokens, other,
        if_false, readArray,
        denoted, List.getElem?_replicate]
      refine iff_of_eq (congrArg₂ _ (congrArg _ (congrArg _ (funext fun index => ?_)))
        (congrArg _ (congrArg _ (funext fun index => ?_))))
      · split <;> rfl
      · split <;> rfl
    have code : ∀ place, codeIndex token = some place →
      (∀ wanted, arrayIndex token = some wanted → place < wanted) →
        ∃ doc, clean doc = true ∧ Apart (token :: rest) doc := by
      intro place found beyond
      refine ⟨_, clean_copies (place + 1) _ (reachable_clean (rest.map widen)), (copies _ _).mpr ?_⟩
      cases wanted : arrayIndex token with
      | none => simp [found, eval_reachable]
      | some index =>
        have far := beyond index wanted
        have out : ¬index < place + 1 := by omega
        simp only [found, Option.bind_some, if_pos (Nat.lt_succ_self place), eval_reachable, if_neg out]
        exact fun same => absurd same (by decide)
    have standard : ∀ place, arrayIndex token = some place →
      (∀ read, codeIndex token = some read → place < read) →
        ∃ doc, clean doc = true ∧ Apart (token :: rest) doc := by
      intro place found beyond
      refine ⟨_, clean_copies (place + 1) _ (reachable_clean rest), (copies _ _).mpr ?_⟩
      cases read : codeIndex token with
      | none => simp [found, denoted_reachable]
      | some index =>
        have far := beyond index read
        have out : ¬index < place + 1 := by omega
        simp only [found, Option.bind_some, if_pos (Nat.lt_succ_self place),
          denoted_reachable, if_neg out]
        exact fun same => absurd same (by decide)
    cases read : codeIndex token with
    | none =>
      cases wanted : arrayIndex token with
      | none => exact absurd (read.trans wanted.symm) differ
      | some place => exact standard place wanted (by simp [read])
    | some index =>
      cases wanted : arrayIndex token with
      | none => exact code index read (by simp [wanted])
      | some place =>
        rcases Nat.lt_trichotomy index place with less | same | more
        · exact code index read (by simpa [wanted] using less)
        · exact absurd (by rw [read, wanted, same]) differ
        · exact standard place wanted (by simpa [read] using more)
  · have wide : ∃ byte ∈ token, ¬byte < 0x80 := by simpa using ascii
    have longer := (widen_longer token).2 wide
    have other : token ≠ [42] := by
      rintro rfl
      refine ascii fun byte inside => ?_
      rw [List.mem_singleton.mp inside]
      decide
    have filled : 0 < token.length := List.length_pos_of_mem wide.choose_spec.1
    have starless : widen token ≠ [42] := by
      intro star
      rw [star, List.length_singleton] at longer
      omega
    refine ⟨holding token (reachable rest), holding_clean token _ (reachable_clean rest), ?_⟩
    rw [Apart, denoted_holding, denoted_reachable, List.map_cons, holding, if_neg other]
    have absent : token ≠ widen token := fun same => by
      rw [← same] at longer
      exact Nat.lt_irrefl _ longer
    simp [evalPointerTokens, starless, readArray, readObject, lookup, absent]

theorem star_apart : Apart ([42] :: rest) .null := by
  have star : widen [42] = [42] := by decide
  simp [Apart, star, evalPointerTokens, readArray, denoted]

theorem apart_below (plain : PlainToken token)
    (apart : Apart rest doc) : Apart (token :: rest) (holding token doc) := by
  rw [Apart, List.map_cons, widen_ascii token plain.1, eval_holding, denoted_holding]
  exact apart

end

section Agreement

variable {kept : Value → Prop} {good : Bytes → Prop}
variable (plain : ∀ token, good token → PlainToken token)
variable (held : ∀ token doc, kept doc → kept (holding token doc))
variable (here : ∀ token rest, ¬good token → ∃ doc, kept doc ∧ Apart (token :: rest) doc)

include plain held here

theorem some_apart (tokens : List Bytes) (bad : ∃ token ∈ tokens, ¬good token) :
    ∃ doc, kept doc ∧ Apart tokens doc := by
  induction tokens with
  | nil => simp at bad
  | cons token rest ih =>
    by_cases fine : good token
    · obtain ⟨other, member, wrong⟩ := bad
      have inside : other ∈ rest := by
        rcases List.mem_cons.mp member with rfl | inside
        · exact absurd fine wrong
        · exact inside
      obtain ⟨doc, keeps, apart⟩ := ih ⟨other, inside, wrong⟩
      exact ⟨_, held token doc keeps, apart_below token rest doc (plain token fine) apart⟩
    · exact here token rest fine

theorem agree_iff (base : kept (.bool true))
    (enough : ∀ tokens doc, (∀ token ∈ tokens, good token) → kept doc →
      evalPointerTokens tokens doc = denoted tokens doc) (pointer : Bytes) :
    (∀ doc, kept doc → evalJSONPointer doc pointer = standardPointer doc pointer) ↔
    Spelled good pointer := by
  have reach : ∀ tokens, kept (reachable tokens) := by
    intro tokens
    induction tokens with
    | nil => exact base
    | cons token rest ih => exact held token _ ih
  constructor
  · intro agree rest path
    have same : ∀ doc, kept doc → evalPointerTokens (splitFrom [] rest) doc =
        (referenceTokens rest).bind fun tokens => denoted tokens doc := by
      intro doc keeps
      simpa [path, evalJSONPointer, standardPointer, splitPointer] using agree doc keeps
    cases read : referenceTokens rest with
    | none =>
      have found := eval_reachable (splitFrom [] rest)
      rw [same _ (reach _), read] at found
      cases found
    | some tokens =>
      refine ⟨tokens, rfl, ?_⟩
      by_contra bad
      obtain ⟨doc, keeps, apart⟩ := some_apart plain held here tokens (by simpa using bad)
      have equal := same doc keeps
      rw [read, split_pointer_reads rest tokens read] at equal
      exact apart (by rw [equal]; rfl)
  · intro spelled doc keeps
    cases pointer with
    | nil => rfl
    | cons first rest =>
      unfold evalJSONPointer standardPointer
      dsimp only
      split
      · rename_i slash
        obtain ⟨tokens, read, fine⟩ := spelled rest (by rw [slash])
        have ascii : tokens.map widen = tokens := by
          rw [List.map_congr_left fun token member =>
            widen_ascii token (plain token (fine token member)).1]
          exact List.map_id' tokens
        rw [splitPointer, List.drop_one, List.tail_cons, split_pointer_reads rest tokens read,
          ascii, read]
        exact enough tokens doc fine keeps
      · rfl

end Agreement

end Herold.CreationRefs

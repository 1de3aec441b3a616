import Herold.Go.Decimal
import Herold.Go.Strings
import Mathlib.Data.List.Nodup
import Mathlib.Data.List.Perm.Basic

/-!
# Reading JSON into Go values and writing it back

`encoding/json` between a JSON value and a value of a declared type: names are matched
without regard to case, members that no field takes are dropped, a value of the wrong
kind leaves the field as it was, and empty fields marked `omitempty` are not written.
The main result says which values come back as they were.
-/

namespace Herold.Go.Json

/-- A JSON value; a number is kept as it is spelled, an object in document order. -/
inductive Value where
  | null
  | bool (value : Bool)
  | number (literal : Bytes)
  | string (text : Bytes)
  | array (items : List Value)
  | object (members : List (Bytes × Value))

theorem Value.induct {Holds : Value → Prop} (null : Holds .null) (bool : ∀ value, Holds (.bool value))
    (number : ∀ literal, Holds (.number literal)) (string : ∀ text, Holds (.string text))
    (array : ∀ items, (∀ item ∈ items, Holds item) → Holds (.array items))
    (object : ∀ members, (∀ member ∈ members, Holds member.2) → Holds (.object members)) :
    ∀ value, Holds value
  | .null => null
  | .bool value => bool value
  | .number literal => number literal
  | .string text => string text
  | .array items => array items fun item _ => Value.induct null bool number string array object item
  | .object members => object members fun member inside => by
    have smaller : sizeOf member.2 < sizeOf members := by
      have bound := List.sizeOf_lt_of_mem inside
      rcases member with ⟨name, value⟩
      simp only [Prod.mk.sizeOf_spec] at bound ⊢
      omega
    exact Value.induct null bool number string array object member.2

mutual

inductive Same : Value → Value → Prop
  | refl (value : Value) : Same value value
  | array {items others : List Value} : SameItems items others → Same (.array items) (.array others)
  | object {members ordered others : List (Bytes × Value)} : members.Perm ordered →
      SameMembers ordered others → Same (.object members) (.object others)

inductive SameItems : List Value → List Value → Prop
  | nil : SameItems [] []
  | cons {item other : Value} {items others : List Value} : Same item other → SameItems items others →
      SameItems (item :: items) (other :: others)

inductive SameMembers : List (Bytes × Value) → List (Bytes × Value) → Prop
  | nil : SameMembers [] []
  | cons {value other : Value} {members others : List (Bytes × Value)} (name : Bytes) :
      Same value other → SameMembers members others →
      SameMembers ((name, value) :: members) ((name, other) :: others)

end

structure StructField (Content : Type) where
  name : Bytes
  omitempty : Bool
  content : Content

inductive GoType where
  | string
  | int
  | bool
  | slice (item : GoType)
  | map (item : GoType)
  | struct (fields : List (StructField GoType))

/-- A value as the decoder fills it in. A slice keeps the items that an earlier reading
left behind its length: a later reading decodes into them. -/
inductive GoValue where
  | nil
  | string (text : Bytes)
  | int (value : Int)
  | bool (value : Bool)
  | slice (items stale : List GoValue)
  | map (entries : List (Bytes × GoValue))
  | struct (fields : List (StructField GoValue))

namespace GoValue

def memory : GoValue → List GoValue
  | .slice items stale => items ++ stale
  | _ => []

def entries : GoValue → List (Bytes × GoValue)
  | .map entries => entries
  | _ => []

def field (name : Bytes) : GoValue → GoValue
  | .struct fields => ((fields.find? fun field => field.name = name).map StructField.content).getD .nil
  | _ => .nil

def isEmpty : GoValue → Bool
  | .nil => true
  | .string text => text = []
  | .int value => value = 0
  | .bool value => !value
  | .slice items _ => items.isEmpty
  | .map entries => entries.isEmpty
  | .struct _ => false

end GoValue

def StructField.written (field : StructField GoValue) : Bool :=
    !(field.omitempty && field.content.isEmpty)

mutual

def zero : GoType → GoValue
  | .string => .string []
  | .int => .int 0
  | .bool => .bool false
  | .slice _ => .nil
  | .map _ => .nil
  | .struct fields => .struct (zeroFields fields)

def zeroFields : List (StructField GoType) → List (StructField GoValue)
  | [] => []
  | ⟨name, omitempty, kind⟩ :: rest => ⟨name, omitempty, zero kind⟩ :: zeroFields rest

end

/-- The field that takes a member: the one of its very name, else one that differs in case. -/
def fieldFor (fields : List (StructField GoType)) (name : Bytes) : Option Bytes :=
  ((fields.find? fun field => field.name = name) <|>
    (fields.find? fun field => equalFold field.name name)).map StructField.name

def decodeNull (kind : GoType) (current : GoValue) : GoValue :=
  match kind with
  | .slice _ => .nil
  | .map _ => .nil
  | _ => current

mutual

/-- `json.Unmarshal` into a value: what it holds afterwards, and whether every part fitted. -/
def decode : Value → GoType → GoValue → GoValue × Bool
  | .null, kind, current => (decodeNull kind current, true)
  | .bool value, kind, current => match kind with
      | .bool => (.bool value, true)
      | _ => (current, false)
  | .number literal, kind, current => match kind, parseInt64 literal with
      | .int, some value => (.int value, true)
      | _, _ => (current, false)
  | .string text, kind, current => match kind with
      | .string => (.string text, true)
      | _ => (current, false)
  | .array items, kind, current => match kind with
      | .slice item =>
        let filled := decodeItems items item current.memory
        -- an empty array makes a new slice, a shorter one keeps what lies behind
        let stale := if items.isEmpty then [] else current.memory.drop items.length
        (.slice (filled.map Prod.fst) stale, filled.all Prod.snd)
      | _ => (current, false)
  | .object members, kind, current => match kind with
      | .map item =>
        let filled := decodeEntries members item
        let kept := current.entries.filter fun entry => !(filled.map Prod.fst).contains entry.1
        (.map ((filled.map fun entry => (entry.1, entry.2.1)) ++ kept),
          filled.all fun entry => entry.2.2)
      | .struct fields =>
        let filled := fields.map fun field =>
          StructField.mk field.name field.omitempty
            (decodeField members fields field (current.field field.name))
        (.struct (filled.map fun field => ⟨field.name, field.omitempty, field.content.1⟩),
          filled.all fun field => field.content.2)
      | _ => (current, false)

def decodeItems : List Value → GoType → List GoValue → List (GoValue × Bool)
  | [], _, _ => []
  | item :: rest, kind, memory =>
    decode item kind (memory.head?.getD (zero kind)) :: decodeItems rest kind memory.tail

def decodeEntries : List (Bytes × Value) → GoType → List (Bytes × GoValue × Bool)
  | [], _ => []
  | (name, value) :: rest, kind =>
    let later := decodeEntries rest kind
    if (later.map Prod.fst).contains name then later else (name, decode value kind (zero kind)) :: later

/-- One field through all members: each that names it is decoded into what is there. -/
def decodeField : List (Bytes × Value) → List (StructField GoType) → StructField GoType →
    GoValue → GoValue × Bool
  | [], _, _, current => (current, true)
  | (name, value) :: rest, fields, field, current =>
    if fieldFor fields name = some field.name then
      let first := decode value field.content current
      let later := decodeField rest fields field first.1
      (later.1, first.2 && later.2)
    else decodeField rest fields field current

end

def formatInt (value : Int) : Bytes :=
  if value < 0 then 45 :: decimal value.natAbs else decimal value.natAbs

mutual

/-- `json.Marshal`. It sorts the keys of a map, an order that no reader sees. -/
def encode : GoValue → Value
  | .nil => .null
  | .string text => .string text
  | .int value => .number (formatInt value)
  | .bool value => .bool value
  | .slice items _ => .array (encodeItems items)
  | .map entries => .object (encodeEntries entries)
  | .struct fields => .object (encodeFields fields)

def encodeItems : List GoValue → List Value
  | [] => []
  | item :: rest => encode item :: encodeItems rest

def encodeEntries : List (Bytes × GoValue) → List (Bytes × Value)
  | [] => []
  | (name, value) :: rest => (name, encode value) :: encodeEntries rest

def encodeFields : List (StructField GoValue) → List (Bytes × Value)
  | [] => []
  | ⟨name, omitempty, value⟩ :: rest =>
    if StructField.written ⟨name, omitempty, value⟩ then (name, encode value) :: encodeFields rest
    else encodeFields rest

end

theorem same_items_refl (items : List Value) : SameItems items items := by
  induction items with
  | nil => exact .nil
  | cons item items ih => exact .cons (.refl item) ih

section

variable (members : List (Bytes × Value)) (kind : GoType)

theorem same_members_refl : SameMembers members members := by
  induction members with
  | nil => exact .nil
  | cons member members ih =>
    rcases member with ⟨name, value⟩
    exact .cons name (.refl value) ih

theorem same_array {items : List Value} {other : Value} (same : Same (.array items) other) :
    ∃ others, other = .array others ∧ SameItems items others := by
  cases same with
  | refl => exact ⟨items, rfl, same_items_refl items⟩
  | array each => exact ⟨_, rfl, each⟩

theorem same_object {members : List (Bytes × Value)} {other : Value}
    (same : Same (.object members) other) :
    ∃ others ordered, other = .object others ∧ members.Perm ordered ∧ SameMembers ordered others := by
  cases same with
  | refl => exact ⟨members, members, rfl, .refl _, same_members_refl members⟩
  | object order each => exact ⟨_, _, rfl, order, each⟩

theorem same_items_map (write : Value → Value) (items : List Value) :
    SameItems (items.map write) items ↔ ∀ item ∈ items, Same (write item) item := by
  induction items with
  | nil => simpa using SameItems.nil
  | cons item items ih =>
    rw [List.map_cons, List.forall_mem_cons, ← ih]
    constructor
    · intro same
      cases same with
      | cons first rest => exact ⟨first, rest⟩
    · rintro ⟨first, rest⟩
      exact .cons first rest

theorem same_members_map (write : Bytes × Value → Value) (members : List (Bytes × Value)) :
    SameMembers (members.map fun member => (member.1, write member)) members ↔
      ∀ member ∈ members, Same (write member) member.2 := by
  induction members with
  | nil => simpa using SameMembers.nil
  | cons member members ih =>
    rw [List.map_cons, List.forall_mem_cons, ← ih]
    rcases member with ⟨name, value⟩
    constructor
    · intro same
      cases same with
      | cons _ first rest => exact ⟨first, rest⟩
    · rintro ⟨first, rest⟩
      exact .cons name first rest

theorem same_members_names {members others : List (Bytes × Value)} (same : SameMembers members others) :
    members.map Prod.fst = others.map Prod.fst := by
  induction others generalizing members with
  | nil => cases same; rfl
  | cons other others ih =>
    cases same with
    | cons name _ rest => simp [ih rest]

theorem same_members_mem {members others : List (Bytes × Value)} (same : SameMembers members others) :
    ∀ other ∈ others, ∃ value, (other.1, value) ∈ members ∧ Same value other.2 := by
  induction others generalizing members with
  | nil => simp
  | cons other others ih =>
    cases same with
    | cons name first rest =>
      intro wanted inside
      rcases List.mem_cons.mp inside with rfl | later
      · exact ⟨_, List.mem_cons_self .., first⟩
      · obtain ⟨value, there, alike⟩ := ih rest wanted later
        exact ⟨value, List.mem_cons_of_mem _ there, alike⟩

theorem encode_items (items : List GoValue) : encodeItems items = items.map encode := by
  induction items with
  | nil => rfl
  | cons item items ih => rw [encodeItems, ih, List.map_cons]

theorem encode_entries (entries : List (Bytes × GoValue)) :
    encodeEntries entries = entries.map fun entry => (entry.1, encode entry.2) := by
  induction entries with
  | nil => rfl
  | cons entry entries ih => rw [encodeEntries, ih, List.map_cons]

theorem encode_fields (fields : List (StructField GoValue)) :
    encodeFields fields =
      (fields.filter StructField.written).map fun field => (field.name, encode field.content) := by
  induction fields with
  | nil => rfl
  | cons field fields ih =>
    rw [encodeFields, ih, List.filter_cons]
    split
    case isTrue => rw [List.map_cons]
    case isFalse => rfl

def readInto (kind : GoType) (value : Value) : GoValue := (decode value kind (zero kind)).1

def rewrite (kind : GoType) (value : Value) : Value := encode (readInto kind value)

theorem decode_items_fresh (items : List Value) (kind : GoType) :
    (decodeItems items kind []).map Prod.fst = items.map (readInto kind) := by
  induction items with
  | nil => rfl
  | cons item items ih =>
    rw [decodeItems, List.map_cons, List.map_cons]
    exact congrArg (_ :: ·) ih

theorem rewrite_slice (item : GoType) (items : List Value) :
    rewrite (.slice item) (.array items) = .array (items.map (rewrite item)) := by
  have filled : (decodeItems items item (zero (.slice item)).memory).map Prod.fst =
      items.map (readInto item) := decode_items_fresh items item
  simp only [rewrite, readInto, decode, encode, filled, encode_items, List.map_map]
  rfl

theorem decode_entries_names (name : Bytes) :
    name ∈ (decodeEntries members kind).map Prod.fst ↔ name ∈ members.map Prod.fst := by
  induction members with
  | nil => simp [decodeEntries]
  | cons member members ih =>
    rw [decodeEntries, List.map_cons, List.mem_cons, ← ih]
    split
    case isTrue present =>
        constructor
        · exact Or.inr
        · rintro (rfl | later)
          · exact List.contains_iff_mem.mp present
          · exact later
    case isFalse => rw [List.map_cons, List.mem_cons]

theorem decode_entries_nodup : ((decodeEntries members kind).map Prod.fst).Nodup := by
  induction members with
  | nil => exact List.nodup_nil
  | cons member members ih =>
    rw [decodeEntries]
    split
    case isTrue => exact ih
    case isFalse absent =>
        exact List.nodup_cons.mpr ⟨fun inside => absent (List.contains_iff_mem.mpr inside), ih⟩

theorem decode_entries_distinct (distinct : (members.map Prod.fst).Nodup) :
    decodeEntries members kind =
      members.map fun member => (member.1, decode member.2 kind (zero kind)) := by
  induction members with
  | nil => rfl
  | cons member members ih =>
    rw [List.map_cons, List.nodup_cons] at distinct
    rw [decodeEntries, if_neg, ih distinct.2, List.map_cons]
    rw [List.contains_iff_mem, decode_entries_names]
    exact distinct.1

end

mutual

def proper : GoType → Bool
  | .string => true
  | .int => true
  | .bool => true
  | .slice item => proper item
  | .map item => proper item
  | .struct fields => (fields.map StructField.name).Nodup && properFields fields

def properFields : List (StructField GoType) → Bool
  | [] => true
  | ⟨_, _, kind⟩ :: rest => proper kind && properFields rest

end

section

variable (fields : List (StructField GoType))

theorem proper_fields (holds : properFields fields = true) :
    ∀ field ∈ fields, proper field.content = true := by
  induction fields with
  | nil => simp
  | cons field fields ih =>
    simp only [properFields, Bool.and_eq_true] at holds
    intro wanted inside
    rcases List.mem_cons.mp inside with rfl | later
    · exact holds.1
    · exact ih holds.2 wanted later

theorem proper_struct (holds : proper (.struct fields) = true) :
    (fields.map StructField.name).Nodup ∧ ∀ field ∈ fields, proper field.content = true := by
  simp only [proper, Bool.and_eq_true, decide_eq_true_eq] at holds
  exact ⟨holds.1, proper_fields fields holds.2⟩

theorem zero_fields :
    zeroFields fields = fields.map fun field => ⟨field.name, field.omitempty, zero field.content⟩ := by
  induction fields with
  | nil => rfl
  | cons field fields ih => rw [zeroFields, ih, List.map_cons]

theorem found_field {Content : Type} (fields : List (StructField Content)) (field : StructField Content)
    (distinct : (fields.map StructField.name).Nodup) (inside : field ∈ fields) :
    (fields.find? fun other => other.name = field.name) = some field := by
  induction fields with
  | nil => cases inside
  | cons first fields ih =>
    rw [List.map_cons, List.nodup_cons] at distinct
    rcases List.mem_cons.mp inside with rfl | later
    · simp
    · have other : first.name ≠ field.name := by
        intro same
        exact distinct.1 (same ▸ List.mem_map_of_mem later)
      rw [List.find?_cons_of_neg (by simpa using other)]
      exact ih distinct.2 later

theorem zero_field (field : StructField GoType)
    (distinct : (fields.map StructField.name).Nodup) (inside : field ∈ fields) :
    (zero (.struct fields)).field field.name = zero field.content := by
  have named : ((zeroFields fields).map StructField.name).Nodup := by
    rw [zero_fields, List.map_map]
    exact distinct
  have there : (⟨field.name, field.omitempty, zero field.content⟩ : StructField GoValue) ∈
    zeroFields fields := by
    rw [zero_fields]
    exact List.mem_map_of_mem inside
  rw [zero, GoValue.field, found_field _ _ named there]
  rfl

theorem field_for_exact (name : Bytes)
    (named : name ∈ fields.map StructField.name) : fieldFor fields name = some name := by
  obtain ⟨field, inside, same⟩ := List.mem_map.mp named
  obtain ⟨found, isFound⟩ : ∃ found, (fields.find? fun field => field.name = name) = some found := by
    rw [← Option.isSome_iff_exists, List.find?_isSome]
    exact ⟨field, inside, decide_eq_true same⟩
  rw [fieldFor, isFound]
  simpa using List.find?_some isFound

end

section

variable (fields : List (StructField GoType)) (field : StructField GoType)

theorem decode_field_absent (members : List (Bytes × Value)) (current : GoValue)
    (known : ∀ member ∈ members, member.1 ∈ fields.map StructField.name)
    (absent : field.name ∉ members.map Prod.fst) :
    (decodeField members fields field current).1 = current := by
  induction members with
  | nil => rfl
  | cons member members ih =>
    rw [List.map_cons, List.mem_cons, not_or] at absent
    have other : fieldFor fields member.1 ≠ some field.name := by
      rw [field_for_exact fields member.1 (known member (List.mem_cons_self ..))]
      intro same
      exact absent.1 (Option.some.inj same).symm
    rw [decodeField, if_neg other]
    exact ih (fun later inside => known later (List.mem_cons_of_mem _ inside)) absent.2

theorem decode_field_present (members : List (Bytes × Value)) (current : GoValue) (value : Value)
    (known : ∀ member ∈ members, member.1 ∈ fields.map StructField.name)
    (distinct : (members.map Prod.fst).Nodup) (present : (field.name, value) ∈ members) :
    (decodeField members fields field current).1 = (decode value field.content current).1 := by
  induction members with
  | nil => cases present
  | cons member members ih =>
    have later := fun other inside => known other (List.mem_cons_of_mem _ inside)
    rw [List.map_cons, List.nodup_cons] at distinct
    rcases List.mem_cons.mp present with rfl | behind
    · rw [decodeField, if_pos (field_for_exact fields field.name (known _ (List.mem_cons_self ..)))]
      exact decode_field_absent fields field members _ later distinct.1
    · have other : fieldFor fields member.1 ≠ some field.name := by
        rw [field_for_exact fields member.1 (known member (List.mem_cons_self ..))]
        intro same
        have again : member.1 ∈ members.map Prod.fst :=
          Option.some.inj same ▸ List.mem_map_of_mem behind
        exact distinct.1 again
      rw [decodeField, if_neg other]
      exact ih later distinct.2 behind

end

/-- A value that the encoder leaves out where its field is marked so. -/
def vacant : GoType → Value → Bool
  | .string, .string text => text = []
  | .int, .number literal => literal = formatInt 0
  | .bool, .bool value => !value
  | .slice _, .array items => items.isEmpty
  | .slice _, .null => true
  | .map _, .object members => members.isEmpty
  | .map _, .null => true
  | _, _ => false

/-- The value is spelled as the type writes it: every part of its declared kind, every
member under the very name of a field and met once, nothing empty that would be left
out and nothing missing that would be added. -/
inductive Fits : GoType → Value → Prop
  | string (text : Bytes) : Fits .string (.string text)
  | int (value : Int) : -2 ^ 63 ≤ value → value < 2 ^ 63 → Fits .int (.number (formatInt value))
  | bool (value : Bool) : Fits .bool (.bool value)
  | noSlice (item : GoType) : Fits (.slice item) .null
  | slice (item : GoType) (items : List Value) : (∀ value ∈ items, Fits item value) →
      Fits (.slice item) (.array items)
  | noMap (item : GoType) : Fits (.map item) .null
  | map (item : GoType) (members : List (Bytes × Value)) : (members.map Prod.fst).Nodup →
      (∀ member ∈ members, Fits item member.2) → Fits (.map item) (.object members)
  | struct (fields : List (StructField GoType)) (members : List (Bytes × Value)) :
      (members.map Prod.fst).Nodup → (∀ member ∈ members, member.1 ∈ fields.map StructField.name) →
      (∀ field ∈ fields, (field.omitempty && (zero field.content).isEmpty) = false →
        field.name ∈ members.map Prod.fst) →
      (∀ member ∈ members, ∀ field ∈ fields, field.name = member.1 → field.omitempty = true →
        vacant field.content member.2 = false) →
      (∀ member ∈ members, ∀ field ∈ fields, field.name = member.1 → Fits field.content member.2) →
      Fits (.struct fields) (.object members)

theorem decimal_digits (value : Nat) : decimal value ≠ [] ∧ (decimal value).all isDigit = true := by
  unfold decimal
  split
  case isTrue => exact ⟨by decide, by decide⟩
  case isFalse nonzero =>
    refine ⟨by simpa [Nat.digits_eq_nil_iff_eq_zero] using nonzero, ?_⟩
    simp only [List.all_eq_true, List.mem_map, List.mem_reverse]
    rintro byte ⟨digit, member, rfl⟩
    have small := Nat.digits_lt_base (by decide) member
    have digitByte : ∀ digit < 10, isDigit (UInt8.ofNat (48 + digit)) = true := by decide
    exact digitByte digit small

theorem parse_decimal (value : Nat) (small : value < 2 ^ 63) :
    parseInt64 (decimal value) = some (value : Int) := by
  obtain ⟨filled, digits⟩ := decimal_digits value
  have back := decimal_value_decimal value
  cases spelled : decimal value with
  | nil => exact absurd spelled filled
  | cons first rest =>
    rw [spelled] at digits back
    have isFirst : isDigit first = true := (List.all_eq_true.mp digits) first (List.mem_cons_self ..)
    have unsigned : first ≠ 45 ∧ first ≠ 43 := by
      constructor
      · rintro rfl
        exact absurd isFirst (by decide)
      · rintro rfl
        exact absurd isFirst (by decide)
    unfold parseInt64
    simpa [unsigned.1, unsigned.2, digits, back] using small

theorem parse_format_int (value : Int) (low : -2 ^ 63 ≤ value) (high : value < 2 ^ 63) :
    parseInt64 (formatInt value) = some value := by
  unfold formatInt
  split
  case isTrue negative =>
    obtain ⟨filled, digits⟩ := decimal_digits value.natAbs
    have small : value.natAbs ≤ 2 ^ 63 := by omega
    have restored : -(value.natAbs : Int) = value := by omega
    simp only [parseInt64, filled, digits, decimal_value_decimal, small]
    simpa using restored
  case isFalse positive =>
    rw [parse_decimal value.natAbs (by omega)]
    simp
    omega

theorem parse_int_bounds (literal : Bytes) (value : Int) (parsed : parseInt64 literal = some value) :
    -2 ^ 63 ≤ value ∧ value < 2 ^ 63 := by
  unfold parseInt64 at parsed
  dsimp only at parsed
  split_ifs at parsed
  all_goals
    cases parsed
    omega

theorem format_int_injective (left right : Int) (same : formatInt left = formatInt right)
    (low : -2 ^ 63 ≤ left) (high : left < 2 ^ 63) (rightLow : -2 ^ 63 ≤ right)
    (rightHigh : right < 2 ^ 63) :
    left = right := by
  have parsed := parse_format_int left low high
  rw [same, parse_format_int right rightLow rightHigh] at parsed
  exact (Option.some.inj parsed).symm

theorem rewrite_map (item : GoType) (members : List (Bytes × Value)) :
    rewrite (.map item) (.object members) =
      .object ((decodeEntries members item).map fun entry => (entry.1, encode entry.2.1)) := by
  simp only [rewrite, readInto, decode, zero, GoValue.entries, List.filter_nil, List.append_nil, encode,
    encode_entries, List.map_map, Function.comp_def]

def fieldValue (fields : List (StructField GoType)) (members : List (Bytes × Value))
    (field : StructField GoType) :
    GoValue :=
  (decodeField members fields field ((zero (.struct fields)).field field.name)).1

def rewrittenFields (fields : List (StructField GoType)) (members : List (Bytes × Value)) :
    List (Bytes × Value) :=
  encodeFields (fields.map fun field => ⟨field.name, field.omitempty, fieldValue fields members field⟩)

section

variable (fields : List (StructField GoType)) (members : List (Bytes × Value))

theorem rewrite_struct :
    rewrite (.struct fields) (.object members) = .object (rewrittenFields fields members) := by
  simp only [rewrite, readInto, decode, encode, List.map_map, Function.comp_def, rewrittenFields,
    fieldValue]

theorem mem_rewritten (written : Bytes × Value) :
    written ∈ rewrittenFields fields members ↔ ∃ field ∈ fields,
      (field.omitempty = true → (fieldValue fields members field).isEmpty = false) ∧
        (field.name, encode (fieldValue fields members field)) = written := by
  rw [rewrittenFields, encode_fields]
  simp only [List.mem_map, List.mem_filter, exists_exists_and_eq_and, StructField.written,
    Bool.not_eq_true',
    Bool.and_eq_false_imp, and_assoc]

theorem rewritten_names (distinct : (fields.map StructField.name).Nodup) :
    ((rewrittenFields fields members).map Prod.fst).Nodup ∧
      ∀ name ∈ (rewrittenFields fields members).map Prod.fst, name ∈ fields.map StructField.name := by
  have part : ((rewrittenFields fields members).map Prod.fst).Sublist
    (fields.map StructField.name) := by
    have all := (List.filter_sublist (p := StructField.written) (l := fields.map fun field =>
      (⟨field.name, field.omitempty, fieldValue fields members field⟩ : StructField GoValue))).map
        StructField.name
    rw [List.map_map] at all
    rw [rewrittenFields, encode_fields, List.map_map]
    exact all
  exact ⟨distinct.sublist part, fun name inside => part.subset inside⟩

theorem field_value_present (field : StructField GoType) (value : Value)
    (fieldsDistinct : (fields.map StructField.name).Nodup)
    (inside : field ∈ fields) (known : ∀ member ∈ members, member.1 ∈ fields.map StructField.name)
    (distinct : (members.map Prod.fst).Nodup) (present : (field.name, value) ∈ members) :
    fieldValue fields members field = readInto field.content value := by
  rw [fieldValue, decode_field_present fields field members _ value known distinct present,
    zero_field fields field fieldsDistinct inside, readInto]

theorem field_value_absent (field : StructField GoType)
    (fieldsDistinct : (fields.map StructField.name).Nodup)
      (inside : field ∈ fields)
    (known : ∀ member ∈ members, member.1 ∈ fields.map StructField.name)
    (absent : field.name ∉ members.map Prod.fst) :
    fieldValue fields members field = zero field.content := by
  rw [fieldValue, decode_field_absent fields field members _ known absent,
    zero_field fields field fieldsDistinct inside]

end

theorem is_empty_fits (kind : GoType) (value : Value) (fits : Fits kind value) :
    (readInto kind value).isEmpty = vacant kind value := by
  cases fits with
  | string text => rfl
  | int value low high =>
    simp only [readInto, decode, parse_format_int value low high, GoValue.isEmpty, vacant,
      decide_eq_decide]
    constructor
    · rintro rfl
      rfl
    · intro same
      exact format_int_injective value 0 same low high (by decide) (by decide)
  | bool value => rfl
  | noSlice item => rfl
  | slice item items each =>
    cases items with
    | nil => rfl
    | cons first rest => rfl
  | noMap item => rfl
  | map item members distinct each =>
    cases members with
    | nil => rfl
    | cons first rest =>
      have filled : (decodeEntries (first :: rest) item).map Prod.fst ≠ [] := by
        intro none
        have named := (decode_entries_names (first :: rest) item first.1).mpr (by simp)
        rw [none] at named
        cases named
      simpa [readInto, decode, GoValue.isEmpty, vacant, zero, GoValue.entries] using filled
  | struct fields members => rfl

section

variable (fields : List (StructField GoType)) (members : List (Bytes × Value))
  (distinct : (fields.map StructField.name).Nodup)
  (ih : ∀ member ∈ members, ∀ field ∈ fields,
    (Same (rewrite field.content member.2) member.2 ↔ Fits field.content member.2))

include distinct ih

theorem rewritten_same_fits (same : Same (.object (rewrittenFields fields members)) (.object members)) :
    Fits (.struct fields) (.object members) := by
  obtain ⟨others, ordered, isOthers, order, each⟩ := same_object same
  obtain rfl : members = others := Value.object.inj isOthers
  have names := same_members_names each
  obtain ⟨writtenDistinct, writtenKnown⟩ := rewritten_names fields members distinct
  have order' := order.map Prod.fst
  have once : (members.map Prod.fst).Nodup := names ▸ order'.nodup_iff.mp writtenDistinct
  have known : ∀ member ∈ members, member.1 ∈ fields.map StructField.name := by
    intro member inside
    refine writtenKnown member.1 (order'.mem_iff.mpr ?_)
    rw [names]
    exact List.mem_map_of_mem inside
  -- each member stands against what its own field wrote
  have against : ∀ member ∈ members, ∀ field ∈ fields, field.name = member.1 →
      (field.omitempty = true → (readInto field.content member.2).isEmpty = false) ∧
        Same (rewrite field.content member.2) member.2 := by
    intro member inside field isField named
    obtain ⟨value, there, alike⟩ := same_members_mem each member inside
    obtain ⟨writer, isWriter, filled, written⟩ :=
      (mem_rewritten fields members _).mp (order.mem_iff.mpr there)
    obtain ⟨writerName, rfl⟩ := Prod.mk.inj written
    obtain rfl : writer = field :=
      List.inj_on_of_nodup_map distinct isWriter isField (writerName.trans named.symm)
    have held := field_value_present fields members writer member.2 distinct isWriter known once
      (by rw [writerName]; exact inside)
    rw [held] at filled alike
    exact ⟨filled, alike⟩
  refine .struct fields members once known ?_ ?_ ?_
  · intro field isField written
    by_contra absent
    have held := field_value_absent fields members field distinct isField known absent
    have put : (field.name, encode (zero field.content)) ∈ rewrittenFields fields members := by
      refine (mem_rewritten fields members _).mpr ⟨field, isField, ?_, by rw [held]⟩
      rw [held]
      simpa using written
    refine absent ?_
    rw [← names]
    exact order'.mem_iff.mp (List.mem_map_of_mem put)
  · intro member inside field isField named omits
    obtain ⟨filled, alike⟩ := against member inside field isField named
    rw [← is_empty_fits _ _ ((ih member inside field isField).mp alike)]
    exact filled omits
  · intro member inside field isField named
    exact (ih member inside field isField).mp (against member inside field isField named).2

theorem fits_rewritten_same (fits : Fits (.struct fields) (.object members)) :
    Same (.object (rewrittenFields fields members)) (.object members) := by
  cases fits with
  | struct _ _ once known complete filled each =>
    -- what each member is written back as, by the field of its name
    let write := fun member : Bytes × Value =>
      ((fields.find? fun field => field.name = member.1).map fun field =>
        rewrite field.content member.2).getD .null
    have written : ∀ member ∈ members, ∀ field ∈ fields, field.name = member.1 →
        write member = rewrite field.content member.2 := by
      intro member inside field isField named
      simp only [write, ← named, found_field fields field distinct isField, Option.map_some,
        Option.getD_some]
    have alike : ∀ member ∈ members, Same (write member) member.2 := by
      intro member inside
      obtain ⟨field, isField, named⟩ := List.mem_map.mp (known member inside)
      rw [written member inside field isField named]
      exact (ih member inside field isField).mpr (each member inside field isField named)
    refine .object ?_ ((same_members_map write members).mpr alike)
    obtain ⟨writtenDistinct, writtenKnown⟩ := rewritten_names fields members distinct
    have mapped : ((members.map fun member => (member.1, write member)).map Prod.fst).Nodup := by
      rw [List.map_map]
      exact once
    refine (List.perm_ext_iff_of_nodup writtenDistinct.of_map mapped.of_map).mpr ?_
    intro pair
    rw [mem_rewritten, List.mem_map]
    constructor
    · rintro ⟨field, isField, put, rfl⟩
      have present : field.name ∈ members.map Prod.fst := by
        by_contra absent
        rw [field_value_absent fields members field distinct isField known absent] at put
        exact absent (complete field isField (by simpa using put))
      obtain ⟨member, inside, named⟩ := List.mem_map.mp present
      refine ⟨member, inside, ?_⟩
      rw [written member inside field isField named.symm,
        field_value_present fields members field member.2 distinct isField known once
          (by rw [← named]; exact inside), named]
      rfl
    · rintro ⟨member, inside, rfl⟩
      obtain ⟨field, isField, named⟩ := List.mem_map.mp (known member inside)
      have held := field_value_present fields members field member.2 distinct isField known once
        (by rw [named]; exact inside)
      refine ⟨field, isField, ?_, ?_⟩
      · intro omits
        rw [held, is_empty_fits _ _ (each member inside field isField named)]
        exact filled member inside field isField named omits
      · rw [held, written member inside field isField named, named]
        rfl

end

theorem rewrite_slice_same_iff (item : GoType) (items : List Value)
    (ih : ∀ value ∈ items, (Same (rewrite item value) value ↔ Fits item value)) :
    Same (rewrite (.slice item) (.array items)) (.array items) ↔ Fits (.slice item) (.array items) := by
  rw [rewrite_slice]
  constructor
  · intro same
    obtain ⟨others, isOthers, alike⟩ := same_array same
    obtain rfl : items = others := Value.array.inj isOthers
    have fit := (same_items_map (rewrite item) items).mp alike
    exact .slice item items fun value inside => (ih value inside).mp (fit value inside)
  · intro fits
    cases fits with
    | slice _ _ fit =>
      refine .array ((same_items_map (rewrite item) items).mpr ?_)
      exact fun value inside => (ih value inside).mpr (fit value inside)

theorem rewrite_map_same_iff (item : GoType) (members : List (Bytes × Value))
    (ih : ∀ member ∈ members, (Same (rewrite item member.2) member.2 ↔ Fits item member.2)) :
    Same (rewrite (.map item) (.object members)) (.object members) ↔
      Fits (.map item) (.object members) := by
  rw [rewrite_map]
  constructor
  · intro same
    obtain ⟨others, ordered, isOthers, order, each⟩ := same_object same
    obtain rfl : members = others := Value.object.inj isOthers
    have once : (members.map Prod.fst).Nodup := by
      rw [← same_members_names each, ← (order.map Prod.fst).nodup_iff, List.map_map]
      exact decode_entries_nodup members item
    refine .map item members once ?_
    intro member inside
    obtain ⟨value, there, alike⟩ := same_members_mem each member inside
    have put := order.mem_iff.mpr there
    rw [decode_entries_distinct members item once, List.map_map] at put
    obtain ⟨writer, isWriter, written⟩ := List.mem_map.mp put
    obtain ⟨named, rfl⟩ := Prod.mk.inj written
    obtain rfl : writer = member := List.inj_on_of_nodup_map once isWriter inside named
    exact (ih writer inside).mp alike
  · intro fits
    cases fits with
    | map _ _ once each =>
      rw [decode_entries_distinct members item once, List.map_map]
      refine .object (.refl _) ((same_members_map (fun member => rewrite item member.2) members).mpr ?_)
      intro member inside
      exact (ih member inside).mpr (each member inside)

theorem rewrite_number_same_iff (literal : Bytes) :
    Same (rewrite .int (.number literal)) (.number literal) ↔ Fits .int (.number literal) := by
  constructor
  · intro same
    cases parsed : parseInt64 literal with
    | none =>
      have zeroed : rewrite .int (.number literal) = .number (formatInt 0) := by
        simp only [rewrite, readInto, decode, parsed, zero, encode]
      rw [zeroed] at same
      cases same with
      | refl => exact absurd parsed (by decide)
    | some value =>
      have spelled : rewrite .int (.number literal) = .number (formatInt value) := by
        simp only [rewrite, readInto, decode, parsed, encode]
      obtain ⟨low, high⟩ := parse_int_bounds literal value parsed
      rw [spelled] at same
      cases same with
      | refl => exact .int value low high
  · intro fits
    cases fits with
    | int value low high =>
      simp only [rewrite, readInto, decode, parse_format_int value low high, encode]
      exact .refl _

theorem rewrite_same_iff (value : Value) :
    ∀ kind, proper kind = true → (Same (rewrite kind value) value ↔ Fits kind value) := by
  induction value using Value.induct with
  | null =>
    intro kind _
    cases kind with
    | slice item => exact ⟨fun _ => .noSlice item, fun _ => .refl _⟩
    | map item => exact ⟨fun _ => .noMap item, fun _ => .refl _⟩
    | _ => exact ⟨fun same => (nomatch same), fun fits => (nomatch fits)⟩
  | bool value =>
    intro kind _
    cases kind with
    | bool => exact ⟨fun _ => .bool value, fun _ => .refl _⟩
    | _ => exact ⟨fun same => (nomatch same), fun fits => (nomatch fits)⟩
  | number literal =>
    intro kind _
    cases kind with
    | int => exact rewrite_number_same_iff literal
    | _ => exact ⟨fun same => (nomatch same), fun fits => (nomatch fits)⟩
  | string text =>
    intro kind _
    cases kind with
    | string => exact ⟨fun _ => .string text, fun _ => .refl _⟩
    | _ => exact ⟨fun same => (nomatch same), fun fits => (nomatch fits)⟩
  | array items ih =>
    intro kind well
    cases kind with
    | slice item =>
      exact rewrite_slice_same_iff item items fun value inside => ih value inside item well
    | _ => exact ⟨fun same => (nomatch same), fun fits => (nomatch fits)⟩
  | object members ih =>
    intro kind well
    cases kind with
    | map item =>
      exact rewrite_map_same_iff item members fun member inside => ih member inside item well
    | struct fields =>
      obtain ⟨distinct, contents⟩ := proper_struct fields well
      have each : ∀ member ∈ members, ∀ field ∈ fields,
          (Same (rewrite field.content member.2) member.2 ↔ Fits field.content member.2) :=
        fun member inside field isField => ih member inside field.content (contents field isField)
      rw [rewrite_struct]
      exact ⟨rewritten_same_fits fields members distinct each,
        fits_rewritten_same fields members distinct each⟩
    | _ => exact ⟨fun same => (nomatch same), fun fits => (nomatch fits)⟩

end Herold.Go.Json

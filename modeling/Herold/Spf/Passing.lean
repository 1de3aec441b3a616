import Herold.Go.Bytes
import Herold.Spf.Record

/-!
# What `ParseRecord` lets through

The terms that `ParseRecord` takes for directives and modifiers, told by their text.
-/

namespace Herold.Spf

open Herold.Go

/-- An optional sign and digits, of a value up to the limit. -/
def Numeral (limit : Nat) (text : Bytes) : Prop :=
  ∃ sign digits, text = sign ++ digits ∧ (sign = [] ∨ sign = [43] ∨ sign = [45]) ∧
    digits ≠ [] ∧ digits.all isDigit = true ∧ decimalValue digits ≤ limit ∧
    (sign = [45] → decimalValue digits = 0)

/-- The prefix lengths that are let through: leading zeros and signs among them, and
slashes without a number. -/
inductive LengthsPass : Bytes → Prop where
  | absent : LengthsPass []
  | four {text : Bytes} (four : text = [] ∨ Numeral 32 text) : LengthsPass (47 :: text)
  | six {text : Bytes} (six : Numeral 128 text) : LengthsPass (47 :: 47 :: text)
  | both {four six : Bytes} (first : Numeral 32 four) (second : six = [] ∨ Numeral 128 six) :
      LengthsPass (47 :: (four ++ 47 :: 47 :: six))

def HostPasses (argument : Bytes) : Prop :=
  LengthsPass argument ∨ ∃ domain lengths, argument = 58 :: (domain ++ lengths) ∧
    47 ∉ domain ∧ LengthsPass lengths

/-- The text of a network with the length that is meant where none is written. -/
def wholeNetwork (four : Bool) (text : Bytes) : Bytes :=
  if text.contains 47 then text else text ++ (if four then ascii "/32" else ascii "/128")

section

variable (cidr : Bytes → Option Network)

def NetworkPasses (four : Bool) (argument : Bytes) : Prop :=
  ∃ text network, argument = 58 :: text ∧ cidr (wholeNetwork four text) = some network ∧
    network.address.is4 = four

/-- What may stand behind the name of a mechanism. -/
def ArgumentPasses : MechanismName → Bytes → Prop
  | .all, argument => argument = []
  | .ip4, argument => NetworkPasses cidr true argument
  | .ip6, argument => NetworkPasses cidr false argument
  | .a, argument => HostPasses argument
  | .mx, argument => HostPasses argument
  | .includes, argument => ∃ domain, domain ≠ [] ∧ argument = 58 :: domain
  | .existing, argument => ∃ domain, domain ≠ [] ∧ argument = 58 :: domain
  | .ptr, argument => argument = [] ∨ ∃ domain, argument = 58 :: domain

/-- The term is the name of a mechanism behind a qualifier, and an argument. -/
def Opens (name : MechanismName) (term argument : Bytes) : Prop :=
  ∃ sign word, term = sign ++ word ++ argument ∧
    (sign = [] ∨ ∃ byte, sign = [byte] ∧ (qualifierOf byte).isSome = true) ∧
    nameOf word = some name ∧ (argument = [] ∨ argument.head? = some 58 ∨ argument.head? = some 47)

/-- The terms that `ParseRecord` lets through. -/
def Passes (term : Bytes) : Prop :=
  (∃ name argument, Opens name term argument ∧ ArgumentPasses cidr name argument) ∨
    (∀ name argument, ¬Opens name term argument) ∧
      ∃ name value, term = name ++ 61 :: value ∧ name ≠ [] ∧ 61 ∉ name

end

def spelling : MechanismName → Bytes
  | .all => ascii "all"
  | .includes => ascii "include"
  | .a => ascii "a"
  | .mx => ascii "mx"
  | .ptr => ascii "ptr"
  | .ip4 => ascii "ip4"
  | .ip6 => ascii "ip6"
  | .existing => ascii "exists"

theorem name_of_spelling {word : Bytes} {name : MechanismName} (named : nameOf word = some name) :
    toLower word = spelling name := by
  unfold nameOf at named
  dsimp only at named
  split_ifs at named with h1 h2 h3 h4 h5 h6 h7 h8 <;> cases named <;> assumption

theorem word_free {word : Bytes} {name : MechanismName} (named : nameOf word = some name) :
    58 ∉ word ∧ 47 ∉ word ∧ 61 ∉ word := by
  have spelled := name_of_spelling named
  have free : ∀ name, 58 ∉ spelling name ∧ 47 ∉ spelling name ∧ 61 ∉ spelling name := by
    intro name
    cases name <;> decide
  obtain ⟨colon, slash, equals⟩ := free name
  rw [← spelled] at colon slash equals
  exact ⟨fun inside => colon ((mem_to_lower rfl).mpr inside),
    fun inside => slash ((mem_to_lower rfl).mpr inside),
    fun inside => equals ((mem_to_lower rfl).mpr inside)⟩

theorem every_byte {holds : UInt8 → Prop} (each : ∀ value < 256, holds (UInt8.ofNat value))
    (byte : UInt8) : holds byte := by
  have back := each byte.toNat byte.toNat_lt
  rwa [UInt8.ofNat_toNat] at back

theorem qualifier_small : ∀ byte : UInt8, (qualifierOf byte).isSome = true →
    byte < 0x80 ∧ encodeRune (toLowerRune byte.toNat) = [byte] :=
  every_byte (by decide +kernel)

theorem word_head {word : Bytes} {name : MechanismName} (named : nameOf word = some name) :
    ∃ first rest, word = first :: rest ∧ qualifierOf first = none := by
  have spelled := name_of_spelling named
  cases word with
  | nil => cases name <;> cases spelled
  | cons first rest =>
    refine ⟨first, rest, rfl, ?_⟩
    by_contra sign
    obtain ⟨small, kept⟩ := qualifier_small first (Option.isSome_iff_ne_none.mpr sign)
    rw [to_lower_ascii_cons first rest small, kept, List.singleton_append] at spelled
    have heads : ∀ name, (spelling name).head?.bind qualifierOf = none := by
      intro name
      cases name <;> rfl
    have head := heads name
    rw [← spelled] at head
    exact sign head

theorem opens_iff (name : MechanismName) (term argument : Bytes) :
    Opens name term argument ↔
      nameOf ((takeQualifier term).2.takeWhile fun byte => !endsName byte) = some name ∧
        argument = (takeQualifier term).2.dropWhile fun byte => !endsName byte := by
  constructor
  · rintro ⟨sign, word, rfl, signed, named, ends⟩
    have behind : (takeQualifier (sign ++ word ++ argument)).2 = word ++ argument := by
      rcases signed with rfl | ⟨byte, rfl, isSign⟩
      · obtain ⟨first, rest, rfl, plain⟩ := word_head named
        simp [takeQualifier, plain]
      · obtain ⟨qualifier, isQualifier⟩ := Option.isSome_iff_exists.mp isSign
        simp [takeQualifier, isQualifier]
    obtain ⟨colon, slash, _⟩ := word_free named
    have inside : ∀ byte ∈ word, (!endsName byte) = true := by
      intro byte member
      simp only [endsName, Bool.not_eq_true', Bool.or_eq_false_iff, decide_eq_false_iff_not]
      exact ⟨fun same => colon (same ▸ member), fun same => slash (same ▸ member)⟩
    have stops : argument.takeWhile (fun byte => !endsName byte) = [] := by
      cases argument with
      | nil => rfl
      | cons first rest =>
        have last : first = 58 ∨ first = 47 := by simpa using ends
        rcases last with rfl | rfl <;> rfl
    have drops : argument.dropWhile (fun byte => !endsName byte) = argument := by
      have whole := List.takeWhile_append_dropWhile (p := fun byte => !endsName byte) (l := argument)
      rwa [stops, List.nil_append] at whole
    rw [behind, List.takeWhile_append_of_pos inside, List.dropWhile_append_of_pos inside, stops, drops,
      List.append_nil]
    exact ⟨named, rfl⟩
  · rintro ⟨named, rfl⟩
    have split : ∃ sign, term = sign ++ (takeQualifier term).2 ∧
        (sign = [] ∨ ∃ byte, sign = [byte] ∧ (qualifierOf byte).isSome = true) := by
      cases term with
      | nil => exact ⟨[], rfl, Or.inl rfl⟩
      | cons first rest =>
        rw [takeQualifier]
        cases isQualifier : qualifierOf first with
        | some qualifier => exact ⟨[first], rfl, Or.inr ⟨first, rfl, by rw [isQualifier]; rfl⟩⟩
        | none => exact ⟨[], rfl, Or.inl rfl⟩
    obtain ⟨sign, whole, signed⟩ := split
    refine ⟨sign, _, ?_, signed, named, ?_⟩
    · rw [List.append_assoc, List.takeWhile_append_dropWhile, ← whole]
    · cases rest : (takeQualifier term).2.dropWhile fun byte => !endsName byte with
      | nil => exact Or.inl rfl
      | cons first others =>
        right
        have stop := List.head?_dropWhile_not (fun byte => !endsName byte) (takeQualifier term).2
        rw [rest] at stop
        have last : endsName first = true := by simpa using stop
        simpa [endsName] using last

theorem opens_unique {name other : MechanismName} {term argument rest : Bytes}
    (opens : Opens name term argument) (again : Opens other term rest) :
    name = other ∧ argument = rest := by
  obtain ⟨named, here⟩ := (opens_iff name term argument).mp opens
  obtain ⟨renamed, there⟩ := (opens_iff other term rest).mp again
  rw [named] at renamed
  exact ⟨Option.some.inj renamed, here.trans there.symm⟩

theorem is_mechanism_iff (term : Bytes) :
    isMechanismWithArg term = true ↔ ∃ name argument, Opens name term argument := by
  unfold isMechanismWithArg
  constructor
  · intro found
    obtain ⟨name, named⟩ := Option.isSome_iff_exists.mp found
    exact ⟨name, _, (opens_iff name term _).mpr ⟨named, rfl⟩⟩
  · rintro ⟨name, argument, opens⟩
    rw [((opens_iff name term argument).mp opens).1]
    rfl

section Parsing

/-- The number behind the sign, read without a sign of its own. -/
def bareNumber (negative : Bool) (digits : Bytes) : Option Int :=
  if digits = [] ∨ !digits.all isDigit then none
  else if negative then
    (if decimalValue digits ≤ 2 ^ 63 then some (-(decimalValue digits : Int)) else none)
  else if decimalValue digits < 2 ^ 63 then some (decimalValue digits : Int) else none

theorem parse_signed (digits : Bytes) :
    parseInt64 (45 :: digits) = bareNumber true digits ∧
      parseInt64 (43 :: digits) = bareNumber false digits := ⟨rfl, rfl⟩

theorem parse_unsigned {text : Bytes} (minus : text.head? ≠ some 45) (plus : text.head? ≠ some 43) :
    parseInt64 text = bareNumber false text := by
  cases text with
  | nil => rfl
  | cons first rest =>
    have isMinus : first ≠ 45 := fun same => minus (by rw [same]; rfl)
    have isPlus : first ≠ 43 := fun same => plus (by rw [same]; rfl)
    unfold parseInt64 bareNumber
    simp [isMinus, isPlus]

theorem bare_number_some {negative : Bool} {digits : Bytes} {value : Int}
    (read : bareNumber negative digits = some value) :
    digits ≠ [] ∧ digits.all isDigit = true ∧
      value = if negative then -(decimalValue digits : Int) else decimalValue digits := by
  unfold bareNumber at read
  split at read
  · cases read
  rename_i proper
  rw [not_or] at proper
  refine ⟨proper.1, by simpa using proper.2, ?_⟩
  cases negative with
  | true =>
    simp only [if_true] at read ⊢
    split at read
    · exact (Option.some.inj read).symm
    · cases read
  | false =>
    simp only [Bool.false_eq_true, if_false] at read ⊢
    split at read
    · exact (Option.some.inj read).symm
    · cases read

theorem bare_number_small {digits : Bytes} (negative : Bool) (some_ : digits ≠ [])
    (all : digits.all isDigit = true) (small : decimalValue digits < 2 ^ 63) :
    bareNumber negative digits =
      some (if negative then -(decimalValue digits : Int) else decimalValue digits) := by
  have proper : ¬(digits = [] ∨ (!digits.all isDigit) = true) := by simp [some_, all]
  rw [bareNumber, if_neg proper]
  cases negative with
  | true => simp only [if_true, if_pos (Nat.le_of_lt small)]
  | false => simp only [Bool.false_eq_true, if_false, if_pos small]

theorem numeral_iff {limit : Nat} (small : limit < 2 ^ 63) (text : Bytes) :
    (parseBits limit text).isSome = true ↔ Numeral limit text := by
  have digit : isDigit 43 = false ∧ isDigit 45 = false := by decide
  constructor
  · intro read
    unfold parseBits at read
    split at read
    case h_2 => cases read
    rename_i value parsed
    split at read
    case isFalse => cases read
    rename_i bounds
    by_cases minus : ∃ digits, text = 45 :: digits
    · obtain ⟨digits, rfl⟩ := minus
      obtain ⟨some_, all, rfl⟩ := bare_number_some ((parse_signed digits).1.symm.trans parsed)
      simp only [if_true] at bounds
      exact ⟨[45], digits, rfl, Or.inr (Or.inr rfl), some_, all, by omega, fun _ => by omega⟩
    by_cases plus : ∃ digits, text = 43 :: digits
    · obtain ⟨digits, rfl⟩ := plus
      obtain ⟨some_, all, rfl⟩ := bare_number_some ((parse_signed digits).2.symm.trans parsed)
      simp only [Bool.false_eq_true, if_false] at bounds
      exact ⟨[43], digits, rfl, Or.inr (Or.inl rfl), some_, all, by omega, fun wrong => by cases wrong⟩
    have bare : parseInt64 text = bareNumber false text := by
      cases text with
      | nil => rfl
      | cons first rest =>
        refine parse_unsigned ?_ ?_
        · intro head
          exact minus ⟨rest, by rw [Option.some.inj head]⟩
        · intro head
          exact plus ⟨rest, by rw [Option.some.inj head]⟩
    obtain ⟨some_, all, rfl⟩ := bare_number_some (bare.symm.trans parsed)
    simp only [Bool.false_eq_true, if_false] at bounds
    exact ⟨[], text, rfl, Or.inl rfl, some_, all, by omega, fun wrong => by cases wrong⟩
  · rintro ⟨sign, digits, rfl, signed, some_, all, within, zero⟩
    have below : decimalValue digits < 2 ^ 63 := Nat.lt_of_le_of_lt within small
    have fits : (0 : Int) ≤ decimalValue digits ∧ (decimalValue digits : Int) ≤ limit := by omega
    rcases signed with rfl | rfl | rfl
    · have parsed : parseInt64 digits = some (decimalValue digits : Int) := by
        refine (parse_unsigned ?_ ?_).trans (bare_number_small false some_ all below)
        · intro head
          obtain ⟨rest, rfl⟩ := List.head?_eq_some_iff.mp head
          simp [digit.2] at all
        · intro head
          obtain ⟨rest, rfl⟩ := List.head?_eq_some_iff.mp head
          simp [digit.1] at all
      rw [List.nil_append, parseBits, parsed]
      simp only [if_pos fits]
      rfl
    · have parsed : parseInt64 (43 :: digits) = some (decimalValue digits : Int) :=
        (parse_signed digits).2.trans (bare_number_small false some_ all below)
      rw [List.singleton_append, parseBits, parsed]
      simp only [if_pos fits]
      rfl
    · have parsed : parseInt64 (45 :: digits) = some (-(decimalValue digits : Int)) :=
        (parse_signed digits).1.trans (bare_number_small true some_ all below)
      have nothing := zero rfl
      rw [List.singleton_append, parseBits, parsed]
      simp [nothing]

theorem numeral_bytes {limit : Nat} {text : Bytes} (numeral : Numeral limit text) :
    text ≠ [] ∧ 47 ∉ text := by
  obtain ⟨sign, digits, rfl, signed, some_, all, _⟩ := numeral
  refine ⟨by simp [some_], ?_⟩
  rw [List.mem_append, not_or]
  constructor
  · rcases signed with rfl | rfl | rfl <;> decide
  · intro inside
    have digit := List.all_eq_true.mp all 47 inside
    exact absurd digit (by decide)

theorem bits_or_iff (otherwise : Nat) {limit : Nat} (small : limit < 2 ^ 63) (text : Bytes) :
    (parseBitsOr otherwise limit text).isSome = true ↔ text = [] ∨ Numeral limit text := by
  unfold parseBitsOr
  cases text with
  | nil => simp
  | cons first rest => simpa using numeral_iff small (first :: rest)

theorem cut_double_slash (four six : Bytes) (free : 47 ∉ four) :
    cutFirst [47, 47] (four ++ 47 :: 47 :: six) = some (four, six) := by
  induction four with
  | nil => rfl
  | cons first four ih =>
    rw [List.mem_cons, not_or] at free
    rw [List.cons_append, cutFirst, if_neg, ih free.2]
    · rfl
    · intro starts
      simp only [hasPrefix, List.isPrefixOf_cons_cons, Bool.and_eq_true, beq_iff_eq] at starts
      exact free.1 starts.1

theorem lengths_pass_iff (text : Bytes) : (parseDualBits text).isSome = true ↔ LengthsPass text := by
  have small4 : (32 : Nat) < 2 ^ 63 := by decide
  have small6 : (128 : Nat) < 2 ^ 63 := by decide
  constructor
  · intro read
    unfold parseDualBits at read
    split at read
    · exact .absent
    · rw [Option.isSome_map] at read
      exact .six ((numeral_iff small6 _).mp read)
    · rename_i tail single
      dsimp only at read
      obtain ⟨⟨bits4, bits6⟩, both⟩ := Option.isSome_iff_exists.mp read
      obtain ⟨four, isFour, rest⟩ := Option.bind_eq_some_iff.mp both
      obtain ⟨six, isSix, _⟩ := Option.map_eq_some_iff.mp rest
      have first := (bits_or_iff _ small4 _).mp (Option.isSome_iff_exists.mpr ⟨four, isFour⟩)
      have second := (bits_or_iff _ small6 _).mp (Option.isSome_iff_exists.mpr ⟨six, isSix⟩)
      cases cut : cutFirst [47, 47] tail with
      | none =>
        rw [cut] at first
        exact .four first
      | some parts =>
        obtain ⟨before, after⟩ := parts
        rw [cut] at first second
        have whole := cut_first_splits cut
        subst whole
        rcases first with rfl | numeral
        · exact (single (47 :: after) rfl).elim
        · simpa using LengthsPass.both numeral second
    · cases read
  · rintro (_ | four | six | ⟨first, second⟩)
    · rfl
    · rename_i text
      have free : cutFirst [47, 47] text = none := by
        by_contra found
        obtain ⟨⟨before, after⟩, cut⟩ := Option.ne_none_iff_exists'.mp found
        have whole := cut_first_splits cut
        rcases four with rfl | numeral
        · cases cut
        · exact (numeral_bytes numeral).2 (by rw [whole]; simp)
      have double : ∀ rest, text ≠ 47 :: rest := by
        rintro rest rfl
        rcases four with wrong | numeral
        · cases wrong
        · exact (numeral_bytes numeral).2 (by simp)
      have first := (bits_or_iff 32 small4 text).mpr four
      obtain ⟨bits, isBits⟩ := Option.isSome_iff_exists.mp first
      unfold parseDualBits
      split
      · rfl
      · rename_i six shape
        exact absurd (List.cons.inj shape).2 (double six)
      · rename_i tail _ shape
        obtain rfl := (List.cons.inj shape).2
        simp only [free, Option.getD_none, isBits]
        rfl
      · rename_i other shape
        exact absurd rfl (shape text)
    · rename_i text
      rw [parseDualBits, Option.isSome_map]
      exact (numeral_iff small6 text).mpr six
    · rename_i four six
      obtain ⟨filled, free⟩ := numeral_bytes first
      obtain ⟨bits4, isFour⟩ := Option.isSome_iff_exists.mp
        ((bits_or_iff 32 small4 four).mpr (Or.inr first))
      obtain ⟨bits6, isSix⟩ := Option.isSome_iff_exists.mp
        ((bits_or_iff 128 small6 six).mpr second)
      unfold parseDualBits
      split
      · rfl
      · rename_i tail shape
        cases four with
        | nil => exact absurd rfl filled
        | cons head rest =>
          have same := (List.cons.inj (List.cons.inj shape).2).1
          exact absurd (by simp [same]) free
      · rename_i tail _ shape
        obtain rfl := (List.cons.inj shape).2
        simp only [cut_double_slash four six free, Option.getD_some, isFour, isSix]
        rfl
      · rename_i other shape
        exact absurd rfl (shape (four ++ 47 :: 47 :: six))

theorem lengths_head {text : Bytes} (lengths : LengthsPass text) : text.head? ≠ some 58 := by
  cases lengths <;> simp

theorem host_passes_iff (mechanism : Mechanism) (argument : Bytes) :
    (parseHost mechanism argument).isSome = true ↔ HostPasses argument := by
  unfold parseHost
  rw [Option.isSome_map, lengths_pass_iff]
  constructor
  · intro lengths
    split at lengths
    · rename_i text
      refine Or.inr ⟨text.takeWhile fun byte => byte ≠ 47, _, ?_, ?_, lengths⟩
      · rw [List.takeWhile_append_dropWhile]
      · intro inside
        simpa using List.mem_takeWhile_imp inside
    · exact Or.inl lengths
  · rintro (lengths | ⟨domain, lengths, rfl, free, pass⟩)
    · split
      · rename_i text
        exact absurd rfl (lengths_head lengths)
      · exact lengths
    · have inside : ∀ byte ∈ domain, decide (byte ≠ 47) = true := fun byte member =>
        decide_eq_true fun same => free (same ▸ member)
      have stays : lengths.dropWhile (fun byte => decide (byte ≠ 47)) = lengths := by
        cases pass <;> rfl
      simp only
      rw [List.dropWhile_append_of_pos inside, stays]
      exact pass

variable (cidr : Bytes → Option Network)

theorem parse_network_colon (mechanism : Mechanism) (text : Bytes) (four : Bool) :
    parseNetwork cidr mechanism (58 :: text) four =
      (cidr (wholeNetwork four text)).bind fun network =>
        if network.address.is4 = four then some { mechanism with network } else none := by
  unfold parseNetwork wholeNetwork
  split
  · rename_i shape
    obtain rfl := (List.cons.inj shape).2
    dsimp only
    generalize cidr _ = answer
    cases answer with
    | none => rfl
    | some network => rfl
  · rename_i other
    exact absurd rfl (other text)

theorem network_passes_iff (mechanism : Mechanism) (argument : Bytes) (four : Bool) :
    (parseNetwork cidr mechanism argument four).isSome = true ↔ NetworkPasses cidr four argument := by
  by_cases colon : ∃ text, argument = 58 :: text
  · obtain ⟨text, rfl⟩ := colon
    rw [parse_network_colon]
    constructor
    · intro read
      obtain ⟨result, isResult⟩ := Option.isSome_iff_exists.mp read
      obtain ⟨network, isNetwork, same⟩ := Option.bind_eq_some_iff.mp isResult
      split at same
      · rename_i family
        exact ⟨text, network, rfl, isNetwork, family⟩
      · cases same
    · rintro ⟨_, network, same, isNetwork, family⟩
      obtain rfl := (List.cons.inj same).2
      rw [isNetwork, Option.bind_some, if_pos family]
      rfl
  · unfold parseNetwork
    split
    · rename_i text
      exact absurd ⟨text, rfl⟩ colon
    · refine iff_of_false (by simp) ?_
      rintro ⟨text, _, same, _⟩
      exact colon ⟨text, same⟩

theorem domain_passes_iff (mechanism : Mechanism) (argument : Bytes) :
    ((parseDomain mechanism argument true).isSome = true ↔
        ∃ domain, domain ≠ [] ∧ argument = 58 :: domain) ∧
      ((parseDomain mechanism argument false).isSome = true ↔
        argument = [] ∨ ∃ domain, argument = 58 :: domain) := by
  unfold parseDomain
  split
  · rename_i domain
    constructor
    · cases domain <;> simp
    · simp
  · simp
  · rename_i colon empty
    constructor
    · refine iff_of_false (by simp) ?_
      rintro ⟨domain, _, rfl⟩
      exact colon domain rfl
    · refine iff_of_false (by simp) ?_
      rintro (rfl | ⟨domain, rfl⟩)
      · exact empty rfl
      · exact colon domain rfl

theorem parse_mechanism_iff (term : Bytes) :
    (parseMechanism cidr term).isSome = true ↔
      ∃ name argument, Opens name term argument ∧ ArgumentPasses cidr name argument := by
  have known : (∃ name argument, Opens name term argument ∧ ArgumentPasses cidr name argument) ↔
      ∃ name, nameOf ((takeQualifier term).2.takeWhile fun byte => !endsName byte) = some name ∧
        ArgumentPasses cidr name ((takeQualifier term).2.dropWhile fun byte => !endsName byte) := by
    constructor
    · rintro ⟨name, argument, opens, passes⟩
      obtain ⟨named, rfl⟩ := (opens_iff name term argument).mp opens
      exact ⟨name, named, passes⟩
    · rintro ⟨name, named, passes⟩
      exact ⟨name, _, (opens_iff name term _).mpr ⟨named, rfl⟩, passes⟩
  rw [known]
  unfold parseMechanism
  dsimp only
  cases named : nameOf ((takeQualifier term).2.takeWhile fun byte => !endsName byte) with
  | none => simp
  | some name =>
    simp only [Option.some.injEq, exists_eq_left']
    generalize (takeQualifier term).2.dropWhile (fun byte => !endsName byte) = argument
    cases name with
    | all =>
      cases argument with
      | nil => simp [ArgumentPasses, parseArgument]
      | cons first rest => simp [ArgumentPasses, parseArgument]
    | ip4 => exact network_passes_iff cidr _ argument true
    | ip6 => exact network_passes_iff cidr _ argument false
    | a => exact host_passes_iff _ argument
    | mx => exact host_passes_iff _ argument
    | includes => exact (domain_passes_iff _ argument).1
    | existing => exact (domain_passes_iff _ argument).1
    | ptr => exact (domain_passes_iff _ argument).2

theorem parse_term_iff (record : Record) (term : Bytes) :
    (parseTerm cidr record term).isSome = true ↔ Passes cidr term := by
  unfold parseTerm
  by_cases directive : isMechanismWithArg term = true
  · have opens := (is_mechanism_iff term).mp directive
    rw [directive, Bool.not_true, Bool.and_false, if_neg (by simp), Option.isSome_map,
      parse_mechanism_iff]
    constructor
    · exact Or.inl
    · rintro (passes | ⟨closed, _⟩)
      · exact passes
      · obtain ⟨name, argument, here⟩ := opens
        exact absurd here (closed name argument)
  · have closed : ∀ name argument, ¬Opens name term argument := fun name argument here =>
      directive ((is_mechanism_iff term).mpr ⟨name, argument, here⟩)
    have plain : isMechanismWithArg term = false := by simpa using directive
    rw [plain, Bool.not_false, Bool.and_true]
    split
    · rename_i equals
      split
      · rename_i value cut
        obtain ⟨whole, _⟩ := cut_first_byte_splits 61 term _ _ cut
        refine iff_of_false (by simp) ?_
        rintro (⟨name, argument, here, _⟩ | ⟨_, name, value', whole', named, free⟩)
        · exact closed name argument here
        · rw [whole, List.nil_append] at whole'
          cases name with
          | nil => exact named rfl
          | cons first rest =>
            have same := (List.cons.inj whole').1
            exact free (by rw [same]; exact List.mem_cons_self ..)
      · rename_i name value other cut
        obtain ⟨whole, free⟩ := cut_first_byte_splits 61 term _ _ cut
        refine iff_of_true rfl (Or.inr ⟨closed, name, value, whole, ?_, free⟩)
        rintro rfl
        exact other rfl
      · rename_i cut
        have absent := (cut_first_byte_none 61 term).mp cut
        exact absurd (List.contains_iff_mem.mp equals) absent
    · rename_i equals
      refine iff_of_false ?_ ?_
      · rw [Option.isSome_map, parse_mechanism_iff]
        rintro ⟨name, argument, here, _⟩
        exact closed name argument here
      · rintro (⟨name, argument, here, _⟩ | ⟨_, name, value, whole, _⟩)
        · exact closed name argument here
        · exact equals (List.contains_iff_mem.mpr (by rw [whole]; simp))

theorem parse_terms_iff (terms : List Bytes) (record : Record) :
    (terms.foldlM (parseTerm cidr) record).isSome = true ↔ ∀ term ∈ terms, Passes cidr term := by
  induction terms generalizing record with
  | nil => simp
  | cons term terms ih =>
    rw [List.foldlM_cons, List.forall_mem_cons, ← parse_term_iff cidr record term]
    cases read : parseTerm cidr record term with
    | none => simp
    | some next => simpa using ih next

end Parsing

end Herold.Spf

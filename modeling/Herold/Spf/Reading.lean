import Herold.Go.Fields
import Herold.Go.Split
import Herold.Spf.Grammar
import Herold.Spf.Passing

/-!
# Records that are read alike

`ParseRecord` lets more through than the grammar, and two kinds of terms of the grammar it
reads in another way. Both are said of the text of a record. What is left are the TXT
records that the code and RFC 7208 take for the same.
-/

namespace Herold.Spf

open Herold.Go

section

variable (cidr : Bytes → Option Network)

/-- A slash in the domain of `a` or `mx`, where `ParseRecord` begins the lengths. -/
def SlashedHost (term : Bytes) : Prop :=
  ∃ name text, (name = .a ∨ name = .mx) ∧ Opens name term (58 :: text) ∧
    46 ∈ text.dropWhile fun byte => byte ≠ 47

/-- A network of `ip6` that is an IPv4 network, which `ParseRecord` refuses. -/
def MappedNetwork (term : Bytes) : Prop :=
  ∃ text network, Opens .ip6 term (58 :: text) ∧ cidr (wholeNetwork false text) = some network ∧
    network.address.is4 = true

/-- A record behind its version is read alike. -/
def TermsLegible (terms : Bytes) : Prop :=
  if (standardParse cidr terms).isSome then
    ∀ term ∈ fields terms, ¬SlashedHost term ∧ ¬MappedNetwork cidr term
  else ∃ term ∈ fields terms, ¬Passes cidr term

/-- The TXT records of a name are taken for the same record. -/
def Legible (texts : List Bytes) : Prop :=
  match texts.filter isVersion1 with
  | [] => texts.filter looksLikeSpf = []
  | [text] =>
    if texts.filter looksLikeSpf = [text] then TermsLegible cidr (text.drop 6)
    else standardParse cidr (text.drop 6) = none
  | _ => True

end

/-- A byte that is neither white space nor a control character. -/
def Visible (byte : UInt8) : Prop := 33 ≤ byte ∧ byte ≤ 126

section Visibility

theorem alpha_numeric_visible : ∀ byte : UInt8, isAlphaNumeric byte = true → Visible byte := by
  unfold Visible
  exact every_byte (by decide +kernel)

theorem qualifier_visible : ∀ byte : UInt8, (qualifierOf byte).isSome = true → Visible byte := by
  unfold Visible
  exact every_byte (by decide +kernel)

theorem visible_rune : ∀ byte : UInt8, Visible byte → byte < 0x80 ∧ isSpaceRune byte.toNat = false := by
  unfold Visible
  exact every_byte (by decide +kernel)

theorem visible_runes {text : Bytes} (visible : ∀ byte ∈ text, Visible byte) :
    ∀ item ∈ runes text, isSpace item = false := by
  induction text with
  | nil => simp
  | cons first rest ih =>
    obtain ⟨small, word⟩ := visible_rune first (visible first (List.mem_cons_self ..))
    rw [runes_ascii_cons first rest small]
    intro item member
    rcases List.mem_cons.mp member with rfl | later
    · exact word
    · exact ih (fun byte inside => visible byte (List.mem_cons_of_mem _ inside)) item later

theorem fields_of_visible (text : Bytes)
    (visible : ∀ part ∈ splitByte 32 text, ∀ byte ∈ part, Visible byte) :
    fields text = (splitByte 32 text).filter fun part => !part.isEmpty := by
  generalize size : text.length = total
  induction total using Nat.strong_induction_on generalizing text with
  | _ total ih =>
    by_cases inside : (32 : UInt8) ∈ text
    · obtain ⟨part, rest, rfl, free⟩ := List.eq_append_cons_of_mem inside
      rw [split_byte_cons 32 part rest free] at visible ⊢
      have shorter : rest.length < total := by
        rw [← size, List.length_append, List.length_cons]
        omega
      have later := ih rest.length shorter rest
        (fun part member => visible part (List.mem_cons_of_mem _ member)) rfl
      rw [fields_behind_word part rest (visible_runes (visible part (List.mem_cons_self ..))), later,
        List.filter_cons]
      cases part <;> simp
    · rw [split_byte_whole 32 text inside] at visible ⊢
      rw [fields_of_word text (visible_runes (visible text (List.mem_cons_self ..)))]
      cases text <;> simp

theorem length_visible {digits : Nat} {text : Bytes} (isLength' : isLength digits text = true) :
    ∀ byte ∈ text, Visible byte := by
  unfold isLength at isLength'
  intro byte inside
  rcases Bool.or_eq_true_iff.mp isLength' with zero | number
  · rw [of_decide_eq_true zero, List.mem_singleton] at inside
    rw [inside]
    exact ⟨by decide, by decide⟩
  · have digit := List.all_eq_true.mp
      (Bool.and_eq_true_iff.mp (Bool.and_eq_true_iff.mp number).1).1 byte inside
    exact alpha_numeric_visible byte (by rw [isAlphaNumeric, digit, Bool.or_true])

theorem dual_length_visible {text : Bytes} (dual : isDualLength text = true) :
    ∀ byte ∈ text, Visible byte := by
  have slash : Visible 47 := ⟨by decide, by decide⟩
  unfold isDualLength at dual
  split at dual
  · simp
  · rename_i six
    intro byte inside
    rcases List.mem_cons.mp inside with rfl | inside
    · exact slash
    · rcases List.mem_cons.mp inside with rfl | inside
      · exact slash
      · exact length_visible dual byte inside
  · rename_i lengths _
    intro byte inside
    rcases List.mem_cons.mp inside with rfl | inside
    · exact slash
    · split at dual
      · rename_i four six cut
        obtain ⟨first, second⟩ := Bool.and_eq_true_iff.mp dual
        rw [cut_first_splits cut] at inside
        simp only [List.append_assoc, List.cons_append, List.nil_append, List.mem_append,
          List.mem_cons] at inside
        rcases inside with early | rfl | rfl | late
        · exact length_visible first byte early
        · exact slash
        · exact slash
        · exact length_visible second byte late
      · exact length_visible dual byte inside
  · cases dual

theorem macro_string_visible {text : Bytes} (plain : isMacroString text = true) :
    ∀ byte ∈ text, Visible byte := by
  intro byte inside
  have visible := List.all_eq_true.mp plain byte inside
  simp only [Bool.and_eq_true, decide_eq_true_eq] at visible
  exact ⟨visible.1.1, visible.1.2⟩

theorem domain_spec_visible {text : Bytes} (domain : isDomainSpec text = true) :
    ∀ byte ∈ text, Visible byte :=
  macro_string_visible (Bool.and_eq_true_iff.mp domain).1

theorem network_byte_visible : ∀ (four : Bool) (byte : UInt8), isNetworkByte four byte = true →
    Visible byte := by
  unfold Visible
  exact fun four => every_byte (by cases four <;> decide +kernel)

theorem network_visible {four : Bool} {text : Bytes} (network : isNetwork four text = true) :
    ∀ byte ∈ text, Visible byte := by
  unfold isNetwork at network
  dsimp only at network
  obtain ⟨front, behind⟩ := Bool.and_eq_true_iff.mp network
  intro byte inside
  cases cut : cutFirstByte 47 text with
  | none =>
    rw [cut] at front
    exact network_byte_visible four byte (List.all_eq_true.mp front byte inside)
  | some parts =>
    obtain ⟨before, after⟩ := parts
    rw [cut] at front behind
    obtain ⟨whole, _⟩ := cut_first_byte_splits 47 text before after cut
    rw [whole] at inside
    rcases List.mem_append.mp inside with early | late
    · exact network_byte_visible four byte (List.all_eq_true.mp front byte early)
    · rcases List.mem_cons.mp late with rfl | later
      · exact ⟨by decide, by decide⟩
      · exact length_visible (by simpa using behind) byte later

end Visibility

section Hosts

/-- The label behind the last dot, and the lengths that begin in it. -/
theorem host_parts_split (text : Bytes) :
    ∃ before label, text = before ++ label ∧ 46 ∉ label ∧ (before ≠ [] → 46 ∈ before.getLast?) ∧
      hostParts (58 :: text) = (before ++ label.takeWhile fun byte => byte ≠ 47,
        label.dropWhile fun byte => byte ≠ 47) := by
  have whole : text = (text.reverse.dropWhile fun byte => byte ≠ 46).reverse ++
      (text.reverse.takeWhile fun byte => byte ≠ 46).reverse := by
    rw [← List.reverse_append, List.takeWhile_append_dropWhile, List.reverse_reverse]
  refine ⟨_, _, whole, ?_, ?_, ?_⟩
  · intro inside
    simpa using List.mem_takeWhile_imp (List.mem_reverse.mp inside)
  · intro some_
    rw [ne_eq, List.reverse_eq_nil_iff] at some_
    obtain ⟨first, rest, shape⟩ := List.exists_cons_of_ne_nil some_
    have stop := List.head?_dropWhile_not (fun byte : UInt8 => decide (byte ≠ 46)) text.reverse
    rw [shape] at stop
    have dot : first = 46 := by simpa using stop
    rw [List.getLast?_reverse, shape, dot]
    rfl
  · have shown : hostParts (58 :: text) =
        (text.take (text.length - ((text.reverse.takeWhile fun byte => byte ≠ 46).reverse.dropWhile
            fun byte => byte ≠ 47).length),
          (text.reverse.takeWhile fun byte => byte ≠ 46).reverse.dropWhile fun byte => byte ≠ 47) := rfl
    rw [shown]
    generalize (text.reverse.takeWhile fun byte => byte ≠ 46).reverse = label at whole ⊢
    generalize (text.reverse.dropWhile fun byte => byte ≠ 46).reverse = before at whole ⊢
    have parts := List.takeWhile_append_dropWhile (p := fun byte : UInt8 => decide (byte ≠ 47))
      (l := label)
    have again : text = (before ++ label.takeWhile fun byte => byte ≠ 47) ++
        label.dropWhile fun byte => byte ≠ 47 := by
      rw [List.append_assoc, parts, whole]
    have length := congrArg List.length again
    rw [List.length_append] at length
    rw [length, Nat.add_sub_cancel]
    conv_lhs => rw [again]
    rw [List.take_left]

/-- Where no dot stands behind a slash, the lengths begin at the first slash. -/
theorem host_parts_alike (text : Bytes) (plain : 46 ∉ text.dropWhile fun byte => byte ≠ 47) :
    hostParts (58 :: text) =
      (text.takeWhile fun byte => byte ≠ 47, text.dropWhile fun byte => byte ≠ 47) := by
  obtain ⟨before, label, rfl, _, ends, parts⟩ := host_parts_split text
  rw [parts]
  have free : ∀ byte ∈ before, decide (byte ≠ 47) = true := by
    by_contra slashed
    have stuck : before.dropWhile (fun byte => decide (byte ≠ 47)) ≠ [] := by
      intro gone
      exact slashed fun byte inside => List.dropWhile_eq_nil_iff.mp gone byte inside
    have kept : (before ++ label).dropWhile (fun byte => decide (byte ≠ 47)) =
        before.dropWhile (fun byte => decide (byte ≠ 47)) ++ label := by
      rw [List.dropWhile_append, if_neg (by simpa using stuck)]
    have some_ : before ≠ [] := by
      rintro rfl
      exact stuck rfl
    obtain ⟨front, same⟩ := List.dropWhile_suffix (fun byte : UInt8 => decide (byte ≠ 47)) (l := before)
    have last := ends some_
    rw [← same, List.getLast?_append_of_ne_nil _ stuck] at last
    rw [kept] at plain
    exact plain (List.mem_append_left _ (List.mem_of_getLast? last))
  rw [List.takeWhile_append_of_pos free, List.dropWhile_append_of_pos free]

theorem host_parts_slashed (text : Bytes) (slashed : 46 ∈ text.dropWhile fun byte => byte ≠ 47) :
    47 ∈ (hostParts (58 :: text)).1 := by
  obtain ⟨before, label, rfl, free, _, parts⟩ := host_parts_split text
  rw [parts]
  by_contra clean
  have front : ∀ byte ∈ before, decide (byte ≠ 47) = true := fun byte inside =>
    decide_eq_true fun same => clean (List.mem_append_left _ (same ▸ inside))
  rw [List.dropWhile_append_of_pos front] at slashed
  exact free ((List.dropWhile_sublist _).subset slashed)

theorem host_parts_visible {argument : Bytes}
    (named : argument.head? ≠ some 58 ∨ isDomainSpec (hostParts argument).1 = true)
    (dual : isDualLength (hostParts argument).2 = true) : ∀ byte ∈ argument, Visible byte := by
  by_cases colon : ∃ text, argument = 58 :: text
  · obtain ⟨text, rfl⟩ := colon
    have domain : isDomainSpec (hostParts (58 :: text)).1 = true := by
      rcases named with other | domain
      · exact absurd rfl other
      · exact domain
    obtain ⟨before, label, rfl, _, _, parts⟩ := host_parts_split text
    rw [parts] at domain dual
    intro byte inside
    rcases List.mem_cons.mp inside with rfl | inside
    · exact ⟨by decide, by decide⟩
    · have whole : before ++ label = (before ++ label.takeWhile fun byte => byte ≠ 47) ++
          label.dropWhile fun byte => byte ≠ 47 := by
        rw [List.append_assoc, List.takeWhile_append_dropWhile]
      rw [whole] at inside
      rcases List.mem_append.mp inside with early | late
      · exact domain_spec_visible domain byte early
      · exact dual_length_visible dual byte late
  · have same : hostParts argument = ([], argument) := by
      unfold hostParts
      split
      · rename_i text
        exact absurd ⟨text, rfl⟩ colon
      · rfl
    rw [same] at dual
    exact dual_length_visible dual

end Hosts

section Terms

variable {cidr : Bytes → Option Network} {term : Bytes}

theorem standard_name_of {word : Bytes} {name : MechanismName} (named : standardName word = some name) :
    nameOf word = some name ∧ ∀ byte ∈ word, Visible byte := by
  unfold standardName at named
  split at named
  · rename_i plain
    exact ⟨named, fun byte inside => alpha_numeric_visible byte (List.all_eq_true.mp plain byte inside)⟩
  · cases named

theorem standard_argument_visible {mechanism result : Mechanism} {argument : Bytes}
    (accepted : standardArgument cidr mechanism argument = some result) :
    (∀ byte ∈ argument, Visible byte) ∧ result.name = mechanism.name := by
  have colon : Visible 58 := ⟨by decide, by decide⟩
  have behind {text : Bytes} (visible : ∀ byte ∈ text, Visible byte) : ∀ byte ∈ 58 :: text,
    Visible byte := by
    intro byte inside
    rcases List.mem_cons.mp inside with rfl | later
    · exact colon
    · exact visible byte later
  have network {four : Bool} (read : standardNetwork cidr mechanism four argument = some result) :
      (∀ byte ∈ argument, Visible byte) ∧ result.name = mechanism.name := by
    unfold standardNetwork at read
    split at read
    · dsimp only at read
      split at read
      · rename_i proper
        refine ⟨behind (network_visible proper), ?_⟩
        obtain ⟨network, _, same⟩ := Option.bind_eq_some_iff.mp read
        split at same
        · cases same
          rfl
        · split at same
          · cases same
          · cases same
            rfl
      · cases read
    · cases read
  have host (read : standardHost mechanism argument = some result) :
      (∀ byte ∈ argument, Visible byte) ∧ result.name = mechanism.name := by
    unfold standardHost at read
    dsimp only at read
    split at read
    · rename_i proper
      obtain ⟨named, dual⟩ := Bool.and_eq_true_iff.mp proper
      refine ⟨host_parts_visible (by simpa using named) dual, ?_⟩
      obtain ⟨bits, _, same⟩ := Option.map_eq_some_iff.mp read
      cases same
      rfl
    · cases read
  have domain {needed : Bool} (read : standardDomain mechanism needed argument = some result) :
      (∀ byte ∈ argument, Visible byte) ∧ result.name = mechanism.name := by
    unfold standardDomain at read
    split at read
    · split at read
      · rename_i proper
        cases read
        exact ⟨behind (domain_spec_visible proper), rfl⟩
      · cases read
    · split at read
      · cases read
      · cases read
        exact ⟨by simp, rfl⟩
    · cases read
  unfold standardArgument at accepted
  split at accepted
  · split at accepted
    · rename_i empty
      cases accepted
      rw [List.isEmpty_iff.mp empty]
      exact ⟨by simp, rfl⟩
    · cases accepted
  · exact network accepted
  · exact network accepted
  · exact host accepted
  · exact host accepted
  · exact domain accepted
  · exact domain accepted
  · exact domain accepted

theorem standard_mechanism_some {mechanism : Mechanism}
    (accepted : standardMechanism cidr term = some mechanism) :
    ∃ argument, Opens mechanism.name term argument ∧
      standardArgument cidr { qualifier := (takeQualifier term).1, name := mechanism.name } argument =
        some mechanism ∧ ∀ byte ∈ term, Visible byte := by
  unfold standardMechanism at accepted
  dsimp only at accepted
  obtain ⟨name, named, read⟩ := Option.bind_eq_some_iff.mp accepted
  obtain ⟨plain, visible⟩ := standard_name_of named
  obtain ⟨behind, same⟩ := standard_argument_visible read
  dsimp only at same
  subst same
  refine ⟨_, (opens_iff _ term _).mpr ⟨plain, rfl⟩, read, ?_⟩
  intro byte inside
  have parts : (takeQualifier term).2 = ((takeQualifier term).2.takeWhile fun byte => !endsName byte) ++
      (takeQualifier term).2.dropWhile fun byte => !endsName byte :=
    (List.takeWhile_append_dropWhile).symm
  have rest : ∀ byte ∈ (takeQualifier term).2, Visible byte := by
    intro byte inside
    rw [parts] at inside
    rcases List.mem_append.mp inside with early | late
    · exact visible byte early
    · exact behind byte late
  cases term with
  | nil => cases inside
  | cons first others =>
    rw [takeQualifier] at rest
    cases isQualifier : qualifierOf first with
    | some qualifier =>
      rw [isQualifier] at rest
      rcases List.mem_cons.mp inside with rfl | later
      · exact qualifier_visible _ (by rw [isQualifier]; rfl)
      · exact rest byte later
    | none =>
      rw [isQualifier] at rest
      exact rest byte inside

theorem standard_network_colon (mechanism : Mechanism) (four : Bool) (text : Bytes) :
    standardNetwork cidr mechanism four (58 :: text) =
      if isNetwork four text then
        (cidr (wholeNetwork four text)).bind fun network =>
          if network.address.is4 = four then some { mechanism with network }
          else if four then none else some mechanism
      else none := rfl

/-- Code and grammar read an argument alike but for a slash in a host and a mapped network. -/
theorem standard_argument_alike (mechanism : Mechanism) {result : Mechanism} {argument : Bytes}
    (opens : Opens mechanism.name term argument) (whole : ¬SlashedHost term)
    (foreign : ¬MappedNetwork cidr term)
    (accepted : standardArgument cidr mechanism argument = some result) :
    parseArgument cidr mechanism argument = some result := by
  have network (four : Bool) (named : four = false → mechanism.name = .ip6)
      (read : standardNetwork cidr mechanism four argument = some result) :
      parseNetwork cidr mechanism argument four = some result := by
    by_cases colon : ∃ text, argument = 58 :: text
    · obtain ⟨text, rfl⟩ := colon
      rw [standard_network_colon] at read
      split at read
      · obtain ⟨network, found, same⟩ := Option.bind_eq_some_iff.mp read
        rw [parse_network_colon, found, Option.bind_some]
        by_cases family : network.address.is4 = four
        · rw [if_pos family] at same ⊢
          exact same
        · rw [if_neg family] at same
          cases four with
          | true => cases same
          | false =>
            rw [named rfl] at opens
            exact absurd ⟨text, network, opens, found, by simpa using family⟩ foreign
      · cases read
    · unfold standardNetwork at read
      split at read
      · rename_i text
        exact absurd ⟨text, rfl⟩ colon
      · cases read
  have host (named : mechanism.name = .a ∨ mechanism.name = .mx)
      (read : standardHost mechanism argument = some result) :
      parseHost mechanism argument = some result := by
    unfold standardHost at read
    unfold parseHost
    dsimp only at read
    split at read
    · by_cases colon : ∃ text, argument = 58 :: text
      · obtain ⟨text, rfl⟩ := colon
        have plain : 46 ∉ text.dropWhile fun byte => byte ≠ 47 := fun slashed =>
          whole ⟨mechanism.name, text, named, opens, slashed⟩
        rw [host_parts_alike text plain] at read
        exact read
      · have bare : hostParts argument = ([], argument) := by
          unfold hostParts
          split
          · rename_i text _
            exact absurd ⟨text, rfl⟩ colon
          · rfl
        rw [bare] at read
        dsimp only
        split
        · rename_i text _
          exact absurd ⟨text, rfl⟩ colon
        · exact read
    · cases read
  have domain (needed : Bool) (read : standardDomain mechanism needed argument = some result) :
      parseDomain mechanism argument needed = some result := by
    unfold standardDomain at read
    split at read
    · rename_i text
      split at read
      · rename_i proper
        cases text with
        | nil => cases proper
        | cons first rest => simpa [parseDomain] using read
      · cases read
    · exact read
    · cases read
  unfold standardArgument at accepted
  unfold parseArgument
  cases name : mechanism.name with
  | all =>
    rw [name] at accepted
    exact accepted
  | ip4 =>
    rw [name] at accepted
    exact network true (fun wrong => by cases wrong) accepted
  | ip6 =>
    rw [name] at accepted
    exact network false (fun _ => name) accepted
  | a =>
    rw [name] at accepted
    exact host (Or.inl name) accepted
  | mx =>
    rw [name] at accepted
    exact host (Or.inr name) accepted
  | includes =>
    rw [name] at accepted
    exact domain true accepted
  | existing =>
    rw [name] at accepted
    exact domain true accepted
  | ptr =>
    rw [name] at accepted
    exact domain false accepted

/-- What `ParseRecord` never makes of a mechanism. -/
def Odd (mechanism : Mechanism) : Prop :=
  ((mechanism.name = .a ∨ mechanism.name = .mx) ∧ 47 ∈ mechanism.domain) ∨
    (mechanism.name = .ip6 ∧ mechanism.network = none)

theorem standard_argument_odd (mechanism : Mechanism) {result : Mechanism} {argument : Bytes}
    (opens : Opens mechanism.name term argument) (fresh : mechanism.network = none)
    (apart : SlashedHost term ∨ MappedNetwork cidr term)
    (accepted : standardArgument cidr mechanism argument = some result) : Odd result := by
  have same := (standard_argument_visible accepted).2
  rcases apart with ⟨name, text, named, again, slashed⟩ | ⟨text, network, again, found, mapped⟩
  · obtain ⟨rfl, rfl⟩ := opens_unique again opens
    have host : standardHost mechanism (58 :: text) = some result := by
      unfold standardArgument at accepted
      rcases named with named | named
      · rw [named] at accepted
        exact accepted
      · rw [named] at accepted
        exact accepted
    refine Or.inl ⟨by rw [same]; exact named, ?_⟩
    unfold standardHost at host
    dsimp only at host
    split at host
    · obtain ⟨bits, _, rfl⟩ := Option.map_eq_some_iff.mp host
      exact host_parts_slashed text slashed
    · cases host
  · obtain ⟨named, rfl⟩ := opens_unique again opens
    have six : standardNetwork cidr mechanism false (58 :: text) = some result := by
      unfold standardArgument at accepted
      rw [← named] at accepted
      exact accepted
    refine Or.inr ⟨by rw [same]; exact named.symm, ?_⟩
    rw [standard_network_colon] at six
    split at six
    · rw [found] at six
      simp only [Option.bind_some, mapped, Bool.true_eq_false, if_false, Bool.false_eq_true,
        Option.some.injEq] at six
      rw [← six]
      exact fresh
    · cases six

theorem parse_argument_shape {mechanism result : Mechanism} {argument : Bytes}
    (read : parseArgument cidr mechanism argument = some result) :
    result.name = mechanism.name ∧
      ((mechanism.name = .a ∨ mechanism.name = .mx) → 47 ∉ result.domain) ∧
      (mechanism.name = .ip6 → result.network ≠ none) := by
  have network (four : Bool) (read : parseNetwork cidr mechanism argument four = some result) :
      result.name = mechanism.name ∧ result.network ≠ none := by
    unfold parseNetwork at read
    split at read
    · dsimp only at read
      split at read
      · cases read
      · split at read
        · cases read
          exact ⟨rfl, by simp⟩
        · cases read
    · cases read
  have host (read : parseHost mechanism argument = some result) :
      result.name = mechanism.name ∧ 47 ∉ result.domain := by
    unfold parseHost at read
    obtain ⟨bits, _, rfl⟩ := Option.map_eq_some_iff.mp read
    refine ⟨rfl, ?_⟩
    dsimp only
    split
    · intro inside
      simpa using List.mem_takeWhile_imp inside
    · simp
  have domain (needed : Bool) (read : parseDomain mechanism argument needed = some result) :
      result.name = mechanism.name := by
    unfold parseDomain at read
    split at read
    · split at read
      · cases read
      · cases read
        rfl
    · split at read
      · cases read
      · cases read
        rfl
    · cases read
  unfold parseArgument at read
  cases name : mechanism.name with
  | all =>
    rw [name] at read
    dsimp only at read
    split at read
    · cases read
      exact ⟨name, by simp, by simp⟩
    · cases read
  | ip4 =>
    rw [name] at read
    exact ⟨(network true read).1.trans name, by simp, by simp⟩
  | ip6 =>
    rw [name] at read
    exact ⟨(network false read).1.trans name, by simp, fun _ => (network false read).2⟩
  | a =>
    rw [name] at read
    exact ⟨(host read).1.trans name, fun _ => (host read).2, by simp⟩
  | mx =>
    rw [name] at read
    exact ⟨(host read).1.trans name, fun _ => (host read).2, by simp⟩
  | includes =>
    rw [name] at read
    exact ⟨(domain true read).trans name, by simp, by simp⟩
  | existing =>
    rw [name] at read
    exact ⟨(domain true read).trans name, by simp, by simp⟩
  | ptr =>
    rw [name] at read
    exact ⟨(domain false read).trans name, by simp, by simp⟩

theorem parse_argument_even {mechanism result : Mechanism} {argument : Bytes}
    (read : parseArgument cidr mechanism argument = some result) : ¬Odd result := by
  obtain ⟨same, host, network⟩ := parse_argument_shape read
  rintro (⟨named, slash⟩ | ⟨named, bare⟩)
  · exact host (same ▸ named) slash
  · exact network (same ▸ named) bare

theorem parse_mechanism_opens {name : MechanismName} {argument : Bytes}
    (opens : Opens name term argument) :
    parseMechanism cidr term =
      parseArgument cidr { qualifier := (takeQualifier term).1, name } argument := by
  obtain ⟨named, rfl⟩ := (opens_iff name term argument).mp opens
  unfold parseMechanism
  dsimp only
  rw [named]

theorem modifier_closed {name value : Bytes} (cut : cutFirstByte 61 term = some (name, value))
    (named : isName name = true) : ∀ mechanism argument, ¬Opens mechanism term argument := by
  rintro mechanism argument ⟨sign, word, whole, signed, isWord, ends⟩
  obtain ⟨split, free⟩ := cut_first_byte_splits 61 term name value cut
  obtain ⟨_, _, equals⟩ := word_free isWord
  have letters : ∀ byte ∈ name, byte ≠ 58 ∧ byte ≠ 47 := by
    intro byte inside
    have letter := List.all_eq_true.mp (Bool.and_eq_true_iff.mp named).2 byte inside
    constructor
    · rintro rfl
      exact absurd letter (by decide)
    · rintro rfl
      exact absurd letter (by decide)
  have front : 61 ∉ sign ++ word := by
    rw [List.mem_append, not_or]
    refine ⟨?_, equals⟩
    rcases signed with rfl | ⟨byte, rfl, isSign⟩
    · simp
    · intro inside
      rw [List.mem_singleton] at inside
      rw [← inside] at isSign
      exact absurd isSign (by decide)
  have other : ∀ rest, argument ≠ 61 :: rest := by
    rintro rest rfl
    rcases ends with wrong | colon | slash
    · cases wrong
    · cases colon
    · cases slash
  -- the mark of the argument stands before the first `=`
  rw [split] at whole
  rcases List.append_eq_append_iff.mp whole with ⟨middle, outer, inner⟩ | ⟨middle, outer, inner⟩
  · cases middle with
    | nil => exact other value inner.symm
    | cons first rest =>
      have same := (List.cons.inj inner).1
      exact front (by rw [outer, same]; simp)
  · cases middle with
    | nil => exact other value inner
    | cons first rest =>
      have inside : first ∈ name := by
        rw [outer]
        simp
      have head : argument.head? = some first := by
        rw [inner]
        rfl
      rcases ends with rfl | colon | slash
      · cases inner
      · rw [colon] at head
        exact (letters first inside).1 (Option.some.inj head).symm
      · rw [slash] at head
        exact (letters first inside).2 (Option.some.inj head).symm

/-- A term of the grammar is a directive, or a modifier that no mechanism opens. -/
theorem standard_term_cases {record next : Record}
    (accepted : standardTerm cidr record term = some next) :
    (∃ mechanism, standardMechanism cidr term = some mechanism ∧
      next = { record with mechanisms := record.mechanisms ++ [mechanism] }) ∨
    ∃ name value, cutFirstByte 61 term = some (name, value) ∧ isName name = true ∧
      (∀ byte ∈ value, Visible byte) ∧
      next = { record with modifiers := record.modifiers ++ [(toLower name, value)] } := by
  unfold standardTerm at accepted
  dsimp only at accepted
  have directive (read : (standardMechanism cidr term).map (fun mechanism =>
      { record with mechanisms := record.mechanisms ++ [mechanism] }) = some next) :
      ∃ mechanism, standardMechanism cidr term = some mechanism ∧
        next = { record with mechanisms := record.mechanisms ++ [mechanism] } := by
    obtain ⟨mechanism, found, same⟩ := Option.map_eq_some_iff.mp read
    exact ⟨mechanism, found, same.symm⟩
  split at accepted
  · exact Or.inl (directive accepted)
  · rename_i name value cut
    split at accepted
    · rename_i named
      obtain ⟨modifier, read, same⟩ := Option.map_eq_some_iff.mp accepted
      have visible : (∀ byte ∈ value, Visible byte) ∧ modifier = (toLower name, value) := by
        unfold standardModifier at read
        by_cases domain : isDomainModifier (toLower name) = true
        · simp only [domain, if_true] at read
          split at read
          · rename_i proper
            exact ⟨domain_spec_visible proper, (Option.some.inj read).symm⟩
          · cases read
        · simp only [domain, Bool.false_eq_true, if_false] at read
          split at read
          · rename_i proper
            exact ⟨macro_string_visible proper, (Option.some.inj read).symm⟩
          · cases read
      obtain ⟨visible, rfl⟩ := visible
      exact Or.inr ⟨name, value, cut, named, visible, same.symm⟩
    · exact Or.inl (directive accepted)

theorem standard_term_visible {record next : Record}
    (accepted : standardTerm cidr record term = some next) :
    ∀ byte ∈ term, Visible byte := by
  rcases standard_term_cases accepted with ⟨mechanism, found, _⟩ | ⟨name, value, cut, named, visible, _⟩
  · exact (standard_mechanism_some found).choose_spec.2.2
  · obtain ⟨whole, _⟩ := cut_first_byte_splits 61 term name value cut
    have letters : ∀ byte : UInt8, (isAlphaNumeric byte || byte = 45 || byte = 95 || byte = 46) = true →
        Visible byte := by
      unfold Visible
      exact every_byte (by decide +kernel)
    intro byte inside
    rw [whole] at inside
    rcases List.mem_append.mp inside with early | late
    · exact letters byte (List.all_eq_true.mp (Bool.and_eq_true_iff.mp named).2 byte early)
    · rcases List.mem_cons.mp late with rfl | later
      · exact ⟨by decide, by decide⟩
      · exact visible byte later

theorem standard_term_alike {record next : Record} (whole : ¬SlashedHost term)
    (foreign : ¬MappedNetwork cidr term) (accepted : standardTerm cidr record term = some next) :
    parseTerm cidr record term = some next := by
  unfold parseTerm
  rcases standard_term_cases accepted with ⟨mechanism, found, rfl⟩ | ⟨name, value, cut, named, _, rfl⟩
  · obtain ⟨argument, opens, read, _⟩ := standard_mechanism_some found
    have directive := (is_mechanism_iff term).mpr ⟨_, _, opens⟩
    rw [directive, Bool.not_true, Bool.and_false, if_neg (by simp), parse_mechanism_opens opens,
      standard_argument_alike { qualifier := (takeQualifier term).1, name := mechanism.name }
        opens whole foreign read]
    rfl
  · have closed := modifier_closed cut named
    have plain : isMechanismWithArg term = false := by
      by_contra directive
      obtain ⟨mechanism, argument, opens⟩ := (is_mechanism_iff term).mp (by simpa using directive)
      exact closed mechanism argument opens
    obtain ⟨split, _⟩ := cut_first_byte_splits 61 term name value cut
    have equals : term.contains 61 = true := List.contains_iff_mem.mpr (by rw [split]; simp)
    rw [plain, equals, Bool.not_false, Bool.and_true, if_pos rfl, cut]
    cases name with
    | nil => cases named
    | cons first rest => rfl

theorem standard_term_odd {record next : Record} (apart : SlashedHost term ∨ MappedNetwork cidr term)
    (accepted : standardTerm cidr record term = some next) :
      ∃ mechanism ∈ next.mechanisms, Odd mechanism := by
  rcases standard_term_cases accepted with ⟨mechanism, found, rfl⟩ | ⟨name, value, cut, named, _, rfl⟩
  · obtain ⟨argument, opens, read, _⟩ := standard_mechanism_some found
    exact ⟨mechanism, by simp, standard_argument_odd
      { qualifier := (takeQualifier term).1, name := mechanism.name } opens rfl apart read⟩
  · have closed := modifier_closed cut named
    rcases apart with ⟨_, text, _, opens, _⟩ | ⟨text, _, opens, _⟩
    · exact absurd opens (closed _ _)
    · exact absurd opens (closed _ _)

theorem standard_terms_grow {terms : List Bytes} {record next : Record}
    (accepted : terms.foldlM (standardTerm cidr) record = some next) :
    (∀ mechanism ∈ record.mechanisms, mechanism ∈ next.mechanisms) ∧
      (∀ term ∈ terms, (∀ byte ∈ term, Visible byte) ∧
        ((SlashedHost term ∨ MappedNetwork cidr term) →
          ∃ mechanism ∈ next.mechanisms, Odd mechanism)) := by
  induction terms generalizing record with
  | nil =>
    cases accepted
    simp
  | cons term terms ih =>
    rw [List.foldlM_cons] at accepted
    obtain ⟨middle, first, rest⟩ := Option.bind_eq_some_iff.mp accepted
    obtain ⟨kept, later⟩ := ih rest
    have grows : ∀ mechanism ∈ record.mechanisms, mechanism ∈ middle.mechanisms := by
      rcases standard_term_cases first with ⟨mechanism, _, rfl⟩ | ⟨name, value, _, _, _, rfl⟩
      · intro other inside
        exact List.mem_append_left _ inside
      · exact fun _ inside => inside
    refine ⟨fun mechanism inside => kept mechanism (grows mechanism inside), ?_⟩
    intro other member
    rcases List.mem_cons.mp member with rfl | after
    · refine ⟨standard_term_visible first, fun apart => ?_⟩
      obtain ⟨mechanism, inside, odd⟩ := standard_term_odd apart first
      exact ⟨mechanism, kept mechanism inside, odd⟩
    · exact later other after

theorem parse_terms_even {terms : List Bytes} {record next : Record}
    (even : ∀ mechanism ∈ record.mechanisms, ¬Odd mechanism)
    (read : terms.foldlM (parseTerm cidr) record = some next) :
    ∀ mechanism ∈ next.mechanisms, ¬Odd mechanism := by
  induction terms generalizing record with
  | nil =>
    cases read
    exact even
  | cons term terms ih =>
    rw [List.foldlM_cons] at read
    obtain ⟨middle, first, rest⟩ := Option.bind_eq_some_iff.mp read
    refine ih ?_ rest
    unfold parseTerm at first
    split at first
    · split at first
      · cases first
      · cases first
        exact even
      · cases first
    · obtain ⟨mechanism, found, rfl⟩ := Option.map_eq_some_iff.mp first
      intro other inside
      rcases List.mem_append.mp inside with old | new
      · exact even other old
      · rw [List.mem_singleton.mp new]
        unfold parseMechanism at found
        dsimp only at found
        split at found
        · cases found
        · exact parse_argument_even found

theorem standard_terms_alike {terms : List Bytes} {record next : Record}
    (plain : ∀ term ∈ terms, ¬SlashedHost term ∧ ¬MappedNetwork cidr term)
    (accepted : terms.foldlM (standardTerm cidr) record = some next) :
    terms.foldlM (parseTerm cidr) record = some next := by
  induction terms generalizing record with
  | nil => exact accepted
  | cons term terms ih =>
    rw [List.foldlM_cons] at accepted ⊢
    obtain ⟨middle, first, rest⟩ := Option.bind_eq_some_iff.mp accepted
    obtain ⟨here, later⟩ := List.forall_mem_cons.mp plain
    rw [standard_term_alike here.1 here.2 first]
    exact ih later rest

end Terms

section Records

variable (cidr : Bytes → Option Network)

/-- The terms behind the version are read alike exactly where they are legible. -/
theorem terms_legible_iff (terms : Bytes) :
    (fields terms).foldlM (parseTerm cidr) ⟨[], []⟩ = standardParse cidr terms ↔
      TermsLegible cidr terms := by
  unfold TermsLegible
  cases accepted : standardParse cidr terms with
  | none =>
    rw [Option.isSome_none, if_neg (by simp), ← Option.not_isSome_iff_eq_none, parse_terms_iff]
    simp
  | some record =>
    rw [Option.isSome_some, if_pos rfl]
    unfold standardParse at accepted
    obtain ⟨read, _⟩ := Option.filter_eq_some_iff.mp accepted
    obtain ⟨_, inside⟩ := standard_terms_grow read
    have same : fields terms = (splitByte 32 terms).filter fun term => !term.isEmpty := by
      refine fields_of_visible terms fun part member => ?_
      by_cases empty : part.isEmpty = true
      · rw [List.isEmpty_iff.mp empty]
        simp
      · exact (inside part (List.mem_filter.mpr ⟨member, by simpa using empty⟩)).1
    rw [← same] at read inside
    constructor
    · intro alike term member
      have even := parse_terms_even (by simp) alike
      have whole : ¬(SlashedHost term ∨ MappedNetwork cidr term) := fun apart => by
        obtain ⟨mechanism, listed, odd⟩ := (inside term member).2 apart
        exact even mechanism listed odd
      exact not_or.mp whole
    · intro plain
      exact standard_terms_alike plain read

theorem version_spelled {front : Bytes} (spelled : front.map lowerLetter = ascii "v=spf1") :
    (∀ byte ∈ front, Visible byte) ∧ front ≠ [] ∧ toLower front = ascii "v=spf1" ∧
      equalFold front (ascii "v=spf1") = true := by
  have letters : ascii "v=spf1" = [118, 61, 115, 112, 102, 49] := by decide
  have spellings : ∀ byte : UInt8, (lowerLetter byte = 118 → byte = 118 ∨ byte = 86) ∧
      (lowerLetter byte = 61 → byte = 61) ∧ (lowerLetter byte = 115 → byte = 115 ∨ byte = 83) ∧
      (lowerLetter byte = 112 → byte = 112 ∨ byte = 80) ∧
      (lowerLetter byte = 102 → byte = 102 ∨ byte = 70) ∧ (lowerLetter byte = 49 → byte = 49) :=
    every_byte (by decide +kernel)
  rw [letters] at spelled
  obtain ⟨v, front, rfl, isV, spelled⟩ := List.map_eq_cons_iff.mp spelled
  obtain ⟨e, front, rfl, isE, spelled⟩ := List.map_eq_cons_iff.mp spelled
  obtain ⟨s, front, rfl, isS, spelled⟩ := List.map_eq_cons_iff.mp spelled
  obtain ⟨p, front, rfl, isP, spelled⟩ := List.map_eq_cons_iff.mp spelled
  obtain ⟨f, front, rfl, isF, spelled⟩ := List.map_eq_cons_iff.mp spelled
  obtain ⟨one, front, rfl, isOne, spelled⟩ := List.map_eq_cons_iff.mp spelled
  obtain rfl := List.map_eq_nil_iff.mp spelled
  obtain rfl := (spellings e).2.1 isE
  obtain rfl := (spellings one).2.2.2.2.2 isOne
  unfold Visible
  rcases (spellings v).1 isV with rfl | rfl <;> rcases (spellings s).2.2.1 isS with rfl | rfl <;>
    rcases (spellings p).2.2.2.1 isP with rfl | rfl <;>
    rcases (spellings f).2.2.2.2.1 isF with rfl | rfl <;> decide +kernel

theorem trim_space_keeps_front {front : Bytes} (visible : ∀ byte ∈ front, Visible byte)
    (some_ : front ≠ []) (terms : Bytes) : ∃ tail, trimSpace (front ++ terms) = front ++ tail := by
  have small : ∀ byte ∈ front, byte < 0x80 :=
    fun byte inside => (visible_rune byte (visible byte inside)).1
  have words := visible_runes visible
  have starts : (runes front ++ runes terms).dropWhile isSpace = runes front ++ runes terms := by
    cases front with
    | nil => exact absurd rfl some_
    | cons first rest =>
      rw [runes_ascii_cons first rest (small first (by simp))] at words ⊢
      rw [List.cons_append, List.dropWhile_cons_of_neg (by simp [words _ (List.mem_cons_self ..)])]
  have ends : dropTrailing isSpace (runes front ++ runes terms) =
      runes front ++ dropTrailing isSpace (runes terms) := by
    have kept : (runes front).reverse.dropWhile isSpace = (runes front).reverse := by
      cases shape : (runes front).reverse with
      | nil => rfl
      | cons last others =>
        have listed : last ∈ runes front := List.mem_reverse.mp (by rw [shape]; simp)
        rw [List.dropWhile_cons_of_neg (by simp [words last listed])]
    rw [dropTrailing, dropTrailing, List.reverse_append, List.dropWhile_append]
    split
    · rename_i empty
      rw [kept, List.reverse_reverse, List.isEmpty_iff.mp empty]
      simp
    · rw [List.reverse_append, List.reverse_reverse]
  refine ⟨(dropTrailing isSpace (runes terms)).flatMap Prod.snd, ?_⟩
  rw [trimSpace, runes_ascii_append front terms small, starts, ends, List.flatMap_append,
    runes_bytes_ascii front small]

/-- A record of version 1 begins with its version, and a space behind it. -/
theorem version_splits {text : Bytes} (version : isVersion1 text = true) :
    (text.take 6).map lowerLetter = ascii "v=spf1" ∧
      (text.drop 6 = [] ∨ ∃ more, text.drop 6 = 32 :: more) := by
  obtain ⟨spelled, ends⟩ := Bool.and_eq_true_iff.mp version
  refine ⟨of_decide_eq_true spelled, ?_⟩
  cases behind : text.drop 6 with
  | nil => exact Or.inl rfl
  | cons first more =>
    rw [behind] at ends
    have space : first = 32 := by simpa using ends
    exact Or.inr ⟨more, by rw [space]⟩

theorem version_looks_like {text : Bytes} (version : isVersion1 text = true) :
    looksLikeSpf text = true := by
  obtain ⟨spelled, _⟩ := version_splits version
  obtain ⟨visible, some_, lowered, _⟩ := version_spelled spelled
  have small : ∀ byte ∈ text.take 6, byte < 0x80 := fun byte inside =>
    (visible_rune byte (visible byte inside)).1
  obtain ⟨tail, trimmed⟩ := trim_space_keeps_front visible some_ (text.drop 6)
  rw [List.take_append_drop] at trimmed
  have lower := to_lower_around_ascii [] (text.take 6) tail some_ small
  rw [List.nil_append] at lower
  unfold looksLikeSpf hasPrefix
  rw [trimmed, lower, lowered]
  have nothing : toLower [] = [] := rfl
  rw [nothing, List.nil_append]
  exact List.isPrefixOf_iff_prefix.mpr (List.prefix_append _ _)

theorem parse_version_record {text : Bytes} (version : isVersion1 text = true) :
    parseRecord cidr text = (fields (text.drop 6)).foldlM (parseTerm cidr) ⟨[], []⟩ := by
  obtain ⟨spelled, behind⟩ := version_splits version
  obtain ⟨visible, some_, _, folded⟩ := version_spelled spelled
  have words := visible_runes visible
  have cut : fields text = text.take 6 :: fields (text.drop 6) := by
    conv_lhs => rw [← List.take_append_drop 6 text]
    rcases behind with empty | ⟨more, isMore⟩
    · rw [empty, List.append_nil, fields_of_word _ words, if_neg some_]
      rfl
    · have blank := fields_behind_word [] more (by simp)
      rw [List.nil_append, if_pos rfl, List.nil_append] at blank
      rw [isMore, fields_behind_word _ more words, if_neg some_, blank]
      rfl
  unfold parseRecord
  rw [fields_trim_space, cut]
  dsimp only
  rw [if_pos folded]

theorem select_several (texts : List Bytes) (first second : Bytes) (rest : List Bytes)
    (several : texts.filter looksLikeSpf = first :: second :: rest) :
    selectRecord cidr texts = .error .permError := by
  unfold selectRecord
  rw [several, List.mapM_cons, List.mapM_cons]
  cases parseRecord cidr first with
  | none => rfl
  | some one =>
    cases parseRecord cidr second with
    | none => rfl
    | some two =>
      cases rest.mapM (parseRecord cidr) with
      | none => rfl
      | some more => rfl

theorem select_one (texts : List Bytes) (text : Bytes) (only : texts.filter looksLikeSpf = [text]) :
    selectRecord cidr texts = (parseRecord cidr text).elim (.error .permError) .ok := by
  unfold selectRecord
  rw [only, List.mapM_cons, List.mapM_nil]
  cases parseRecord cidr text with
  | none => rfl
  | some record => rfl

/-- The TXT records of a name are taken for the same record exactly where they are legible. -/
theorem legible_iff (texts : List Bytes) :
    selectRecord cidr texts = standardRecord cidr texts ↔ Legible cidr texts := by
  have again : (texts.filter looksLikeSpf).filter isVersion1 = texts.filter isVersion1 := by
    rw [List.filter_filter]
    refine List.filter_congr fun text _ => ?_
    cases version : isVersion1 text with
    | false => simp
    | true => simp [version_looks_like version]
  unfold standardRecord Legible
  cases ones : texts.filter isVersion1 with
  | nil =>
    dsimp only
    cases looks : texts.filter looksLikeSpf with
    | nil =>
      refine iff_of_true ?_ rfl
      unfold selectRecord
      rw [looks]
      rfl
    | cons first rest =>
      refine iff_of_false ?_ (by simp)
      cases rest with
      | nil =>
        rw [select_one cidr texts first looks]
        cases parseRecord cidr first <;> simp
      | cons second rest =>
        rw [select_several cidr texts first second rest looks]
        simp
  | cons text others =>
    have listed : text ∈ texts.filter isVersion1 := by simp [ones]
    have version : isVersion1 text = true := (List.mem_filter.mp listed).2
    cases looks : texts.filter looksLikeSpf with
    | nil =>
      rw [looks, ones] at again
      cases again
    | cons first rest =>
      cases rest with
      | nil =>
        rw [looks, ones] at again
        have only : text = first ∧ others = [] := by
          rw [List.filter_cons] at again
          split at again
          · have same := List.cons.inj again
            exact ⟨same.1.symm, same.2.symm⟩
          · cases again
        obtain ⟨rfl, rfl⟩ := only
        dsimp only
        rw [if_pos rfl, select_one cidr texts text looks, ← terms_legible_iff,
          parse_version_record cidr version]
        cases (fields (text.drop 6)).foldlM (parseTerm cidr) ⟨[], []⟩ with
        | none => cases standardParse cidr (text.drop 6) <;> simp
        | some record => cases standardParse cidr (text.drop 6) <;> simp
      | cons second rest =>
        rw [select_several cidr texts first second rest looks]
        cases others with
        | nil =>
          dsimp only
          rw [if_neg (by simp)]
          cases standardParse cidr (text.drop 6) <;> simp
        | cons other others => simp

instance (texts : List Bytes) : Decidable (Legible cidr texts) :=
  decidable_of_iff _ (legible_iff cidr texts)

end Records

end Herold.Spf

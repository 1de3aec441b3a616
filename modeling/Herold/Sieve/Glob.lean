import Mathlib.Data.List.Forall2
import Herold.Sieve.Commands

/-!
# The glob

The texts a pattern stands for, and the loop that looks for one. The loop keeps a
single place to return to, the last star it passed; that is enough, because what an
earlier star could still reach a later one can reach as well.

A star of the pattern that meets a star of the subject is compared as a byte first
and then stands for that byte alone.
-/

namespace Herold.Sieve

open Herold.Go

/-- What a pattern stands for. Of a star `allowed` says which text it may take, given
the text that follows. -/
inductive Stands (allowed : Bytes → Bytes → Prop) : Bytes → Bytes → Prop
  | done : Stands allowed [] []
  | literal (byte : UInt8) {pattern subject : Bytes} (plain : byte ≠ 42)
      (later : Stands allowed pattern subject) : Stands allowed (byte :: pattern) (byte :: subject)
  | one (byte : UInt8) {pattern subject : Bytes} (later : Stands allowed pattern subject) :
      Stands allowed (63 :: pattern) (byte :: subject)
  | many (text : Bytes) {pattern subject : Bytes} (may : allowed text subject)
      (later : Stands allowed pattern subject) : Stands allowed (42 :: pattern) (text ++ subject)

def GlobText : Bytes → Bytes → Prop := Stands fun _ _ => True

/-- A star at a place where the subject goes on with a star takes just that byte. -/
def literalAtStar (text subject : Bytes) : Prop :=
  text = [42] ∨ (text ++ subject).head? ≠ some 42

def LoopText : Bytes → Bytes → Prop := Stands literalAtStar

namespace Stands

variable {allowed : Bytes → Bytes → Prop} {pattern subject : Bytes}

theorem mono {wider : Bytes → Bytes → Prop} (weaker : ∀ text rest, allowed text rest → wider text rest)
    (stands : Stands allowed pattern subject) : Stands wider pattern subject := by
  induction stands with
  | done => exact done
  | literal byte plain _ ih => exact literal byte plain ih
  | one byte _ ih => exact one byte ih
  | many text may _ ih => exact many text (weaker _ _ may) ih

theorem of_nil (stands : Stands allowed [] subject) : subject = [] := by
  cases stands with
  | done => rfl

theorem of_star (stands : Stands allowed (42 :: pattern) subject) :
    ∃ text rest, subject = text ++ rest ∧ allowed text rest ∧ Stands allowed pattern rest := by
  cases stands with
  | literal _ plain _ => exact absurd rfl plain
  | many text may later => exact ⟨text, _, rfl, may, later⟩

theorem of_byte {wanted : UInt8} (plain : wanted ≠ 42)
    (stands : Stands allowed (wanted :: pattern) subject) :
    ∃ char rest, subject = char :: rest ∧ (wanted = 63 ∨ wanted = char) ∧
    Stands allowed pattern rest := by
  cases stands with
  | literal _ _ later => exact ⟨_, _, rfl, .inr rfl, later⟩
  | one byte later => exact ⟨byte, _, rfl, .inl rfl, later⟩
  | many => exact absurd rfl plain

end Stands

def fits (wanted char : UInt8) : Prop := wanted = 63 ∨ wanted = char

section

variable {wanted char : UInt8} {pattern subject : Bytes}

theorem loop_text_step (fit : fits wanted char) :
    LoopText (wanted :: pattern) (char :: subject) ↔ LoopText pattern subject := by
  constructor
  · intro stands
    by_cases star : wanted = 42
    · subst star
      have same : char = 42 := by
        rcases fit with question | same
        · exact absurd question (by decide)
        · exact same.symm
      subst same
      obtain ⟨text, rest, whole, may, later⟩ := stands.of_star
      rcases may with alone | other
      · subst alone
        obtain rfl := (List.cons.inj whole).2
        exact later
      · rw [← whole] at other
        exact absurd rfl other
    · obtain ⟨_, rest, whole, -, later⟩ := stands.of_byte star
      obtain rfl := (List.cons.inj whole).2
      exact later
  · intro later
    rcases fit with rfl | rfl
    · exact .one char later
    · by_cases star : wanted = 42
      · subst star
        exact .many [42] (.inl rfl) later
      · exact .literal wanted star later

theorem loop_text_mismatch (star : wanted ≠ 42)
    (unfit : ¬fits wanted char) : ¬LoopText (wanted :: pattern) (char :: subject) := by
  intro stands
  obtain ⟨_, _, whole, fit, -⟩ := stands.of_byte star
  obtain ⟨rfl, -⟩ := List.cons.inj whole
  exact unfit fit

theorem loop_text_of_empty (pattern : Bytes) :
    LoopText pattern [] ↔ (pattern.all fun char => char = 42) = true := by
  induction pattern with
  | nil => exact ⟨fun _ => rfl, fun _ => .done⟩
  | cons wanted pattern ih =>
    rw [List.all_cons, Bool.and_eq_true, decide_eq_true_iff, ← ih]
    constructor
    · intro stands
      by_cases star : wanted = 42
      · subst star
        obtain ⟨text, rest, whole, -, later⟩ := stands.of_star
        have both := List.append_eq_nil_iff.mp whole.symm
        exact ⟨rfl, both.2 ▸ later⟩
      · obtain ⟨_, _, whole, -⟩ := stands.of_byte star
        cases whole
    · rintro ⟨rfl, later⟩
      exact .many [] (.inr (by simp)) later

def Ahead (pattern subject : Bytes) : Prop :=
  ∃ skipped rest, subject = skipped ++ rest ∧ LoopText pattern rest

theorem ahead_of_empty (pattern : Bytes) : Ahead pattern [] ↔ LoopText pattern [] := by
  constructor
  · rintro ⟨skipped, rest, whole, stands⟩
    have both := List.append_eq_nil_iff.mp whole.symm
    exact both.2 ▸ stands
  · exact fun stands => ⟨[], [], rfl, stands⟩

theorem ahead_cons (pattern : Bytes) (char : UInt8) (subject : Bytes) :
    Ahead pattern (char :: subject) ↔ LoopText pattern (char :: subject) ∨ Ahead pattern subject := by
  constructor
  · rintro ⟨skipped, rest, whole, stands⟩
    cases skipped with
    | nil => exact .inl (whole ▸ stands)
    | cons _ skipped => exact .inr ⟨skipped, rest, (List.cons.inj whole).2, stands⟩
  · rintro (stands | ⟨skipped, rest, rfl, stands⟩)
    · exact ⟨[], _, rfl, stands⟩
    · exact ⟨char :: skipped, rest, rfl, stands⟩

theorem ahead_skip (pattern skipped subject : Bytes) (ahead : Ahead pattern subject) :
    Ahead pattern (skipped ++ subject) := by
  obtain ⟨more, rest, rfl, stands⟩ := ahead
  exact ⟨skipped ++ more, rest, by rw [List.append_assoc], stands⟩

theorem ahead_of_star (pattern subject : Bytes) (ahead : Ahead (42 :: pattern) subject) :
    Ahead pattern subject := by
  obtain ⟨skipped, rest, rfl, stands⟩ := ahead
  obtain ⟨text, later, rfl, -, stands⟩ := stands.of_star
  exact ⟨skipped ++ text, later, by rw [List.append_assoc], stands⟩

theorem star_ahead {char : UInt8} {pattern subject : Bytes} (plain : char ≠ 42) :
    LoopText (42 :: pattern) (char :: subject) ↔ Ahead pattern (char :: subject) := by
  constructor
  · exact fun stands => ahead_of_star _ _ ⟨[], _, rfl, stands⟩
  · rintro ⟨text, rest, whole, stands⟩
    rw [whole]
    refine .many text (.inr ?_) stands
    rw [← whole]
    simpa using plain

/-- An attempt that has matched byte for byte is as far on as any later attempt gets
with the same bytes of the pattern. -/
theorem ahead_shift {matched taken : Bytes} (aligned : List.Forall₂ fits matched taken)
    (pattern subject : Bytes) (ahead : Ahead (matched ++ pattern) (taken ++ subject)) :
    Ahead pattern subject := by
  induction aligned with
  | nil => exact ahead
  | @cons wanted char matched taken fit _ ih =>
    apply ih
    rw [List.cons_append, List.cons_append, ahead_cons] at ahead
    rcases ahead with here | later
    · exact ⟨[], _, rfl, (loop_text_step fit).mp here⟩
    · obtain ⟨skipped, rest, whole, stands⟩ := later
      rw [whole]
      apply ahead_skip
      by_cases star : wanted = 42
      · subst star
        obtain ⟨text, rest, rfl, -, stands⟩ := stands.of_star
        exact ⟨text, rest, rfl, stands⟩
      · obtain ⟨char, rest, rfl, -, stands⟩ := stands.of_byte star
        exact ⟨[char], rest, rfl, stands⟩

/-- What an attempt has matched since its star, as pattern and as text. -/
def Underway (pattern subject : Bytes) : Retry → Prop
  | none => True
  | some (after, tail) => ∃ matched taken, after = matched ++ pattern ∧ tail = taken ++ subject ∧
      List.Forall₂ fits matched taken

def Reachable : Retry → Prop
  | some (after, _ :: tail) => Ahead after tail
  | _ => False

theorem reachable_ahead {retry : Retry} (underway : Underway pattern subject retry)
    (reachable : Reachable retry) : Ahead pattern subject := by
  rcases retry with - | ⟨after, - | ⟨char, tail⟩⟩
  · exact reachable.elim
  · exact reachable.elim
  · obtain ⟨matched, taken, whole, text, aligned⟩ := underway
    apply ahead_shift aligned
    rw [← whole, ← text]
    exact (ahead_cons _ _ _).mpr (.inr reachable)

theorem underway_step {retry : Retry} (fit : fits wanted char)
    (underway : Underway (wanted :: pattern) (char :: subject) retry) :
      Underway pattern subject retry := by
  cases retry with
  | none => trivial
  | some place =>
    obtain ⟨matched, taken, whole, text, aligned⟩ := underway
    refine ⟨matched ++ [wanted], taken ++ [char], ?_, ?_, ?_⟩
    · rw [whole, List.append_assoc, List.singleton_append]
    · rw [text, List.append_assoc, List.singleton_append]
    · exact List.rel_append aligned (.cons fit .nil)

end

/-- How many steps are left at most: each return to the star costs a row of `width`. -/
def stepsLeft (width height : Nat) (pattern subject : Bytes) : Retry → Nat
  | none => height * width + (pattern.length + subject.length)
  | some (_, tail) => tail.length * width + (pattern.length + subject.length)

def Roomy (width height : Nat) (pattern subject : Bytes) : Retry → Prop
  | none => subject.length ≤ height ∧ pattern.length + subject.length < width
  | some (after, tail) => tail.length ≤ height ∧ after.length + tail.length < width

theorem roomy_star {width height : Nat} {pattern subject : Bytes} {char : UInt8} {retry : Retry}
    (roomy : Roomy width height (42 :: pattern) (char :: subject) retry)
    (underway : Underway (42 :: pattern) (char :: subject) retry) :
    (char :: subject).length ≤ height ∧ pattern.length + (char :: subject).length < width := by
  cases retry with
  | none =>
    simp only [Roomy, List.length_cons] at roomy ⊢
    omega
  | some place =>
    obtain ⟨matched, taken, whole, text, -⟩ := underway
    simp only [Roomy, whole, text, List.length_append, List.length_cons] at roomy ⊢
    omega

theorem steps_left_star {width height : Nat} {pattern subject : Bytes} {char : UInt8} {retry : Retry}
    (roomy : Roomy width height (42 :: pattern) (char :: subject) retry)
    (underway : Underway (42 :: pattern) (char :: subject) retry) :
    stepsLeft width height pattern (char :: subject) (some (pattern, char :: subject)) + 1 ≤
      stepsLeft width height (42 :: pattern) (char :: subject) retry := by
  cases retry with
  | none =>
    have rows := Nat.mul_le_mul_right width roomy.1
    simp only [stepsLeft, List.length_cons] at rows ⊢
    omega
  | some place =>
    obtain ⟨matched, taken, -, text, -⟩ := underway
    have rows : (char :: subject).length * width ≤ place.2.length * width := by
      apply Nat.mul_le_mul_right
      rw [text, List.length_append]
      omega
    simp only [stepsLeft, List.length_cons] at rows ⊢
    omega

theorem retry_iff (after : Bytes) (char : UInt8) (tail : Bytes) :
    LoopText after tail ∨ Reachable (some (after, tail)) ↔ Reachable (some (after, char :: tail)) := by
  cases tail with
  | nil =>
    show _ ∨ False ↔ Ahead after []
    rw [ahead_of_empty, or_false]
  | cons first tail => exact (ahead_cons after first tail).symm

/-- With the fuel the loop gives the right verdict from every state underway. -/
def Judges (width height fuel : Nat) : Prop :=
  ∀ (pattern subject : Bytes) (retry : Retry), stepsLeft width height pattern subject retry < fuel →
    Roomy width height pattern subject retry → Underway pattern subject retry →
    ∃ verdict, globSteps fuel pattern subject retry = some verdict ∧
      (verdict = true ↔ LoopText pattern subject ∨ Reachable retry)

section Turn

variable {width height fuel : Nat} (ih : Judges width height fuel)
variable {wanted char : UInt8} {pattern subject : Bytes} {retry : Retry}

include ih

theorem returned_verdict (enough : stepsLeft width height pattern (char :: subject) retry < fuel + 1)
    (roomy : Roomy width height pattern (char :: subject) retry)
    (underway : Underway pattern (char :: subject) retry) (result : Option Bool)
    (again : ∀ after first tail, retry = some (after, first :: tail) →
      result = globSteps fuel after tail (some (after, tail)))
    (ended : retry = none → result = some false) :
    ∃ verdict, result = some verdict ∧ (verdict = true ↔ Reachable retry) := by
  rcases retry with - | ⟨after, - | ⟨first, tail⟩⟩
  · exact ⟨false, ended rfl, by simp [Reachable]⟩
  · obtain ⟨_, taken, -, text, -⟩ := underway
    have whole := congrArg List.length text
    simp at whole
  · rw [again after first tail rfl, ← retry_iff after first tail]
    simp only [stepsLeft, Roomy, List.length_cons, Nat.add_one_mul] at enough roomy
    apply ih
    · simp only [stepsLeft]
      omega
    · exact ⟨by omega, by omega⟩
    · exact ⟨[], [], rfl, rfl, .nil⟩

theorem fitting_verdict (fit : fits wanted char)
    (enough : stepsLeft width height (wanted :: pattern) (char :: subject) retry < fuel + 1)
    (roomy : Roomy width height (wanted :: pattern) (char :: subject) retry)
    (underway : Underway (wanted :: pattern) (char :: subject) retry) :
    ∃ verdict, globSteps (fuel + 1) (wanted :: pattern) (char :: subject) retry = some verdict ∧
      (verdict = true ↔ LoopText (wanted :: pattern) (char :: subject) ∨ Reachable retry) := by
  have step : globSteps (fuel + 1) (wanted :: pattern) (char :: subject) retry =
      globSteps fuel pattern subject retry := by
    simp only [globSteps]
    exact if_pos fit
  rw [step, loop_text_step fit]
  apply ih
  · cases retry with
    | none => simp only [stepsLeft, List.length_cons] at enough ⊢; omega
    | some place => simp only [stepsLeft, List.length_cons] at enough ⊢; omega
  · cases retry with
    | none => simp only [Roomy, List.length_cons] at roomy ⊢; omega
    | some place => exact roomy
  · exact underway_step fit underway

theorem star_verdict (unfit : ¬fits 42 char)
    (enough : stepsLeft width height (42 :: pattern) (char :: subject) retry < fuel + 1)
    (roomy : Roomy width height (42 :: pattern) (char :: subject) retry)
    (underway : Underway (42 :: pattern) (char :: subject) retry) :
    ∃ verdict, globSteps (fuel + 1) (42 :: pattern) (char :: subject) retry = some verdict ∧
      (verdict = true ↔ LoopText (42 :: pattern) (char :: subject) ∨ Reachable retry) := by
  have plain : char ≠ 42 := fun same => unfit (.inr same.symm)
  have step : globSteps (fuel + 1) (42 :: pattern) (char :: subject) retry =
      globSteps fuel pattern (char :: subject) (some (pattern, char :: subject)) := by
    simp only [globSteps]
    rw [if_neg (show ¬((42 : UInt8) = 63 ∨ 42 = char) from unfit), if_pos trivial]
  obtain ⟨tall, wide⟩ := roomy_star roomy underway
  obtain ⟨verdict, is, iff⟩ := ih pattern (char :: subject) (some (pattern, char :: subject))
    (Nat.lt_of_succ_lt_succ (Nat.lt_of_le_of_lt (steps_left_star roomy underway) enough))
    ⟨tall, wide⟩ ⟨[], [], rfl, rfl, .nil⟩
  refine ⟨verdict, step.trans is, ?_⟩
  rw [iff, star_ahead plain]
  constructor
  · intro reached
    exact .inl ((ahead_cons _ _ _).mpr reached)
  · rintro (ahead | reachable)
    · exact (ahead_cons _ _ _).mp ahead
    · exact (ahead_cons _ _ _).mp (ahead_of_star _ _ (reachable_ahead underway reachable))

end Turn

theorem glob_steps_verdict (width height fuel : Nat) : Judges width height fuel := by
  induction fuel with
  | zero =>
    intro pattern subject retry enough
    omega
  | succ fuel ih =>
    intro pattern subject retry enough roomy underway
    cases subject with
    | nil =>
      refine ⟨_, rfl, ?_⟩
      rw [← loop_text_of_empty]
      constructor
      · exact .inl
      · rintro (stands | reachable)
        · exact stands
        · exact (ahead_of_empty _).mp (reachable_ahead underway reachable)
    | cons char subject =>
      have returned := returned_verdict ih enough roomy underway
      cases pattern with
      | nil =>
        have none : ¬LoopText [] (char :: subject) := fun stands => by cases stands.of_nil
        obtain ⟨verdict, is, iff⟩ := returned (globSteps (fuel + 1) [] (char :: subject) retry)
          (by rintro after first tail rfl; rfl) (by rintro rfl; rfl)
        exact ⟨verdict, is, by rw [iff]; simp [none]⟩
      | cons wanted pattern =>
        by_cases fit : fits wanted char
        · exact fitting_verdict ih fit enough roomy underway
        · have unfit : ¬(wanted = 63 ∨ wanted = char) := fit
          by_cases star : wanted = 42
          · subst star
            exact star_verdict ih fit enough roomy underway
          · obtain ⟨verdict, is, iff⟩ :=
              returned (globSteps (fuel + 1) (wanted :: pattern) (char :: subject) retry)
                (by
                  rintro after first tail rfl
                  simp only [globSteps]
                  rw [if_neg unfit, if_neg star])
                (by
                  rintro rfl
                  simp only [globSteps]
                  rw [if_neg unfit, if_neg star])
            exact ⟨verdict, is, by rw [iff]; simp [loop_text_mismatch star fit]⟩

section

variable (value : Bytes) (pattern subject : Bytes)

theorem glob_match_loop_text : globMatch pattern subject = true ↔ LoopText pattern subject := by
  obtain ⟨verdict, is, iff⟩ := glob_steps_verdict (pattern.length + subject.length + 1) subject.length
    (globFuel pattern subject) pattern subject none (by
      simp only [stepsLeft, globFuel, Nat.add_one_mul]
      omega) (by
      simp only [Roomy]
      omega) trivial
  unfold globMatch
  rw [is, Option.getD_some, iff]
  simp [Reachable]

theorem loop_text_glob (stands : LoopText pattern subject) : GlobText pattern subject :=
  stands.mono fun _ _ _ => trivial

theorem glob_text_loop (apart : 42 ∉ pattern ∨ 42 ∉ subject)
    (stands : GlobText pattern subject) : LoopText pattern subject := by
  unfold GlobText at stands
  induction stands with
  | done => exact .done
  | literal byte plain _ ih =>
    exact .literal byte plain
      (ih (apart.imp (List.not_mem_of_not_mem_cons) List.not_mem_of_not_mem_cons))
  | one byte _ ih =>
    exact .one byte (ih (apart.imp (List.not_mem_of_not_mem_cons) List.not_mem_of_not_mem_cons))
  | @many text pattern subject _ _ ih =>
    rcases apart with clear | clear
    · exact absurd List.mem_cons_self clear
    · have later := ih (.inr fun member => clear (List.mem_append_right _ member))
      refine .many text (.inr fun first => clear ?_) later
      exact List.mem_of_head? first

theorem glob_match_is_glob_iff (pattern subject : Bytes) :
    ((globMatch pattern subject = true ↔ GlobText pattern subject) ↔
        (GlobText pattern subject → LoopText pattern subject)) ∧
      (42 ∉ pattern ∨ 42 ∉ subject →
        (globMatch pattern subject = true ↔ GlobText pattern subject)) := by
  have loop := glob_match_loop_text pattern subject
  have sound := loop_text_glob pattern subject
  have exact_when : (globMatch pattern subject = true ↔ GlobText pattern subject) ↔
      (GlobText pattern subject → LoopText pattern subject) := by
    rw [loop]
    exact ⟨fun same => same.mpr, fun complete => ⟨sound, complete⟩⟩
  exact ⟨exact_when, fun apart => exact_when.mpr (glob_text_loop pattern subject apart)⟩

/-- The star stands for the whole subject, but takes its star for itself. -/
theorem star_refuses_star_first :
    ¬(globMatch (ascii "*") (ascii "*a") = true ↔ GlobText (ascii "*") (ascii "*a")) := by
  have whole : GlobText (ascii "*") (ascii "*a") := .many (ascii "*a") trivial .done
  have refused : globMatch (ascii "*") (ascii "*a") = false := by decide
  intro same
  rw [same.mpr whole] at refused
  cases refused

/-- `utf8.ValidString`: written again rune by rune, the text is itself. -/
def validString (text : Bytes) : Bool := (runes text).flatMap (fun rune => encodeRune rune.1) = text

/-- The bytes that `:quotewildcard` puts a backslash before. -/
def quoted (rune : Rune) : Bool := rune = 42 || rune = 63 || rune = 92

theorem quote_wildcard_eq :
    applyVarModifier (ascii ":quotewildcard") value = (runes value).flatMap fun rune =>
      (if rune.1 = 42 ∨ rune.1 = 63 ∨ rune.1 = 92 then [92] else []) ++ encodeRune rune.1 := by
  unfold applyVarModifier
  rw [if_neg (by decide), if_neg (by decide), if_neg (by decide), if_neg (by decide), if_pos rfl]

theorem rune_tail_wide (first : UInt8) (rest : Bytes) :
    ∀ byte ∈ rest.take ((decodeRune (first :: rest)).2 - 1), 0x80 ≤ byte := by
  have continues : ∀ byte, isContinuation byte = true → (0x80 : UInt8) ≤ byte := by
    intro byte is
    simp only [isContinuation, Bool.and_eq_true, decide_eq_true_eq] at is
    exact is.1
  have second : ∀ byte, secondByteOk first byte = true → (0x80 : UInt8) ≤ byte := by
    intro byte is
    have high := (second_byte_high first byte is).1
    rw [UInt8.le_iff_toNat_le]
    exact high
  intro byte member
  simp only [decodeRune] at member
  split_ifs at member
  · simp at member
  · rcases rest with - | ⟨next, rest⟩
    · simp at member
    · simp only at member
      split_ifs at member with ok
      · simp at member
        exact member ▸ second _ ok
      · simp at member
  · rcases rest with - | ⟨next, - | ⟨third, rest⟩⟩
    · simp at member
    · simp at member
    · simp only at member
      split_ifs at member with ok
      · rw [Bool.and_eq_true] at ok
        simp at member
        rcases member with rfl | rfl
        · exact second _ ok.1
        · exact continues _ ok.2
      · simp at member
  · rcases rest with - | ⟨next, - | ⟨third, - | ⟨fourth, rest⟩⟩⟩
    · simp at member
    · simp at member
    · simp at member
    · simp only at member
      split_ifs at member with ok
      · rw [Bool.and_eq_true, Bool.and_eq_true] at ok
        simp at member
        rcases member with rfl | rfl | rfl
        · exact second _ ok.1.1
        · exact continues _ ok.1.2
        · exact continues _ ok.2
      · simp at member
  · simp at member

theorem count_runes (byte : UInt8) (small : byte < 0x80) (pending : Nat) (text : Bytes) :
    (runesFrom pending text).countP (fun rune => rune.1 = byte.toNat) =
      (text.drop pending).count byte := by
  induction text generalizing pending with
  | nil => cases pending <;> rfl
  | cons first rest ih =>
    cases pending with
    | succ pending => exact ih pending
    | zero =>
      rw [runesFrom, List.countP_cons, ih, List.drop_zero, List.count_cons]
      by_cases ascii : first < 0x80
      · rw [decode_rune_ascii first rest ascii]
        simp [UInt8.toNat_inj]
      · have wide : (0x80 : UInt8) ≤ first := UInt8.not_lt.mp ascii
        have other : first ≠ byte := fun same => ascii (same ▸ small)
        have high := decode_rune_wide first rest wide
        have apart : (decodeRune (first :: rest)).1 ≠ byte.toNat := by
          have low : byte.toNat < 0x80 := UInt8.lt_iff_toNat_lt.mp small
          intro same
          rw [same] at high
          omega
        have none : (rest.take ((decodeRune (first :: rest)).2 - 1)).count byte = 0 := by
          rw [List.count_eq_zero]
          intro member
          exact absurd (rune_tail_wide first rest byte member) (UInt8.not_le.mpr small)
        have behind : rest.count byte =
          (rest.drop ((decodeRune (first :: rest)).2 - 1)).count byte := by
          have split := List.take_append_drop ((decodeRune (first :: rest)).2 - 1) rest
          rw [← split, List.count_append, none, Nat.zero_add, split]
        simp [apart, other, behind]

theorem count_encode_rune (byte : UInt8) (ascii : byte < 0x80) (rune : Rune) :
    (encodeRune rune).count byte = if rune = byte.toNat then 1 else 0 := by
  by_cases small : rune < 0x80
  · simp only [encodeRune, if_pos small]
    have value : (UInt8.ofNat rune).toNat = rune :=
      UInt8.toNat_ofNat_of_lt' (Nat.lt_trans small (by decide))
    have same : UInt8.ofNat rune = byte ↔ rune = byte.toNat := by
      rw [← UInt8.toNat_inj, value]
    simp [List.count_cons, same]
  · have wide := encode_rune_wide rune (Nat.not_lt.mp small)
    have absent : byte ∉ encodeRune rune := fun member =>
      absurd (wide byte member) (UInt8.not_le.mpr ascii)
    have other : rune ≠ byte.toNat := by
      rintro rfl
      exact small (UInt8.lt_iff_toNat_lt.mp ascii)
    rw [List.count_eq_zero.mpr absent, if_neg other]

theorem count_quote_wildcard : (applyVarModifier (ascii ":quotewildcard") value).count 92 =
      (runes value).countP (fun rune => quoted rune.1) + value.count 92 := by
  have backslashes := count_runes 92 (by decide) 0 value
  rw [quote_wildcard_eq, List.drop_zero] at *
  rw [← backslashes, ← runes]
  generalize runes value = items
  induction items with
  | nil => rfl
  | cons rune items ih =>
    rw [List.flatMap_cons, List.count_append, List.count_append, ih, count_encode_rune 92 (by decide),
      List.countP_cons, List.countP_cons]
    by_cases special : rune.1 = 42 ∨ rune.1 = 63 ∨ rune.1 = 92
    · have marked : quoted rune.1 = true := by simpa [quoted, or_assoc] using special
      rw [if_pos special, if_pos marked]
      simp only [UInt8.reduceToNat, decide_eq_true_eq, List.count_singleton_self]
      omega
    · have unmarked : ¬quoted rune.1 = true := by simpa [quoted, or_assoc] using special
      rw [if_neg special, if_neg unmarked]
      simp only [UInt8.reduceToNat, decide_eq_true_eq, List.count_nil]
      omega

theorem stands_count {allowed : Bytes → Bytes → Prop} {pattern subject : Bytes} (byte : UInt8)
    (plain : byte ≠ 42 ∧ byte ≠ 63) (stands : Stands allowed pattern subject) :
    pattern.count byte ≤ subject.count byte := by
  induction stands with
  | done => exact Nat.le_refl _
  | literal char _ _ ih =>
    rw [List.count_cons, List.count_cons]
    omega
  | one char _ ih =>
    rw [List.count_cons_of_ne (Ne.symm plain.2)]
    exact Nat.le_trans ih List.count_le_count_cons
  | many text _ _ ih =>
    rw [List.count_cons_of_ne (Ne.symm plain.1), List.count_append]
    omega

theorem stands_literal {allowed : Bytes → Bytes → Prop} {pattern subject : Bytes}
    (plain : 42 ∉ pattern ∧ 63 ∉ pattern) : Stands allowed pattern subject ↔ pattern = subject := by
  constructor
  · intro stands
    induction stands with
    | done => rfl
    | literal char _ _ ih =>
      rw [ih ⟨List.not_mem_of_not_mem_cons plain.1, List.not_mem_of_not_mem_cons plain.2⟩]
    | one => exact absurd List.mem_cons_self plain.2
    | many => exact absurd List.mem_cons_self plain.1
  · rintro rfl
    induction pattern with
    | nil => exact .done
    | cons char pattern ih =>
      refine .literal char (fun star => plain.1 ?_)
        (ih ⟨List.not_mem_of_not_mem_cons plain.1, List.not_mem_of_not_mem_cons plain.2⟩)
      rw [star]
      exact List.mem_cons_self

def NothingToQuote (value : Bytes) : Prop :=
  (42 ∉ value ∧ 63 ∉ value ∧ 92 ∉ value) ∧ validString value = true

theorem no_rune_quoted :
    (42 ∉ value ∧ 63 ∉ value ∧ 92 ∉ value) ↔ ∀ rune ∈ runes value, quoted rune.1 = false := by
  have each : ∀ byte : UInt8, byte < 0x80 →
      (byte ∉ value ↔ ∀ rune ∈ runes value, rune.1 ≠ byte.toNat) := by
    intro byte small
    have count := count_runes byte small 0 value
    rw [List.drop_zero, ← runes] at count
    rw [← List.count_eq_zero, ← count, List.countP_eq_zero]
    simp
  rw [each 42 (by decide), each 63 (by decide), each 92 (by decide)]
  simp only [quoted, UInt8.reduceToNat, Bool.or_eq_false_iff, decide_eq_false_iff_not]
  constructor
  · rintro ⟨star, question, backslash⟩ rune member
    exact ⟨⟨star rune member, question rune member⟩, backslash rune member⟩
  · intro plain
    exact ⟨fun rune member => (plain rune member).1.1, fun rune member => (plain rune member).1.2,
      fun rune member => (plain rune member).2⟩

theorem quote_plain (plain : ∀ rune ∈ runes value, quoted rune.1 = false) :
    applyVarModifier (ascii ":quotewildcard") value =
      (runes value).flatMap fun rune => encodeRune rune.1 := by
  rw [quote_wildcard_eq]
  refine List.flatMap_congr fun rune member => ?_
  have unmarked : ¬(rune.1 = 42 ∨ rune.1 = 63 ∨ rune.1 = 92) := by
    simpa [quoted, and_assoc] using plain rune member
  rw [if_neg unmarked, List.nil_append]

theorem quoted_matches_itself
    (matched : globMatch (applyVarModifier (ascii ":quotewildcard") value) value = true) :
    NothingToQuote value := by
  have stands := (glob_match_loop_text _ _).mp matched
  have fewer := stands_count 92 (by decide) stands
  rw [count_quote_wildcard] at fewer
  have none : (runes value).countP (fun rune => quoted rune.1) = 0 := by omega
  have plain : ∀ rune ∈ runes value, quoted rune.1 = false := by
    intro rune member
    exact eq_false_of_ne_true (List.countP_eq_zero.mp none rune member)
  have clear := (no_rune_quoted value).mpr plain
  refine ⟨clear, ?_⟩
  rw [quote_plain value plain] at stands
  have absent : ∀ byte : UInt8, byte < 0x80 → quoted byte.toNat = true →
      byte ∉ (runes value).flatMap fun rune => encodeRune rune.1 := by
    intro byte small special member
    obtain ⟨rune, among, inside⟩ := List.mem_flatMap.mp member
    have counted := List.count_pos_iff.mpr inside
    rw [count_encode_rune byte small] at counted
    have same : rune.1 = byte.toNat := by
      by_contra other
      rw [if_neg other] at counted
      omega
    have unmarked := plain rune among
    rw [same, special] at unmarked
    cases unmarked
  exact decide_eq_true ((stands_literal ⟨absent 42 (by decide) (by decide),
    absent 63 (by decide) (by decide)⟩).mp stands)

end

theorem quoted_wildcards_match_literally_iff (value : Bytes) :
    (∀ subject, globMatch (applyVarModifier (ascii ":quotewildcard") value) subject = true ↔
      value = subject) ↔
      NothingToQuote value := by
  constructor
  · intro literally
    exact quoted_matches_itself value ((literally value).mpr rfl)
  · rintro ⟨clear, valid⟩ subject
    have same : applyVarModifier (ascii ":quotewildcard") value = value := by
      rw [quote_plain value ((no_rune_quoted value).mp clear)]
      exact of_decide_eq_true valid
    rw [same, glob_match_loop_text]
    exact stands_literal ⟨clear.1, clear.2.1⟩

/-- The matcher knows no backslash, so a quoted question mark wants a backslash. -/
theorem quoted_question_mark_refused :
    ¬(globMatch (applyVarModifier (ascii ":quotewildcard") (ascii "really?")) (ascii "really?") = true ↔
      ascii "really?" = ascii "really?") := by
  have refused : globMatch (applyVarModifier (ascii ":quotewildcard") (ascii "really?"))
    (ascii "really?") =
      false := by decide
  rw [refused]
  simp

end Herold.Sieve

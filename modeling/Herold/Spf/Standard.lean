import Herold.Spf.Reading

/-!
# SPF evaluation as RFC 7208 has it

The evaluation of RFC 7208 takes no budget along: it counts the terms that need DNS
and the hosts it looks up for `mx`, and what it comes to is a permanent error where the
terms are more than ten. Beside the counts a course tells at which cost the evaluation met
something that the code reads differently.
-/

namespace Herold.Spf

open Herold.Go

inductive Verdict where
  | result (status : Status)
  | unredirected
  deriving DecidableEq

def Verdict.standard : Verdict → Status
  | .result status => status
  | .unredirected => .permError

def Verdict.herold : Verdict → Status
  | .result status => status
  | .unredirected => .none

def redirected : Verdict → Verdict
  | .result .none => .unredirected
  | verdict => verdict

/-- The lengths of the labels of a name, in characters. -/
def labelLengths : List Rune → List Nat
  | [] => [0]
  | rune :: rest =>
    if rune = 46 then 0 :: labelLengths rest
    else match labelLengths rest with
      | [] => [1]
      | length :: lengths => (length + 1) :: lengths

/-- A properly formed domain of several labels, an empty one at its end left aside. -/
def isMultiLabel (domain : Bytes) : Bool :=
  let lengths := labelLengths ((runes domain).map Prod.fst)
  let lengths := if lengths.getLast? = some 0 then lengths.dropLast else lengths
  1 < lengths.length && lengths.all (fun length => 0 < length && length ≤ 63) &&
    lengths.sum + lengths.length ≤ 254

/-- What the evaluation comes to, and the costs (terms and hosts together) by which it has
met what the code reads differently. -/
structure Course where
  verdict : Verdict
  terms : Nat := 0
  hosts : Nat := 0
  odd : List Nat := []
  cut : Bool := false
  deriving DecidableEq

structure Trial where
  ending : Option Status
  terms : Nat := 0
  hosts : Nat := 0
  odd : List Nat := []
  cut : Bool := false
  deriving DecidableEq

def marked (met : Bool) (cost : Nat) : List Nat := if met then [cost] else []

/-- The hosts of `mx` up to the one that ends it. The code passes over a host whose lookup
fails for good. -/
def tryHosts (zone : Zone) (ip : Address) (mechanism : Mechanism) : List Bytes → Trial
  | [] => { ending := none }
  | host :: hosts =>
    let rest := tryHosts zone ip mechanism hosts
    let behind : Trial := { rest with hosts := rest.hosts + 1, odd := rest.odd.map (· + 1) }
    match zone.addresses (trimSuffix host [46]) with
    | .absent => behind
    | .temporary => { ending := some .tempError, hosts := 1 }
    | .failed => { ending := some .tempError, hosts := 1, odd := [1] }
    | .found addresses =>
      if matchIPs ip addresses mechanism then
        { ending := some (qualifierToStatus mechanism.qualifier), hosts := 1 }
      else behind

def maxHosts : Nat := 10

def tryMechanism (zone : Zone) (ip : Address) (recurse : Bytes → Course) (domain : Bytes)
    (mechanism : Mechanism) : Trial :=
  let matched := qualifierToStatus mechanism.qualifier
  let expanded := marked (hasMacro (orDomain mechanism.domain domain)) 1
  match mechanism.name with
  | .all => { ending := some matched }
  | .ip4 => { ending := if mechanism.network.any (·.contains ip) then some matched else none }
  | .ip6 => { ending := if mechanism.network.any (·.contains ip) then some matched else none }
  | .a =>
    match zone.addresses (orDomain mechanism.domain domain) with
    | .absent => { ending := none, terms := 1, odd := expanded }
    | .temporary => { ending := some .tempError, terms := 1, odd := expanded }
    | .failed => { ending := some .tempError, terms := 1, odd := [1] }
    | .found addresses =>
      { ending := if matchIPs ip addresses mechanism then some matched else none, terms := 1,
        odd := expanded }
  | .mx =>
    match zone.mx (orDomain mechanism.domain domain) with
    | .absent => { ending := none, terms := 1, odd := expanded }
    | .temporary => { ending := some .tempError, terms := 1, odd := expanded }
    | .failed => { ending := some .tempError, terms := 1, odd := [1] }
    | .found hosts =>
      let tried := tryHosts zone ip mechanism hosts
      let many : Bool := maxHosts < hosts.length
      -- the code goes through the hosts even where they are too many
      { ending := if many then some .permError else tried.ending, terms := 1, hosts := tried.hosts,
        odd := expanded ++ tried.odd.map (· + 1) ++ marked many (tried.hosts + 1) }
  | .includes =>
    let course := recurse mechanism.domain
    { ending := includeEnding mechanism.qualifier course.verdict.standard, terms := course.terms + 1,
      hosts := course.hosts, odd := marked (hasMacro mechanism.domain) 0 ++ course.odd.map (· + 1),
      cut := course.cut }
  | .existing =>
    match zone.addresses mechanism.domain with
    | .absent => { ending := none, terms := 1, odd := marked (hasMacro mechanism.domain) 0 }
    | .temporary =>
      { ending := some .tempError, terms := 1, odd := marked (hasMacro mechanism.domain) 0 }
    | .failed => { ending := some .tempError, terms := 1, odd := [1] }
    | .found addresses =>
      { ending := if addresses.any Address.is4 then some matched else none, terms := 1,
        odd := marked (hasMacro mechanism.domain) 0 ++ marked (!addresses.any Address.is4) 1 }
  | .ptr => { ending := none, odd := [0] }

def walk (zone : Zone) (ip : Address) (recurse : Bytes → Course) (domain : Bytes)
    (redirect : Option Bytes) : List Mechanism → Course
  | [] =>
    match redirect with
    | none => { verdict := .result .neutral }
    | some target =>
      let course := recurse target
      { course with
        verdict := redirected course.verdict
        terms := course.terms + 1
        odd := marked (hasMacro target) 0 ++ course.odd.map (· + 1) }
  | mechanism :: mechanisms =>
    let trial := tryMechanism zone ip recurse domain mechanism
    let rest := walk zone ip recurse domain redirect mechanisms
    match trial.ending with
    | some status => ⟨.result status, trial.terms, trial.hosts, trial.odd, trial.cut⟩
    | none => ⟨rest.verdict, trial.terms + rest.terms, trial.hosts + rest.hosts,
        trial.odd ++ rest.odd.map (· + (trial.terms + trial.hosts)), trial.cut || rest.cut⟩

/-- A name at which nothing is found that looks like a record. -/
def isSilent (zone : Zone) (domain : Bytes) : Bool :=
  match zone.txt domain with
  | .absent => true
  | .temporary => false
  | .failed => false
  | .found texts => !texts.any looksLikeSpf

/-- One call of `check_host`. The code does not ask whether the domain is properly formed. -/
def standardLevel (zone : Zone) (ip : Address) (recurse : Bytes → Course) (domain : Bytes) : Course :=
  if isMultiLabel domain then
    match zone.txt domain with
    | .absent => { verdict := .result .none }
    | .temporary => { verdict := .result .tempError }
    | .failed => { verdict := .result .tempError, odd := [0] }
    | .found texts =>
      let misread := marked (!decide (Legible zone.cidr texts)) 0
      match standardRecord zone.cidr texts with
      | .error status => { verdict := .result status, odd := misread }
      | .ok record =>
        let course := walk zone ip recurse domain record.redirect record.mechanisms
        { course with odd := misread ++ course.odd }
  else { verdict := .result .none, odd := marked (!isSilent zone domain) 0 }

/-- The evaluation down to a depth of includes and redirections, where it is cut. -/
def standardRun (zone : Zone) (ip : Address) : Nat → Bytes → Course
  | 0, _ => { verdict := .result .permError, cut := true }
  | depth + 1, domain => standardLevel zone ip (standardRun zone ip depth) domain

def maxTerms : Nat := 10

def fullRun (zone : Zone) (ip : Address) (domain : Bytes) : Course :=
  standardRun zone ip (maxTerms + 1) domain

/-- `check_host`. -/
def checkHost (zone : Zone) (ip : Address) (domain : Bytes) : Status :=
  let course := fullRun zone ip domain
  if course.terms ≤ maxTerms then course.verdict.standard else .permError

def Extends (less more : Bytes → Course) : Prop := ∀ name, (less name).cut = false →
    more name = less name

section Depth

variable {zone : Zone} {ip : Address} {less more : Bytes → Course}

theorem try_mechanism_extends (further : Extends less more) (domain : Bytes) (mechanism : Mechanism)
    (whole : (tryMechanism zone ip less domain mechanism).cut = false) :
    tryMechanism zone ip more domain mechanism = tryMechanism zone ip less domain mechanism := by
  unfold tryMechanism at whole ⊢
  cases name : mechanism.name with
  | includes =>
    simp only [name] at whole ⊢
    rw [further mechanism.domain whole]
  | _ => rfl

theorem walk_extends (further : Extends less more) (domain : Bytes) (redirect : Option Bytes)
    (mechanisms : List Mechanism) (whole : (walk zone ip less domain redirect mechanisms).cut = false) :
    walk zone ip more domain redirect mechanisms = walk zone ip less domain redirect mechanisms := by
  induction mechanisms with
  | nil =>
    cases redirect with
    | none => rfl
    | some target =>
      simp only [walk] at whole ⊢
      rw [further target whole]
  | cons mechanism mechanisms ih =>
    have tried : (tryMechanism zone ip less domain mechanism).cut = false := by
      simp only [walk] at whole
      split at whole
      · exact whole
      · exact (Bool.or_eq_false_iff.mp whole).1
    simp only [walk, try_mechanism_extends further domain mechanism tried] at whole ⊢
    split
    · rfl
    · rename_i goesOn
      rw [goesOn] at whole
      rw [ih (Bool.or_eq_false_iff.mp whole).2]

theorem level_extends (further : Extends less more) (name : Bytes)
    (whole : (standardLevel zone ip less name).cut = false) :
    standardLevel zone ip more name = standardLevel zone ip less name := by
  unfold standardLevel at whole ⊢
  by_cases proper : isMultiLabel name = true
  · rw [if_pos proper] at whole ⊢
    rw [if_pos proper]
    cases txt : zone.txt name with
    | absent => rfl
    | temporary => rfl
    | failed => rfl
    | found texts =>
      simp only [txt] at whole ⊢
      cases selected : standardRecord zone.cidr texts with
      | error status => rfl
      | ok record =>
        simp only [selected] at whole ⊢
        rw [walk_extends further name _ _ whole]
  · rw [if_neg proper, if_neg proper]

theorem standard_run_extends (zone : Zone) (ip : Address) (depth : Nat) :
    Extends (standardRun zone ip depth) (standardRun zone ip (depth + 1)) := by
  induction depth with
  | zero =>
    intro name whole
    cases whole
  | succ depth ih =>
    intro name whole
    exact level_extends ih name whole

theorem cut_of_deeper {depth : Nat} {name : Bytes}
    (deeper : (standardRun zone ip (depth + 1) name).cut = true) :
    (standardRun zone ip depth name).cut = true := by
  by_contra whole
  have same := standard_run_extends zone ip depth name (by simpa using whole)
  rw [same] at deeper
  exact whole deeper

theorem try_mechanism_caseless {recurse : Bytes → Course} {left right : Bytes}
    (alike : equalFold left right = true) (mechanism : Mechanism) :
    (tryMechanism zone ip recurse left mechanism).ending =
        (tryMechanism zone ip recurse right mechanism).ending ∧
      (tryMechanism zone ip recurse left mechanism).cut =
        (tryMechanism zone ip recurse right mechanism).cut := by
  obtain ⟨_, mx, addresses⟩ := zone.caseless left right alike
  have sameAddresses : zone.addresses (orDomain mechanism.domain left) =
      zone.addresses (orDomain mechanism.domain right) := by
    unfold orDomain
    split
    · exact addresses
    · rfl
  have sameHosts : zone.mx (orDomain mechanism.domain left) =
      zone.mx (orDomain mechanism.domain right) := by
    unfold orDomain
    split
    · exact mx
    · rfl
  unfold tryMechanism
  rw [sameAddresses, sameHosts]
  cases mechanism.name with
  | a =>
    dsimp only
    cases zone.addresses (orDomain mechanism.domain right) <;> exact ⟨rfl, rfl⟩
  | mx =>
    dsimp only
    cases zone.mx (orDomain mechanism.domain right) <;> exact ⟨rfl, rfl⟩
  | _ => exact ⟨rfl, rfl⟩

theorem walk_caseless {recurse : Bytes → Course} {left right : Bytes}
    (alike : equalFold left right = true)
    (redirect : Option Bytes) (mechanisms : List Mechanism) :
    (walk zone ip recurse left redirect mechanisms).cut =
      (walk zone ip recurse right redirect mechanisms).cut := by
  induction mechanisms with
  | nil => rfl
  | cons mechanism mechanisms ih =>
    obtain ⟨sameEnding, sameCut⟩ :=
      @try_mechanism_caseless zone ip recurse left right alike mechanism
    simp only [walk, sameEnding, sameCut]
    split
    · rfl
    · simp only [ih]

theorem fold_rune_dot (rune : Rune) : foldRune rune = 46 ↔ rune = 46 := by
  unfold foldRune
  constructor
  · intro folded
    split at folded
    · exact folded
    · have lowered := lower_rune_below_letters _ 46 (by decide) folded
      exact upper_rune_below_letters rune 46 (by decide) lowered
  · rintro rfl
    rfl

theorem label_lengths_caseless {left right : List Rune}
    (alike : left.map foldRune = right.map foldRune) :
    labelLengths left = labelLengths right := by
  induction left generalizing right with
  | nil =>
    rw [List.map_nil] at alike
    rw [List.map_eq_nil_iff.mp alike.symm]
  | cons first left ih =>
    obtain ⟨second, others, rfl, same, rest⟩ := List.map_eq_cons_iff.mp alike.symm
    have dots : first = 46 ↔ second = 46 := by
      rw [← fold_rune_dot first, ← fold_rune_dot second, same]
    simp only [labelLengths, dots, ih rest.symm]

theorem multi_label_caseless {left right : Bytes} (alike : equalFold left right = true) :
    isMultiLabel left = isMultiLabel right := by
  have folded := of_decide_eq_true alike
  have same : labelLengths ((runes left).map Prod.fst) = labelLengths ((runes right).map Prod.fst) :=
    label_lengths_caseless (by rw [List.map_map, List.map_map]; exact folded)
  unfold isMultiLabel
  rw [same]

/-- Whether an evaluation is cut does not depend on the case of its domain. -/
theorem standard_run_caseless (depth : Nat) {left right : Bytes} (alike : equalFold left right = true) :
    (standardRun zone ip depth left).cut = (standardRun zone ip depth right).cut := by
  cases depth with
  | zero => rfl
  | succ depth =>
    simp only [standardRun, standardLevel, multi_label_caseless alike,
      (zone.caseless left right alike).1]
    split
    · cases zone.txt right with
      | absent => rfl
      | temporary => rfl
      | failed => rfl
      | found texts =>
        dsimp only
        cases standardRecord zone.cidr texts with
        | error status => rfl
        | ok record => exact walk_caseless alike _ _
    · rfl

theorem try_mechanism_depth {recurse : Bytes → Course} {depth : Nat}
    (deep : ∀ name, (recurse name).cut = true → depth ≤ (recurse name).terms) (domain : Bytes)
    (mechanism : Mechanism) (cut : (tryMechanism zone ip recurse domain mechanism).cut = true) :
    depth + 1 ≤ (tryMechanism zone ip recurse domain mechanism).terms := by
  unfold tryMechanism at cut ⊢
  cases name : mechanism.name with
  | includes =>
    simp only [name] at cut ⊢
    exact Nat.succ_le_succ (deep _ cut)
  | all => simp [name] at cut
  | ip4 => simp [name] at cut
  | ip6 => simp [name] at cut
  | ptr => simp [name] at cut
  | a =>
    simp only [name] at cut
    split at cut <;> cases cut
  | existing =>
    simp only [name] at cut
    split at cut <;> cases cut
  | mx =>
    simp only [name] at cut
    split at cut <;> cases cut

theorem walk_depth {recurse : Bytes → Course} {depth : Nat}
    (deep : ∀ name, (recurse name).cut = true → depth ≤ (recurse name).terms) (domain : Bytes)
    (redirect : Option Bytes) (mechanisms : List Mechanism)
    (cut : (walk zone ip recurse domain redirect mechanisms).cut = true) :
    depth + 1 ≤ (walk zone ip recurse domain redirect mechanisms).terms := by
  induction mechanisms with
  | nil =>
    cases redirect with
    | none => cases cut
    | some target => exact Nat.succ_le_succ (deep target cut)
  | cons mechanism mechanisms ih =>
    simp only [walk] at cut ⊢
    cases ends : (tryMechanism zone ip recurse domain mechanism).ending with
    | some status =>
      simp only [ends] at cut ⊢
      exact try_mechanism_depth deep domain mechanism cut
    | none =>
      simp only [ends] at cut ⊢
      rcases Bool.or_eq_true_iff.mp cut with here | later
      · exact Nat.le_trans (try_mechanism_depth deep domain mechanism here) (Nat.le_add_right _ _)
      · exact Nat.le_trans (ih later) (Nat.le_add_left _ _)

theorem standard_run_depth (depth : Nat) (name : Bytes)
    (cut : (standardRun zone ip depth name).cut = true) :
    depth ≤ (standardRun zone ip depth name).terms := by
  induction depth generalizing name with
  | zero => exact Nat.zero_le _
  | succ depth ih =>
    rw [standardRun, standardLevel] at cut ⊢
    split at cut
    · rename_i proper
      rw [if_pos proper]
      cases txt : zone.txt name with
      | absent => simp [txt] at cut
      | temporary => simp [txt] at cut
      | failed => simp [txt] at cut
      | found texts =>
        simp only [txt] at cut ⊢
        cases selected : standardRecord zone.cidr texts with
        | error status => simp [selected] at cut
        | ok record =>
          simp only [selected] at cut ⊢
          exact walk_depth ih name _ _ cut
    · cases cut

end Depth

end Herold.Spf

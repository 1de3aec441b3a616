import Herold.Spf.Standard

/-!
# The budget of the code and the limits of RFC 7208

The code follows the evaluation of RFC 7208 as long as its budget lasts. It spends the
budget on the first record as well, and on every host of an `mx` term, so it comes to
the same result exactly when nine lookups are enough or the result is a permanent error
anyway.
-/

namespace Herold.Spf

open Herold.Go

/-- The code has come to the status at its cost, or to a permanent error where the cost
is more than is left. -/
def Follows (status : Status) (cost : Nat) (cut : Bool) (limit : Nat) (result : Status × Nat) : Prop :=
  if cut = false ∧ cost ≤ limit then result = (status, limit - cost) else result.1 = .permError

def FollowsTrial (trial : Trial) (limit : Nat) (result : Match) : Prop :=
  if trial.cut = false ∧ trial.terms + trial.hosts ≤ limit then
    result = ⟨trial.ending, limit - (trial.terms + trial.hosts)⟩
  else result.ending = some .permError

theorem expand_plain {spec : Bytes} (plain : hasMacro spec = false) (domain sender : Bytes) :
    expandDomain spec domain sender = spec := by
  unfold expandDomain
  rw [plain]
  rfl

/-- Nothing that is read differently is met within the limit. -/
def EvenWithin (limit : Nat) (odd : List Nat) : Prop := ∀ cost ∈ odd, limit < cost

theorem even_append {limit : Nat} {first second : List Nat}
    (even : EvenWithin limit (first ++ second)) :
    EvenWithin limit first ∧ EvenWithin limit second :=
  ⟨fun cost inside => even cost (List.mem_append_left _ inside),
    fun cost inside => even cost (List.mem_append_right _ inside)⟩

theorem even_shifted {limit cost : Nat} {odd : List Nat} (even : EvenWithin limit (odd.map (· + cost)))
    (paid : cost ≤ limit) : EvenWithin (limit - cost) odd := by
  intro met inside
  have here := even (met + cost) (List.mem_map.mpr ⟨met, inside, rfl⟩)
  omega

theorem even_marked {limit cost : Nat} {met : Bool} (even : EvenWithin limit (marked met cost))
    (within : cost ≤ limit) : met = false := by
  cases met with
  | false => rfl
  | true => exact absurd (even cost (by simp [marked])) (Nat.not_lt.mpr within)

theorem include_ending_verdict (qualifier : Qualifier) (verdict : Verdict) :
    includeEnding qualifier verdict.herold = includeEnding qualifier verdict.standard := by
  cases verdict with
  | result status => rfl
  | unredirected => rfl

theorem redirected_herold (verdict : Verdict) : (redirected verdict).herold = verdict.herold := by
  cases verdict with
  | result status => cases status <;> rfl
  | unredirected => rfl

theorem follows_lookup {ending : Option Status} {odd : List Nat} {limit : Nat} {then_ : Nat → Match}
    (answers : ∀ left, limit = left + 1 → then_ left = ⟨ending, left⟩) :
    FollowsTrial { ending, terms := 1, odd } limit (consumeLookup limit then_) := by
  cases limit with
  | zero => simp [FollowsTrial, consumeLookup]
  | succ limit =>
    have paid : consumeLookup (limit + 1) then_ = ⟨ending, limit⟩ := answers limit rfl
    simp [FollowsTrial, paid]

section Simulation

variable {zone : Zone} {ip : Address}

theorem match_hosts_follows (mechanism : Mechanism) (hosts : List Bytes) (limit : Nat)
    (even : EvenWithin limit (tryHosts zone ip mechanism hosts).odd) :
    if (tryHosts zone ip mechanism hosts).hosts ≤ limit then
      matchHosts zone ip mechanism hosts limit =
        ⟨(tryHosts zone ip mechanism hosts).ending,
          limit - (tryHosts zone ip mechanism hosts).hosts⟩
    else (matchHosts zone ip mechanism hosts limit).ending = some .permError := by
  induction hosts generalizing limit with
  | nil => simp [tryHosts, matchHosts]
  | cons host hosts ih =>
    cases limit with
    | zero =>
      have looked : 0 < (tryHosts zone ip mechanism (host :: hosts)).hosts := by
        simp only [tryHosts]
        split
        · exact Nat.succ_pos _
        · exact Nat.one_pos
        · exact Nat.one_pos
        · split
          · exact Nat.one_pos
          · exact Nat.succ_pos _
      rw [if_neg (Nat.not_le_of_lt looked)]
      rfl
    | succ limit =>
      cases answer : zone.addresses (trimSuffix host [46]) with
      | absent =>
        simp only [tryHosts, answer] at even
        have later := ih limit (even_shifted even (Nat.succ_le_succ (Nat.zero_le _)))
        simpa [tryHosts, matchHosts, consumeLookup, answer, Nat.add_sub_add_right] using later
      | temporary => simp [tryHosts, matchHosts, consumeLookup, answer]
      | failed =>
        have met := even 1 (by simp [tryHosts, answer])
        omega
      | found addresses =>
        simp only [tryHosts, answer] at even
        simp only [tryHosts, matchHosts, consumeLookup, answer]
        by_cases matched : matchIPs ip addresses mechanism = true
        · simp [matched]
        · rw [if_neg matched] at even
          have later := ih limit (even_shifted even (Nat.succ_le_succ (Nat.zero_le _)))
          simpa [matched, Nat.add_sub_add_right] using later

/-- The recursion follows wherever it goes with at most this budget. -/
def RecursionFollows (depth bound : Nat) (recurse : Bytes → Course)
    (code : Nat → Bytes → Status × Nat) : Prop :=
  ∀ name limit, limit ≤ bound → EvenWithin limit ((recurse name).odd.map (· + 1)) →
    ((recurse name).cut = true → limit ≤ depth) →
      Follows (recurse name).verdict.herold (1 + (recurse name).terms + (recurse name).hosts)
        (recurse name).cut limit (code limit name)

variable {depth bound : Nat} {recurse : Bytes → Course} {code : Nat → Bytes → Status × Nat}

theorem mechanism_follows (sender : Bytes) (recursion : RecursionFollows depth bound recurse code)
    (domain : Bytes) {limit : Nat} (within : limit ≤ bound) (mechanism : Mechanism)
    (even : EvenWithin limit (tryMechanism zone ip recurse domain mechanism).odd)
    (deep : (tryMechanism zone ip recurse domain mechanism).cut = true → limit ≤ depth) :
    FollowsTrial (tryMechanism zone ip recurse domain mechanism) limit
      (matchMechanism zone ip sender code limit domain mechanism) := by
  -- a lookup that is paid for reads its name as it stands
  have plain {spec : Bytes} {left : Nat} (is : limit = left + 1)
      (even : EvenWithin limit (marked (hasMacro spec) 1)) : expandDomain spec domain sender = spec :=
    expand_plain (even_marked even (by omega)) domain sender
  unfold tryMechanism at even deep ⊢
  unfold matchMechanism
  cases name : mechanism.name with
  | all => simp [FollowsTrial]
  | ip4 => simp [FollowsTrial]
  | ip6 => simp [FollowsTrial]
  | ptr =>
    simp only [name] at even
    exact absurd (even 0 (by simp)) (Nat.not_lt_zero limit)
  | a =>
    simp only [name] at even deep ⊢
    cases answer : zone.addresses (orDomain mechanism.domain domain) with
    | absent =>
      rw [answer] at even
      exact follows_lookup fun left is => by rw [plain is even, answer]
    | temporary =>
      rw [answer] at even
      exact follows_lookup fun left is => by rw [plain is even, answer]
    | failed =>
      rw [answer] at even
      refine follows_lookup fun left is => ?_
      have met := even 1 (by simp)
      omega
    | found addresses =>
      rw [answer] at even
      exact follows_lookup fun left is => by rw [plain is even, answer]
  | mx =>
    simp only [name] at even deep ⊢
    cases answer : zone.mx (orDomain mechanism.domain domain) with
    | absent =>
      rw [answer] at even
      exact follows_lookup fun left is => by rw [plain is even, answer]
    | temporary =>
      rw [answer] at even
      exact follows_lookup fun left is => by rw [plain is even, answer]
    | failed =>
      rw [answer] at even
      refine follows_lookup fun left is => ?_
      have met := even 1 (by simp)
      omega
    | found hosts =>
      simp only [answer] at even ⊢
      obtain ⟨front, evenMany⟩ := even_append even
      obtain ⟨evenName, evenHosts⟩ := even_append front
      cases limit with
      | zero => simp [FollowsTrial, consumeLookup]
      | succ limit =>
        have looked := match_hosts_follows mechanism hosts limit
          (even_shifted evenHosts (Nat.succ_le_succ (Nat.zero_le _)))
        simp only [FollowsTrial, consumeLookup]
        rw [plain rfl evenName, answer]
        dsimp only
        by_cases enough : (tryHosts zone ip mechanism hosts).hosts ≤ limit
        · have few := even_marked evenMany (by omega)
          rw [if_pos enough] at looked
          rw [if_pos ⟨trivial, by omega⟩, looked, few]
          simp only [Bool.false_eq_true, if_false]
          congr 1
          omega
        · rw [if_neg enough] at looked
          rw [if_neg fun both => enough (by omega)]
          exact looked
  | includes =>
    simp only [name] at even deep ⊢
    obtain ⟨evenName, evenInside⟩ := even_append even
    rw [expand_plain (even_marked evenName (Nat.zero_le _))]
    have inside := recursion mechanism.domain limit within evenInside deep
    simp only [Follows] at inside
    simp only [FollowsTrial]
    by_cases enough : (recurse mechanism.domain).cut = false ∧
        1 + (recurse mechanism.domain).terms + (recurse mechanism.domain).hosts ≤ limit
    · rw [if_pos enough] at inside
      rw [if_pos ⟨enough.1, by have := enough.2; omega⟩, inside]
      simp only [include_ending_verdict]
      congr 1
      omega
    · rw [if_neg enough] at inside
      rw [if_neg fun both => enough ⟨both.1, by have := both.2; omega⟩]
      rw [inside]
      rfl
  | existing =>
    simp only [name] at even deep ⊢
    cases answer : zone.addresses mechanism.domain with
    | absent =>
      rw [answer] at even
      rw [expand_plain (even_marked even (Nat.zero_le _))]
      exact follows_lookup fun left _ => by rw [answer]
    | temporary =>
      rw [answer] at even
      rw [expand_plain (even_marked even (Nat.zero_le _))]
      exact follows_lookup fun left _ => by rw [answer]
    | failed =>
      rw [answer] at even
      refine follows_lookup fun left is => ?_
      have met := even 1 (by simp)
      omega
    | found addresses =>
      rw [answer] at even
      obtain ⟨evenName, evenFour⟩ := even_append even
      rw [expand_plain (even_marked evenName (Nat.zero_le _))]
      refine follows_lookup fun left is => ?_
      have four : addresses.any Address.is4 = true := by
        simpa using even_marked evenFour (by omega)
      rw [answer, if_pos four]

theorem walk_follows (sender : Bytes) (recursion : RecursionFollows depth bound recurse code)
    (domain : Bytes) (redirect : Option Bytes) (mechanisms : List Mechanism)
    {limit : Nat} (within : limit ≤ bound)
    (even : EvenWithin limit (walk zone ip recurse domain redirect mechanisms).odd)
    (deep : (walk zone ip recurse domain redirect mechanisms).cut = true → limit ≤ depth) :
    Follows (walk zone ip recurse domain redirect mechanisms).verdict.herold
      ((walk zone ip recurse domain redirect mechanisms).terms +
        (walk zone ip recurse domain redirect mechanisms).hosts)
      (walk zone ip recurse domain redirect mechanisms).cut limit
      (eval zone ip sender code domain redirect mechanisms limit) := by
  induction mechanisms generalizing limit with
  | nil =>
    cases redirect with
    | none => simp [walk, eval, Follows, Verdict.herold]
    | some target =>
      obtain ⟨evenName, evenInside⟩ := even_append even
      have inside := recursion target limit within evenInside deep
      simp only [walk, eval, redirected_herold, expand_plain (even_marked evenName (Nat.zero_le _))]
      have cost : (recurse target).terms + 1 + (recurse target).hosts =
          1 + (recurse target).terms + (recurse target).hosts := by omega
      rw [cost]
      exact inside
  | cons mechanism mechanisms ih =>
    simp only [walk] at even deep ⊢
    simp only [eval]
    have tried : EvenWithin limit (tryMechanism zone ip recurse domain mechanism).odd ∧
        ((tryMechanism zone ip recurse domain mechanism).cut = true → limit ≤ depth) := by
      split at even
      · rename_i status ends
        rw [ends] at deep
        exact ⟨even, deep⟩
      · rename_i goesOn
        rw [goesOn] at deep
        exact ⟨(even_append even).1, fun cut => deep (by simp [cut])⟩
    have step := mechanism_follows sender recursion domain within mechanism tried.1 tried.2
    unfold FollowsTrial at step
    by_cases enough : (tryMechanism zone ip recurse domain mechanism).cut = false ∧
        (tryMechanism zone ip recurse domain mechanism).terms +
          (tryMechanism zone ip recurse domain mechanism).hosts ≤ limit
    · rw [if_pos enough] at step
      rw [step]
      cases ends : (tryMechanism zone ip recurse domain mechanism).ending with
      | some status =>
        simp only [Follows]
        rw [if_pos enough]
        rfl
      | none =>
        simp only [ends] at even deep ⊢
        have less := Nat.sub_le limit ((tryMechanism zone ip recurse domain mechanism).terms +
          (tryMechanism zone ip recurse domain mechanism).hosts)
        have later := ih (Nat.le_trans less within) (even_shifted (even_append even).2 enough.2)
          fun cut => Nat.le_trans less (deep (by simp [cut]))
        unfold Follows at later ⊢
        have here := enough.1
        have paid := enough.2
        by_cases lasts : (walk zone ip recurse domain redirect mechanisms).cut = false ∧
            (walk zone ip recurse domain redirect mechanisms).terms +
              (walk zone ip recurse domain redirect mechanisms).hosts ≤
            limit - ((tryMechanism zone ip recurse domain mechanism).terms +
              (tryMechanism zone ip recurse domain mechanism).hosts)
        · rw [if_pos lasts] at later
          have all := lasts.2
          rw [if_pos ⟨by simp [here, lasts.1], by omega⟩, later]
          congr 1
          omega
        · rw [if_neg lasts] at later
          rw [if_neg]
          · exact later
          · rintro ⟨uncut, cheap⟩
            exact lasts ⟨(Bool.or_eq_false_iff.mp uncut).2, by omega⟩
    · rw [if_neg enough] at step
      rw [step]
      simp only
      cases ends : (tryMechanism zone ip recurse domain mechanism).ending with
      | some status =>
        unfold Follows
        rw [if_neg enough]
      | none =>
        unfold Follows
        rw [if_neg]
        rintro ⟨uncut, cheap⟩
        exact enough ⟨(Bool.or_eq_false_iff.mp uncut).1, by simp only at cheap; omega⟩

theorem silent_answer {domain : Bytes} (silent : isSilent zone domain = true) (sender : Bytes)
    (limit : Nat) :
    checkRecord zone ip sender code domain limit = (.none, limit) := by
  unfold isSilent at silent
  unfold checkRecord
  cases txt : zone.txt domain with
  | absent => rfl
  | temporary => simp [txt] at silent
  | failed => simp [txt] at silent
  | found texts =>
    simp only [txt] at silent ⊢
    have none_ : texts.filter looksLikeSpf = [] := by
      rw [List.filter_eq_nil_iff]
      simpa using silent
    rw [selectRecord, none_]
    rfl

theorem check_record_follows (sender : Bytes) {domain : Bytes} {limit : Nat}
    (recursion : RecursionFollows depth limit (standardRun zone ip depth) code)
    (even : EvenWithin limit (standardRun zone ip (depth + 1) domain).odd)
    (deep : (standardRun zone ip (depth + 1) domain).cut = true → limit ≤ depth) :
    Follows (standardRun zone ip (depth + 1) domain).verdict.herold
      (1 + (standardRun zone ip (depth + 1) domain).terms +
        (standardRun zone ip (depth + 1) domain).hosts)
      (standardRun zone ip (depth + 1) domain).cut (limit + 1)
      (checkRecord zone ip sender code domain limit) := by
  simp only [standardRun, standardLevel] at even deep ⊢
  by_cases proper : isMultiLabel domain = true
  · rw [if_pos proper] at even deep
    simp only [if_pos proper]
    unfold checkRecord
    cases txt : zone.txt domain with
    | absent => simp [Follows, Verdict.herold]
    | temporary => simp [Follows, Verdict.herold]
    | failed =>
      simp only [txt] at even
      exact absurd (even 0 (by simp)) (Nat.not_lt_zero limit)
    | found texts =>
      simp only [txt] at even deep ⊢
      have legible (evenText : EvenWithin limit (marked (!decide (Legible zone.cidr texts)) 0)) :
          selectRecord zone.cidr texts = standardRecord zone.cidr texts := by
        have read := even_marked evenText (Nat.zero_le _)
        exact (legible_iff zone.cidr texts).mpr (by simpa using read)
      cases selected : standardRecord zone.cidr texts with
      | error status =>
        simp only [selected] at even ⊢
        rw [legible even, selected]
        simp [Follows, Verdict.herold]
      | ok record =>
        simp only [selected] at even deep ⊢
        obtain ⟨evenText, evenWalk⟩ := even_append even
        rw [legible evenText, selected]
        have walked := walk_follows sender recursion domain record.redirect record.mechanisms
          (Nat.le_refl limit) evenWalk deep
        unfold Follows at walked ⊢
        by_cases enough : (walk zone ip (standardRun zone ip depth) domain record.redirect
              record.mechanisms).cut = false ∧
            (walk zone ip (standardRun zone ip depth) domain record.redirect record.mechanisms).terms +
              (walk zone ip (standardRun zone ip depth) domain
                record.redirect record.mechanisms).hosts ≤ limit
        · rw [if_pos enough] at walked
          have paid := enough.2
          rw [if_pos ⟨enough.1, by omega⟩]
          simp only
          rw [walked]
          congr 1
          omega
        · rw [if_neg enough] at walked
          rw [if_neg fun both => enough ⟨both.1, by have := both.2; omega⟩]
          exact walked
  · rw [if_neg proper] at even
    simp only [if_neg proper]
    have silent : isSilent zone domain = true := by simpa using even_marked even (Nat.zero_le _)
    rw [silent_answer silent]
    simp [Follows, Verdict.herold]

end Simulation

def StackCut (zone : Zone) (ip : Address) (depth : Nat) (stack : List Bytes) : Prop :=
  ∀ name ∈ stack, ∀ other, equalFold name other = true → (standardRun zone ip depth other).cut = true

/-- The code on one record. A name that is on the stack would be evaluated for ever, so
the evaluation of RFC 7208 is cut there. -/
theorem check_follows (zone : Zone) (ip : Address) (sender : Bytes) (depth : Nat) :
    ∀ domain stack limit calls, limit < calls → StackCut zone ip depth stack →
      EvenWithin limit ((standardRun zone ip depth domain).odd.map (· + 1)) →
      ((standardRun zone ip depth domain).cut = true → limit ≤ depth) →
      Follows (standardRun zone ip depth domain).verdict.herold
        (1 + (standardRun zone ip depth domain).terms + (standardRun zone ip depth domain).hosts)
        (standardRun zone ip depth domain).cut limit
          (check zone ip sender calls stack limit domain) := by
  induction depth with
  | zero =>
    intro domain stack limit calls small _ _ deep
    have empty : limit = 0 := Nat.le_zero.mp (deep rfl)
    subst empty
    obtain ⟨calls, rfl⟩ := Nat.exists_eq_succ_of_ne_zero (Nat.ne_of_gt small)
    simp only [Follows, standardRun, check]
    split
    · rename_i wrong
      cases wrong.1
    · split
      · rfl
      · rfl
  | succ depth ih =>
    intro domain stack limit calls small stacked even deep
    have lower : StackCut zone ip depth stack := fun name member other alike =>
      cut_of_deeper (stacked name member other alike)
    by_cases whole : (standardRun zone ip depth domain).cut = false
    · -- one level less is enough already
      have same := standard_run_extends zone ip depth domain whole
      rw [same] at even ⊢
      apply ih domain stack limit calls small lower even
      intro cut
      rw [whole] at cut
      cases cut
    · have cutBelow : (standardRun zone ip depth domain).cut = true := by simpa using whole
      have pushed : StackCut zone ip depth (domain :: stack) := by
        intro name member other alike
        rcases List.mem_cons.mp member with rfl | old
        · rw [← standard_run_caseless depth alike]
          exact cutBelow
        · exact lower name old other alike
      obtain ⟨calls, rfl⟩ := Nat.exists_eq_succ_of_ne_zero (Nat.ne_of_gt (Nat.zero_lt_of_lt small))
      simp only [check]
      split
      · rename_i looping
        obtain ⟨name, member, alike⟩ := List.any_eq_true.mp looping
        have cut := stacked name member domain alike
        unfold Follows
        rw [if_neg fun both => by rw [cut] at both; cases both.1]
      · cases limit with
        | zero =>
          unfold Follows
          rw [if_neg fun both => by have := both.2; omega]
        | succ limit =>
          have recursion : RecursionFollows depth limit (standardRun zone ip depth)
              (check zone ip sender calls (domain :: stack)) := by
            intro name left affordable evenInside deepInside
            exact ih name (domain :: stack) left calls
              (Nat.lt_of_le_of_lt affordable (Nat.lt_of_succ_lt_succ small)) pushed
                evenInside deepInside
          exact check_record_follows sender recursion
            (even_shifted even (Nat.succ_le_succ (Nat.zero_le _)))
            fun cut => Nat.le_of_succ_le_succ (deep cut)

/-- The evaluation meets nothing that the code reads in another way while its budget lasts. -/
def Even (zone : Zone) (ip : Address) (domain : Bytes) : Prop :=
  ∀ cost ∈ (fullRun zone ip domain).odd, maxTerms ≤ cost
  deriving Decidable

/-- The budget of the code is enough, and no redirection goes to a domain without a
record; or it is not, and the result is a permanent error all the same. -/
def Affordable (course : Course) : Prop :=
  if course.terms + course.hosts < maxTerms then course.verdict ≠ .unredirected
  else course.terms ≤ maxTerms → course.verdict.standard = .permError
  deriving Decidable

def standardSender (zone : Zone) (ip : Address) (mailFrom helo : Bytes) : Status :=
  if (checkedDomain mailFrom helo).isEmpty then .none
    else checkHost zone ip (checkedDomain mailFrom helo)

theorem verdict_agrees (verdict : Verdict) :
    verdict.herold = verdict.standard ↔ verdict ≠ .unredirected := by
  cases verdict with
  | result status => simp [Verdict.herold, Verdict.standard]
  | unredirected => simp [Verdict.herold, Verdict.standard]

theorem check_agrees_iff {zone : Zone} {ip : Address} {domain : Bytes} (sender : Bytes)
    (even : Even zone ip domain) :
    (check zone ip sender (defaultLookupLimit + 1) [] defaultLookupLimit domain).1 =
      checkHost zone ip domain ↔ Affordable (fullRun zone ip domain) := by
  have within : EvenWithin defaultLookupLimit
      ((standardRun zone ip (maxTerms + 1) domain).odd.map (· + 1)) := by
    intro cost inside
    obtain ⟨met, listed, rfl⟩ := List.mem_map.mp inside
    exact Nat.lt_succ_of_le (even met listed)
  have follows := check_follows zone ip sender (maxTerms + 1) domain [] defaultLookupLimit
    (defaultLookupLimit + 1) (Nat.lt_succ_self _) (fun _ member => absurd member List.not_mem_nil)
    within fun _ => Nat.le_succ _
  have depth : (fullRun zone ip domain).cut = true → maxTerms + 1 ≤ (fullRun zone ip domain).terms :=
    standard_run_depth (maxTerms + 1) domain
  change Follows (fullRun zone ip domain).verdict.herold
    (1 + (fullRun zone ip domain).terms + (fullRun zone ip domain).hosts)
    (fullRun zone ip domain).cut defaultLookupLimit _ at follows
  unfold Follows at follows
  unfold Affordable checkHost
  have budget : defaultLookupLimit = maxTerms := rfl
  by_cases cheap : (fullRun zone ip domain).terms + (fullRun zone ip domain).hosts < maxTerms
  · have uncut : (fullRun zone ip domain).cut = false := by
      by_contra cut
      have long := depth (by simpa using cut)
      omega
    rw [if_pos ⟨uncut, by omega⟩] at follows
    simp only [follows]
    rw [if_pos cheap, if_pos (by omega)]
    exact verdict_agrees _
  · rw [if_neg fun both => cheap (by have := both.2; omega)] at follows
    simp only [follows]
    rw [if_neg cheap]
    split
    · rename_i few
      constructor
      · intro equal _
        exact equal.symm
      · intro wrong
        exact (wrong few).symm
    · rename_i many
      constructor
      · intro _ few
        exact absurd few many
      · intro _
        rfl

/-- `Check` comes to the result of RFC 7208 exactly when its budget is enough for the
evaluation, or the result is a permanent error anyway. -/
theorem check_sender_standard_iff (zone : Zone) (ip : Address) (mailFrom helo : Bytes)
    (even : Even zone ip (checkedDomain mailFrom helo)) :
    checkSender zone ip mailFrom helo = standardSender zone ip mailFrom helo ↔
      checkedDomain mailFrom helo = [] ∨
      Affordable (fullRun zone ip (checkedDomain mailFrom helo)) := by
  unfold checkSender standardSender
  by_cases empty : checkedDomain mailFrom helo = []
  · simp [empty]
  · have named : (checkedDomain mailFrom helo).isEmpty = false := by simpa using empty
    simp only [named, empty, false_or]
    exact check_agrees_iff _ even

def oneRecord (name record : Bytes) : Zone where
  txt asked := if equalFold name asked then .found [record] else .absent
  mx _ := .absent
  addresses _ := .absent
  cidr _ := none
  caseless left right alike := by
    refine ⟨?_, rfl, rfl⟩
    have same : equalFold name left = equalFold name right := by
      unfold equalFold at alike ⊢
      rw [of_decide_eq_true alike]
    rw [same]

theorem check_sender_standard_one_host :
    Even (oneRecord (ascii "x.org") (ascii "v=spf1 a -all")) (.v4 1)
      (checkedDomain (ascii "u@x.org") []) ∧
      checkSender (oneRecord (ascii "x.org") (ascii "v=spf1 a -all")) (.v4 1) (ascii "u@x.org") [] =
        standardSender (oneRecord (ascii "x.org") (ascii "v=spf1 a -all")) (.v4 1)
          (ascii "u@x.org") [] := by
  have even : Even (oneRecord (ascii "x.org") (ascii "v=spf1 a -all")) (.v4 1)
      (checkedDomain (ascii "u@x.org") []) := by
    decide +kernel
  refine ⟨even, (check_sender_standard_iff _ _ _ _ even).mpr (Or.inr ?_)⟩
  decide +kernel

/-- Ten terms are within the limits, but the first record is paid for as well. -/
theorem ten_hosts_exhaust_the_budget :
    let zone := oneRecord (ascii "x.org") (ascii "v=spf1 a a a a a a a a a a -all")
    checkSender zone (.v4 1) (ascii "u@x.org") [] = .permError ∧
      standardSender zone (.v4 1) (ascii "u@x.org") [] = .fail := by
  decide +kernel

end Herold.Spf

import Herold.Spf.Verifier

/-!
# What an evaluation costs

The resolver's queries and the calls of `check` that an evaluation makes, in order. Every
query is paid for out of the one budget that all nested calls share, so a zone cannot make
the evaluation longer or deeper than the budget, whatever names it sends it to.
-/

namespace Herold.Spf

open Herold.Go

inductive Query where
  | txt (name : Bytes)
  | mx (name : Bytes)
  | addresses (name : Bytes)
  deriving DecidableEq

/-- A query, a call of `check` below so many includes and redirects, or a call that the
number of nested calls given to `check` does not allow. -/
inductive Event where
  | query (query : Query)
  | call (depth : Nat)
  | starved
  deriving DecidableEq

def Event.isQuery : Event → Bool
  | .query _ => true
  | _ => false

abbrev Trace := List Event

def Trace.queries (trace : Trace) : Nat := trace.countP Event.isQuery

def lookupTrace (query : Query) (limit : Nat) (then_ : Nat → Trace) : Trace :=
  match limit with
  | 0 => []
  | limit + 1 => .query query :: then_ limit

section Events

variable (zone : Zone) (ip : Address) (sender : Bytes)

def hostsTrace (mechanism : Mechanism) : List Bytes → Nat → Trace
  | [], _ => []
  | host :: hosts, limit =>
    lookupTrace (.addresses (trimSuffix host [46])) limit fun limit =>
      match zone.addresses (trimSuffix host [46]) with
      | .absent => hostsTrace mechanism hosts limit
      | .temporary => []
      | .failed => hostsTrace mechanism hosts limit
      | .found addresses =>
        if matchIPs ip addresses mechanism then [] else hostsTrace mechanism hosts limit

def mechanismTrace (events : Nat → Bytes → Trace) (limit : Nat) (domain : Bytes)
    (mechanism : Mechanism) : Trace :=
  match mechanism.name with
  | .all => []
  | .ip4 => []
  | .ip6 => []
  | .a =>
    lookupTrace (.addresses (expandDomain (orDomain mechanism.domain domain) domain sender)) limit
      fun _ => []
  | .mx =>
    lookupTrace (.mx (expandDomain (orDomain mechanism.domain domain) domain sender)) limit fun limit =>
      match zone.mx (expandDomain (orDomain mechanism.domain domain) domain sender) with
      | .found hosts => hostsTrace zone ip mechanism hosts limit
      | _ => []
  | .includes => events limit (expandDomain mechanism.domain domain sender)
  | .existing => lookupTrace (.addresses (expandDomain mechanism.domain domain sender)) limit fun _ => []
  | .ptr => []

def evalTrace (recurse : Nat → Bytes → Status × Nat) (events : Nat → Bytes → Trace) (domain : Bytes)
    (redirect : Option Bytes) : List Mechanism → Nat → Trace
  | [], limit =>
    match redirect with
    | none => []
    | some target => events limit (expandDomain target domain sender)
  | mechanism :: mechanisms, limit =>
    let result := matchMechanism zone ip sender recurse limit domain mechanism
    mechanismTrace zone ip sender events limit domain mechanism ++
      if result.ending.isSome then []
        else evalTrace recurse events domain redirect mechanisms result.left

def recordTrace (recurse : Nat → Bytes → Status × Nat) (events : Nat → Bytes → Trace) (domain : Bytes)
    (limit : Nat) : Trace :=
  match zone.txt domain with
  | .found texts =>
    match selectRecord zone.cidr texts with
    | .error _ => []
    | .ok record => evalTrace zone ip sender recurse events domain record.redirect record.mechanisms limit
  | _ => []

/-- The events of `check`, called with these names on its stack. -/
def checkTrace : Nat → List Bytes → Nat → Bytes → Trace
  | 0, _, _, _ => [.starved]
  | calls + 1, stack, limit, domain =>
    .call stack.length ::
      if stack.any fun name => equalFold name domain then []
      else lookupTrace (.txt domain) limit
        (recordTrace zone ip sender (check zone ip sender calls (domain :: stack))
          (checkTrace calls (domain :: stack)) domain)

end Events

def senderTrace (zone : Zone) (ip : Option Address) (mailFrom helo : Bytes)
    (limit calls : Nat) : Trace :=
  match ip with
  | none => []
  | some ip =>
    let sender := if (senderDomain mailFrom).isEmpty then ascii "postmaster@" ++ helo else mailFrom
    if (checkedDomain mailFrom helo).isEmpty then []
    else checkTrace zone ip sender calls [] limit (checkedDomain mailFrom helo)

/-- Every query is paid for, no call is deeper than what was left to pay with, and no call
lacks the allowance it needs. -/
structure Paid (depth limit left : Nat) (trace : Trace) : Prop where
  spent : trace.queries + left = limit
  shallow : ∀ level, .call level ∈ trace → level ≤ depth + limit
  fed : .starved ∉ trace

theorem paid_nothing (depth limit : Nat) : Paid depth limit limit [] where
  spent := by simp [Trace.queries]
  shallow := by simp
  fed := by simp

theorem paid_deeper {depth limit left : Nat} {trace : Trace} (paid : Paid depth limit left trace) :
    Paid (depth + 1) limit left trace where
  spent := paid.spent
  shallow := by
    intro level member
    have inside := paid.shallow level member
    omega
  fed := paid.fed

-- A nested call has one name more on its stack and the query for its record less to pay
-- with, so the sum of the two stays the bound on the depth.
theorem paid_query (query : Query) {depth limit left : Nat} {trace : Trace}
    (paid : Paid (depth + 1) limit left trace) :
      Paid depth (limit + 1) left (.query query :: trace) where
  spent := by
    have counted : Trace.queries (.query query :: trace) = trace.queries + 1 :=
      List.countP_cons_of_pos rfl
    rw [counted, Nat.add_right_comm, paid.spent]
  shallow := by
    intro level member
    have inside := paid.shallow level (by simpa using member)
    omega
  fed := by simpa using paid.fed

theorem paid_append {depth limit middle left : Nat} {first second : Trace}
    (before : Paid depth limit middle first) (after : Paid depth middle left second) :
    Paid depth limit left (first ++ second) where
  spent := by
    have start := before.spent
    have finish := after.spent
    simp only [Trace.queries, List.countP_append] at start finish ⊢
    omega
  shallow := by
    intro level member
    have start := before.spent
    rcases List.mem_append.mp member with early | late
    · exact before.shallow level early
    · have inside := after.shallow level late
      omega
  fed := by
    rw [List.mem_append, not_or]
    exact ⟨before.fed, after.fed⟩

theorem paid_left {depth limit left : Nat} {trace : Trace} (paid : Paid depth limit left trace) :
    left ≤ limit := by
  have spent := paid.spent
  omega

theorem paid_lookup (query : Query) {depth limit : Nat} {then_ : Nat → Match} {events : Nat → Trace}
    (paid : ∀ rest, Paid depth rest (then_ rest).left (events rest)) :
    Paid depth limit (consumeLookup limit then_).left (lookupTrace query limit events) := by
  cases limit with
  | zero => exact paid_nothing depth 0
  | succ rest => exact paid_query query (paid_deeper (paid rest))

section Evaluation

variable (zone : Zone) (ip : Address) (sender : Bytes)

theorem hosts_paid (mechanism : Mechanism) (depth : Nat) (hosts : List Bytes) (limit : Nat) :
    Paid depth limit (matchHosts zone ip mechanism hosts limit).left
      (hostsTrace zone ip mechanism hosts limit) := by
  induction hosts generalizing limit with
  | nil => exact paid_nothing depth limit
  | cons host hosts ih =>
    unfold matchHosts hostsTrace
    apply paid_lookup
    intro rest
    cases zone.addresses (trimSuffix host [46]) with
    | absent => exact ih rest
    | temporary => exact paid_nothing depth rest
    | failed => exact ih rest
    | found addresses =>
      dsimp only
      split
      · exact paid_nothing depth rest
      · exact ih rest

variable {recurse : Nat → Bytes → Status × Nat} {events : Nat → Bytes → Trace} {depth bound : Nat}
variable (nested : ∀ limit ≤ bound, ∀ name, Paid depth limit (recurse limit name).2 (events limit name))

include nested

theorem mechanism_paid (domain : Bytes) (mechanism : Mechanism) {limit : Nat} (inside : limit ≤ bound) :
    Paid depth limit (matchMechanism zone ip sender recurse limit domain mechanism).left
      (mechanismTrace zone ip sender events limit domain mechanism) := by
  unfold matchMechanism mechanismTrace
  cases mechanism.name with
  | all => exact paid_nothing depth limit
  | ip4 => exact paid_nothing depth limit
  | ip6 => exact paid_nothing depth limit
  | a =>
    apply paid_lookup
    intro rest
    split <;> exact paid_nothing depth rest
  | mx =>
    apply paid_lookup
    intro rest
    cases zone.mx (expandDomain (orDomain mechanism.domain domain) domain sender) with
    | absent => exact paid_nothing depth rest
    | temporary => exact paid_nothing depth rest
    | failed => exact paid_nothing depth rest
    | found hosts => exact hosts_paid zone ip mechanism depth hosts rest
  | includes => exact nested limit inside _
  | existing =>
    apply paid_lookup
    intro rest
    split <;> exact paid_nothing depth rest
  | ptr => exact paid_nothing depth limit

theorem eval_paid (domain : Bytes) (redirect : Option Bytes) (mechanisms : List Mechanism) {limit : Nat}
    (inside : limit ≤ bound) :
    Paid depth limit (eval zone ip sender recurse domain redirect mechanisms limit).2
      (evalTrace zone ip sender recurse events domain redirect mechanisms limit) := by
  induction mechanisms generalizing limit with
  | nil =>
    cases redirect with
    | none => exact paid_nothing depth limit
    | some target => exact nested limit inside _
  | cons mechanism mechanisms ih =>
    have first := mechanism_paid zone ip sender nested domain mechanism inside
    unfold eval evalTrace
    cases ending : (matchMechanism zone ip sender recurse limit domain mechanism).ending with
    | some status => simpa [ending] using first
    | none =>
      simp only [ending]
      exact paid_append first (ih (Nat.le_trans (paid_left first) inside))

theorem record_paid (domain : Bytes) {limit : Nat} (inside : limit ≤ bound) :
    Paid depth limit (checkRecord zone ip sender recurse domain limit).2
      (recordTrace zone ip sender recurse events domain limit) := by
  unfold checkRecord recordTrace
  cases zone.txt domain with
  | absent => exact paid_nothing depth limit
  | temporary => exact paid_nothing depth limit
  | failed => exact paid_nothing depth limit
  | found texts =>
    dsimp only
    cases selectRecord zone.cidr texts with
    | error status => exact paid_nothing depth limit
    | ok record => exact eval_paid zone ip sender nested domain _ _ inside

end Evaluation

theorem paid_call {depth limit left : Nat} {trace : Trace} (paid : Paid depth limit left trace) :
    Paid depth limit left (.call depth :: trace) where
  spent := by simpa [Trace.queries, Event.isQuery] using paid.spent
  shallow := by
    intro level member
    rcases List.mem_cons.mp member with here | later
    · cases here
      exact Nat.le_add_right _ _
    · exact paid.shallow level later
  fed := by simpa using paid.fed

theorem check_paid (zone : Zone) (ip : Address) (sender : Bytes) (calls : Nat) (stack : List Bytes)
    {limit : Nat} (allowed : limit < calls) (domain : Bytes) :
    Paid stack.length limit (check zone ip sender calls stack limit domain).2
      (checkTrace zone ip sender calls stack limit domain) := by
  induction calls generalizing stack limit domain with
  | zero => exact absurd allowed (Nat.not_lt_zero _)
  | succ calls ih =>
    unfold check checkTrace
    apply paid_call
    split
    · exact paid_nothing _ limit
    · cases limit with
      | zero => exact paid_nothing _ 0
      | succ rest =>
        have below : ∀ limit ≤ rest, ∀ name, Paid (domain :: stack).length limit
            (check zone ip sender calls (domain :: stack) limit name).2
            (checkTrace zone ip sender calls (domain :: stack) limit name) :=
          fun limit inside name => ih (domain :: stack) (by omega) name
        exact paid_query _ (record_paid zone ip sender below domain (Nat.le_refl rest))

section Allowance

variable (zone : Zone) (ip : Address) (sender : Bytes)
variable {recurse other : Nat → Bytes → Status × Nat} {events more : Nat → Bytes → Trace}
    {depth bound : Nat}
variable (nested : ∀ limit ≤ bound, ∀ name, Paid depth limit (recurse limit name).2 (events limit name))
variable (same : ∀ limit ≤ bound, ∀ name, other limit name = recurse limit name ∧
  more limit name = events limit name)

include same

theorem mechanism_same (domain : Bytes) (mechanism : Mechanism) {limit : Nat} (inside : limit ≤ bound) :
    matchMechanism zone ip sender other limit domain mechanism =
        matchMechanism zone ip sender recurse limit domain mechanism ∧
      mechanismTrace zone ip sender more limit domain mechanism =
        mechanismTrace zone ip sender events limit domain mechanism := by
  unfold matchMechanism mechanismTrace
  cases mechanism.name with
  | includes =>
    obtain ⟨result, trace⟩ := same limit inside (expandDomain mechanism.domain domain sender)
    simp only [result, trace, and_self]
  | _ => exact ⟨rfl, rfl⟩

include nested

theorem eval_same (domain : Bytes) (redirect : Option Bytes) (mechanisms : List Mechanism) {limit : Nat}
    (inside : limit ≤ bound) :
    eval zone ip sender other domain redirect mechanisms limit =
        eval zone ip sender recurse domain redirect mechanisms limit ∧
      evalTrace zone ip sender other more domain redirect mechanisms limit =
        evalTrace zone ip sender recurse events domain redirect mechanisms limit := by
  induction mechanisms generalizing limit with
  | nil =>
    cases redirect with
    | none => exact ⟨rfl, rfl⟩
    | some target => exact same limit inside _
  | cons mechanism mechanisms ih =>
    obtain ⟨result, trace⟩ := mechanism_same zone ip sender same domain mechanism inside
    have left := paid_left (mechanism_paid zone ip sender nested domain mechanism inside)
    obtain ⟨result', trace'⟩ := ih (Nat.le_trans left inside)
    simp only [eval, evalTrace, result, trace, result', trace', and_self]

theorem record_same (domain : Bytes) {limit : Nat} (inside : limit ≤ bound) :
    checkRecord zone ip sender other domain limit = checkRecord zone ip sender recurse domain limit ∧
      recordTrace zone ip sender other more domain limit =
        recordTrace zone ip sender recurse events domain limit := by
  unfold checkRecord recordTrace
  cases zone.txt domain with
  | found texts =>
    dsimp only
    cases selectRecord zone.cidr texts with
    | error status => exact ⟨rfl, rfl⟩
    | ok record => exact eval_same zone ip sender nested same domain _ _ inside
  | _ => exact ⟨rfl, rfl⟩

end Allowance

theorem check_same (zone : Zone) (ip : Address) (sender : Bytes) (calls extra : Nat)
    (stack : List Bytes)
    {limit : Nat} (allowed : limit < calls) (domain : Bytes) :
    check zone ip sender (calls + extra) stack limit domain =
        check zone ip sender calls stack limit domain ∧
      checkTrace zone ip sender (calls + extra) stack limit domain =
        checkTrace zone ip sender calls stack limit domain := by
  induction calls generalizing stack limit domain with
  | zero => exact absurd allowed (Nat.not_lt_zero _)
  | succ calls ih =>
    rw [Nat.add_right_comm]
    unfold check checkTrace
    split
    · exact ⟨rfl, rfl⟩
    · cases limit with
      | zero => exact ⟨rfl, rfl⟩
      | succ rest =>
        obtain ⟨result, trace⟩ := record_same zone ip sender
          (fun limit inside name => check_paid zone ip sender calls (domain :: stack) (by omega) name)
          (fun limit inside name => ih (domain :: stack) (by omega) name) domain (Nat.le_refl rest)
        simp only [lookupTrace, result, trace, and_self]

/-- Whatever the zone, `Check` comes to its end with as many nested calls as the budget holds
lookups: more of them change nothing. It asks the resolver no more often than the budget
allows, and no include or redirect is nested deeper. -/
theorem evaluation_bounded (zone : Zone) (ip : Option Address) (mailFrom helo : Bytes)
    (limit extra : Nat) :
    let trace := senderTrace zone ip mailFrom helo limit (limit + 1 + extra)
    trace = senderTrace zone ip mailFrom helo limit (limit + 1) ∧ .starved ∉ trace ∧
      trace.queries ≤ limit ∧ ∀ depth, .call depth ∈ trace → depth ≤ limit := by
  intro trace
  have same : trace = senderTrace zone ip mailFrom helo limit (limit + 1) := by
    dsimp only [trace, senderTrace]
    cases ip with
    | none => rfl
    | some ip =>
      dsimp only
      split
      · rfl
      · exact (check_same zone ip _ (limit + 1) extra [] (Nat.lt_succ_self limit) _).2
  refine ⟨same, ?_⟩
  have paid : ∃ left, Paid 0 limit left trace := by
    rw [same]
    unfold senderTrace
    cases ip with
    | none => exact ⟨limit, paid_nothing 0 limit⟩
    | some ip =>
      dsimp only
      split
      · exact ⟨limit, paid_nothing 0 limit⟩
      · exact ⟨_, check_paid zone ip _ (limit + 1) [] (Nat.lt_succ_self limit) _⟩
  obtain ⟨left, paid⟩ := paid
  refine ⟨paid.fed, ?_, ?_⟩
  · have spent := paid.spent
    omega
  · intro depth member
    simpa using paid.shallow depth member

end Herold.Spf

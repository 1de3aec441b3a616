import Herold.Go.Json

/-!
# References to created objects

Before a handler runs, the dispatcher replaces result references among the arguments and
then, anywhere in the arguments, strings and member names that refer to an object created
earlier in the request. The walk does not know which strings are identifiers.
-/

namespace Herold.CreationRefs

open Herold.Go Herold.Go.Json

abbrev Members := List (Bytes × Value)

def lookup (name : Bytes) (members : Members) : Option Value :=
  (members.find? fun member => member.1 = name).map Prod.snd

def erase (name : Bytes) (members : Members) : Members := members.filter fun member => member.1 ≠ name

def assign (name : Bytes) (value : Value) : Members → Members
  | [] => [(name, value)]
  | member :: members =>
    if member.1 = name then (name, value) :: members else member :: assign name value members

def member (name : Bytes) : Value → Option Value
  | .object members => lookup name members
  | _ => none

/-- A method response, `Invocation`. -/
structure Invocation where
  name : Bytes
  args : Value
  callID : Bytes

/-- A string field of a decoded struct: empty where the member is absent or null. -/
def stringField (name : Bytes) (members : Members) : Option Bytes :=
  match lookup name members with
  | none => some []
  | some .null => some []
  | some (.string text) => some text
  | some _ => none

def readReference : Value → Option (Bytes × Bytes × Bytes)
  | .null => some ([], [], [])
  | .object members => do
      let resultOf ← stringField (ascii "resultOf") members
      let name ← stringField (ascii "name") members
      let path ← stringField (ascii "path") members
      return (resultOf, name, path)
  | _ => none

def findResponse (prior : List Invocation) (resultOf name : Bytes) : Option Invocation :=
  match prior.find? fun response => response.callID = resultOf with
  | none => none
  | some response => if response.name = name then some response else none

section BackReferences

-- what a JSON pointer finds in a document
variable (evalJSONPointer : Value → Bytes → Option Value) (prior : List Invocation)

/-- One turn of the loop of `resolveBackReferences`, for a name that begins with `#`. -/
def resolveReference (name : Bytes) (value : Value) (members : Members) : Option Members := do
  let (resultOf, method, path) ← readReference value
  if resultOf = [] || method = [] then none
  else do
    let response ← findResponse prior resultOf method
    let found ← evalJSONPointer response.args path
    return assign (name.drop 1) found (erase name members)

/-- `resolveBackReferences`; no result stands for `invalidResultReference`. -/
def resolveBackReferences : Value → Option Value
  | .object members => do
      let resolved ← members.foldlM (fun current entry =>
        if entry.1.head? = some 35 then resolveReference evalJSONPointer prior entry.1 entry.2 current
        else some current) members
      return .object resolved
  | value => some value

end BackReferences

def createdIn (response : Invocation) : List (Bytes × Bytes) :=
  match member (ascii "created") response.args with
  | some (.object records) => records.filterMap fun record =>
    match member (ascii "id") record.2 with
    | some (.string id) => if id = [] then none else some (record.1, id)
    | _ => none
  | _ => []

/-- `gatherCreations`: later entries replace earlier ones. -/
def gatherCreations (prior : List Invocation) (requestCreatedIDs : List (Bytes × Bytes))
    (creationID : Bytes) :
    Option Bytes :=
  let entries := requestCreatedIDs ++
    (prior.filter fun response => response.name ≠ ascii "error").flatMap createdIn
  (entries.reverse.find? fun entry => entry.1 = creationID).map Prod.snd

def isCreationIDChar (byte : UInt8) : Bool :=
  (65 ≤ byte && byte ≤ 90) || (97 ≤ byte && byte ≤ 122) || (48 ≤ byte && byte ≤ 57) || byte =
    45 || byte = 95

def looksLikeCreationRef (text : Bytes) : Bool :=
  2 ≤ text.length && text.length ≤ 256 && text.head? = some 35 && (text.drop 1).all isCreationIDChar

abbrev Creations := Bytes → Option Bytes

section Substitution

variable (creations : Creations)

def referred (text : Bytes) : Option Bytes :=
  if looksLikeCreationRef text then creations (text.drop 1) else none

/-- The second pass over a map, which moves the entries whose names are references. -/
def renameKeys (members : Members) : Members × Bool :=
  (members.map Prod.fst).foldl (fun state name =>
    match referred creations name with
    | none => state
    | some real =>
      match lookup name state.1 with
      | none => state
      | some child => (erase name (assign real child state.1), true)) (members, false)

mutual

def substituteCreationRefs : Value → Value × Bool
  | .object members =>
    let values := substituteMembers members
    let renamed := renameKeys creations values.1
    (.object renamed.1, values.2 || renamed.2)
  | .array items =>
    let values := substituteItems items
    (.array values.1, values.2)
  | .string text =>
    match referred creations text with
    | some real => (.string real, true)
    | none => (.string text, false)
  | .null => (.null, false)
  | .bool value => (.bool value, false)
  | .number literal => (.number literal, false)

def substituteItems : List Value → List Value × Bool
  | [] => ([], false)
  | item :: items =>
    let first := substituteCreationRefs item
    let later := substituteItems items
    (first.1 :: later.1, first.2 || later.2)

def substituteMembers : List (Bytes × Value) → List (Bytes × Value) × Bool
  | [] => ([], false)
  | (name, value) :: members =>
    let first := substituteCreationRefs value
    let later := substituteMembers members
    ((name, first.1) :: later.1, first.2 || later.2)

end

/-- `resolveCreationReferences`: arguments without a reference stay as they were sent. -/
def resolveCreationReferences (args : Value) : Value :=
  let substituted := substituteCreationRefs creations args
  if substituted.2 then substituted.1 else args

theorem substitute_items (items : List Value) :
    substituteItems creations items =
      (items.map fun item => (substituteCreationRefs creations item).1,
        items.any fun item => (substituteCreationRefs creations item).2) := by
  induction items with
  | nil => rw [substituteItems]; rfl
  | cons item items ih => rw [substituteItems, ih]; rfl

theorem substitute_members (members : Members) :
    substituteMembers creations members =
      (members.map fun entry => (entry.1, (substituteCreationRefs creations entry.2).1),
        members.any fun entry => (substituteCreationRefs creations entry.2).2) := by
  induction members with
  | nil => rw [substituteMembers]; rfl
  | cons entry members ih => rw [substituteMembers, ih]; rfl

def renameKey (state : Members × Bool) (name : Bytes) : Members × Bool :=
  match referred creations name with
  | none => state
  | some real =>
    match lookup name state.1 with
    | none => state
    | some child => (erase name (assign real child state.1), true)

theorem rename_keys_eq (members : Members) :
    renameKeys creations members =
      (members.map Prod.fst).foldl (renameKey creations) (members, false) := rfl

theorem rename_key_cases (state : Members × Bool) (name : Bytes) :
    renameKey creations state name = state ∨
      ∃ real child, referred creations name = some real ∧ lookup name state.1 = some child ∧
        renameKey creations state name = (erase name (assign real child state.1), true) := by
  unfold renameKey
  cases known : referred creations name with
  | none => exact Or.inl rfl
  | some real =>
    cases found : lookup name state.1 with
    | none => exact Or.inl rfl
    | some child => exact Or.inr ⟨real, child, rfl, rfl, rfl⟩

theorem rename_moved (names : List Bytes) (state : Members × Bool) (moved : state.2 = true) :
    (names.foldl (renameKey creations) state).2 = true := by
  induction names generalizing state with
  | nil => exact moved
  | cons name names ih =>
    refine ih _ ?_
    rcases rename_key_cases creations state name with same | ⟨real, child, _, _, next⟩
    · rw [same]
      exact moved
    · rw [next]

theorem rename_unmoved (names : List Bytes) (state : Members × Bool)
    (unmoved : (names.foldl (renameKey creations) state).2 = false) :
    (names.foldl (renameKey creations) state).1 = state.1 := by
  induction names generalizing state with
  | nil => rfl
  | cons name names ih =>
    rw [List.foldl_cons] at unmoved ⊢
    rcases rename_key_cases creations state name with same | ⟨real, child, _, _, next⟩
    · rw [same] at unmoved ⊢
      exact ih state unmoved
    · have moved := rename_moved creations names (renameKey creations state name) (by rw [next])
      rw [moved] at unmoved
      cases unmoved

theorem substitute_unmutated (value : Value) :
    (substituteCreationRefs creations value).2 = false →
    (substituteCreationRefs creations value).1 = value := by
  induction value using Value.induct with
  | null => exact fun _ => rfl
  | bool value => exact fun _ => rfl
  | number literal => exact fun _ => rfl
  | string text =>
    intro unmutated
    rw [substituteCreationRefs] at unmutated ⊢
    cases known : referred creations text with
    | none => rfl
    | some real => simp [known] at unmutated
  | array items ih =>
    intro unmutated
    rw [substituteCreationRefs, substitute_items] at unmutated ⊢
    have each : ∀ item ∈ items, (substituteCreationRefs creations item).1 = item := by
      intro item member
      exact ih item member (by simpa using (List.any_eq_false.mp unmutated) item member)
    exact congrArg Value.array ((List.map_congr_left each).trans (List.map_id' items))
  | object members ih =>
    intro unmutated
    rw [substituteCreationRefs, substitute_members] at unmutated ⊢
    obtain ⟨values, names⟩ := Bool.or_eq_false_iff.mp unmutated
    have each : ∀ entry ∈ members, (entry.1, (substituteCreationRefs creations entry.2).1) = entry := by
      intro entry among
      rw [ih entry among (by simpa using (List.any_eq_false.mp values) entry among)]
    have same : (members.map fun entry => (entry.1, (substituteCreationRefs creations entry.2).1)) =
      members :=
      (List.map_congr_left each).trans (List.map_id' members)
    dsimp only at names ⊢
    rw [same] at names ⊢
    exact congrArg Value.object (rename_unmoved creations _ (members, false) names)

theorem resolve_creation_references_eq (args : Value) :
    resolveCreationReferences creations args = (substituteCreationRefs creations args).1 := by
  unfold resolveCreationReferences
  dsimp only
  cases mutated : (substituteCreationRefs creations args).2 with
  | true => rfl
  | false => exact (substitute_unmutated creations args mutated).symm

def renamed (name : Bytes) : Bytes := (referred creations name).getD name

/-- The identifiers of earlier creations do not look like references themselves. -/
def PlainIds : Prop := ∀ creationID real, creations creationID = some real → real.head? ≠ some 35

variable {creations}

theorem referred_begins {text real : Bytes} (known : referred creations text = some real) :
    text.head? = some 35 ∧ creations (text.drop 1) = some real := by
  unfold referred at known
  split_ifs at known with looks
  simp only [looksLikeCreationRef, Bool.and_eq_true, decide_eq_true_eq] at looks
  exact ⟨looks.1.2, known⟩

theorem not_referred {text : Bytes} (plain : text.head? ≠ some 35) :
    referred creations text = none := by
  cases known : referred creations text with
  | none => rfl
  | some real => exact absurd (referred_begins known).1 plain

theorem PlainIds.real (plainIds : PlainIds creations) {text real : Bytes}
    (known : referred creations text = some real) : referred creations real = none ∧ real ≠ text := by
  obtain ⟨begins, created⟩ := referred_begins known
  have plain := plainIds _ _ created
  exact ⟨not_referred plain, fun same => plain (by rw [same]; exact begins)⟩

theorem lookup_erase {name other : Bytes} (members : Members) (differ : other ≠ name) :
    lookup other (erase name members) = lookup other members := by
  unfold lookup erase
  induction members with
  | nil => rfl
  | cons entry members ih =>
    by_cases isName : entry.1 = name
    · have skipped : entry.1 ≠ other := fun same => differ (same.symm.trans isName)
      simp only [List.filter_cons, isName, ne_eq, not_true_eq_false, decide_false,
        Bool.false_eq_true, if_false]
      rw [List.find?_cons_of_neg (by simpa using skipped)]
      exact ih
    · simp only [List.filter_cons, isName, ne_eq, not_false_eq_true, decide_true, if_true]
      by_cases isOther : entry.1 = other
      · rw [List.find?_cons_of_pos (by simpa using isOther),
          List.find?_cons_of_pos (by simpa using isOther)]
      · rw [List.find?_cons_of_neg (by simpa using isOther),
          List.find?_cons_of_neg (by simpa using isOther)]
        exact ih

theorem lookup_assign (name other : Bytes) (value : Value) (members : Members) :
    lookup other (assign name value members) = if other = name then some value
      else lookup other members := by
  unfold lookup
  induction members with
  | nil =>
    by_cases same : other = name
    · simp [assign, same]
    · simp [assign, same, Ne.symm same]
  | cons entry members ih =>
    unfold assign
    by_cases isName : entry.1 = name
    · rw [if_pos isName]
      by_cases same : other = name
      · simp [same]
      · have skipped : name ≠ other := Ne.symm same
        have skipsEntry : entry.1 ≠ other := fun equal => same (equal.symm.trans isName)
        rw [List.find?_cons_of_neg (by simpa using skipped),
          List.find?_cons_of_neg (by simpa using skipsEntry),
          if_neg same]
    · rw [if_neg isName]
      by_cases isOther : entry.1 = other
      · have differ : other ≠ name := fun equal => isName (isOther.trans equal)
        rw [List.find?_cons_of_pos (by simpa using isOther),
          List.find?_cons_of_pos (by simpa using isOther),
          if_neg differ]
      · rw [List.find?_cons_of_neg (by simpa using isOther),
          List.find?_cons_of_neg (by simpa using isOther)]
        exact ih

theorem rename_plain (members : Members)
    (plain : ∀ entry ∈ members, referred creations entry.1 = none) :
    renameKeys creations members = (members, false) := by
  have none : ∀ names : List Bytes, (∀ name ∈ names, referred creations name = none) → ∀ state,
      names.foldl (renameKey creations) state = state := by
    intro names each state
    induction names with
    | nil => rfl
    | cons name names ih =>
      have same : renameKey creations state name = state := by
        simp only [renameKey, each name (List.mem_cons_self ..)]
      rw [List.foldl_cons, same]
      exact ih fun other member => each other (List.mem_cons_of_mem _ member)
  rw [rename_keys_eq]
  refine none _ (fun name member => ?_) _
  obtain ⟨entry, among, rfl⟩ := List.mem_map.mp member
  exact plain entry among

/-- The state of the second pass: references that were not passed are in place, and what
stands under the new name of a passed one came from a name that becomes it. -/
structure Passed (creations : Creations) (members : Members) (todo : List Bytes)
    (state : Members) : Prop where
  waiting : ∀ name ∈ todo, referred creations name ≠ none → lookup name state = lookup name members
  moved : ∀ name ∈ members.map Prod.fst, (name ∉ todo ∨ referred creations name = none) →
    ∃ source ∈ members.map Prod.fst, renamed creations source = renamed creations name ∧
      lookup (renamed creations name) state = lookup source members

theorem renamed_plain (plainIds : PlainIds creations) (name : Bytes) :
    referred creations (renamed creations name) = none := by
  unfold renamed
  cases known : referred creations name with
  | none => exact known
  | some real => exact (plainIds.real known).1

theorem lookup_listed {members : Members} {name : Bytes} (listed : name ∈ members.map Prod.fst) :
    ∃ value, lookup name members = some value := by
  obtain ⟨entry, among, rfl⟩ := List.mem_map.mp listed
  unfold lookup
  cases found : members.find? fun other => decide (other.1 = entry.1) with
  | none => exact absurd (List.find?_eq_none.mp found entry among) (by simp)
  | some other => exact ⟨other.2, rfl⟩

theorem passed_next (plainIds : PlainIds creations) {members : Members} {name : Bytes}
    {todo : List Bytes}
    {state : Members × Bool} (distinct : (name :: todo).Nodup) (listed : name ∈ members.map Prod.fst)
    (passed : Passed creations members (name :: todo) state.1) :
    Passed creations members todo (renameKey creations state name).1 := by
  obtain ⟨absent, _⟩ := List.nodup_cons.mp distinct
  cases known : referred creations name with
  | none =>
    have same : renameKey creations state name = state := by simp only [renameKey, known]
    rw [same]
    refine ⟨fun other member => passed.waiting other (List.mem_cons_of_mem _ member), ?_⟩
    intro other among settled
    by_cases isName : other = name
    · exact passed.moved other among (Or.inr (by rw [isName]; exact known))
    · refine passed.moved other among (settled.imp_left fun notLater member => ?_)
      exact notLater ((List.mem_cons.mp member).resolve_left isName)
  | some real =>
    obtain ⟨child, isChild⟩ := lookup_listed listed
    have here := passed.waiting name (List.mem_cons_self ..) (by rw [known]; simp)
    have next : renameKey creations state name = (erase name (assign real child state.1), true) := by
      simp only [renameKey, known, here, isChild]
    rw [next]
    refine ⟨?_, ?_⟩
    · intro other member isRef
      have differs : other ≠ name := fun same => absent (by rw [← same]; exact member)
      have notReal : other ≠ real := by
        intro same
        rw [same, (plainIds.real known).1] at isRef
        exact isRef rfl
      rw [lookup_erase _ differs, lookup_assign, if_neg notReal]
      exact passed.waiting other (List.mem_cons_of_mem _ member) isRef
    · intro other among settled
      have differs : renamed creations other ≠ name := by
        intro same
        have plain := renamed_plain plainIds other
        rw [same, known] at plain
        cases plain
      rw [lookup_erase _ differs, lookup_assign]
      have becomes : renamed creations name = real := by simp only [renamed, known, Option.getD_some]
      by_cases isReal : renamed creations other = real
      · rw [if_pos isReal]
        exact ⟨name, listed, becomes.trans isReal.symm, isChild.symm⟩
      · rw [if_neg isReal]
        have isOther : other ≠ name := fun same => isReal (by rw [same]; exact becomes)
        refine passed.moved other among (settled.imp_left fun notLater member => ?_)
        exact notLater ((List.mem_cons.mp member).resolve_left isOther)

theorem passed_all (plainIds : PlainIds creations) {members : Members} (todo : List Bytes)
    (state : Members × Bool) (distinct : todo.Nodup)
    (listed : ∀ name ∈ todo, name ∈ members.map Prod.fst)
    (passed : Passed creations members todo state.1) :
    Passed creations members [] (todo.foldl (renameKey creations) state).1 := by
  induction todo generalizing state with
  | nil => exact passed
  | cons name todo ih =>
    refine ih _ (List.nodup_cons.mp distinct).2
      (fun other member => listed other (List.mem_cons_of_mem _ member)) ?_
    exact passed_next plainIds distinct (listed name (List.mem_cons_self ..)) passed

theorem lookup_renamed (plainIds : PlainIds creations) (members : Members)
    (distinct : (members.map Prod.fst).Nodup) {name : Bytes} (listed : name ∈ members.map Prod.fst) :
    ∃ source ∈ members.map Prod.fst, renamed creations source = renamed creations name ∧
      lookup (renamed creations name) (renameKeys creations members).1 = lookup source members := by
  have start : Passed creations members (members.map Prod.fst) members := by
    refine ⟨fun _ _ _ => rfl, ?_⟩
    intro other among settled
    refine ⟨other, among, rfl, ?_⟩
    have plain := settled.resolve_left fun absent => absent among
    simp only [renamed, plain, Option.getD_none]
  rw [rename_keys_eq]
  exact (passed_all plainIds _ (members, false) distinct (fun _ member => member) start).moved name
    listed
    (Or.inl List.not_mem_nil)

end Substitution

end Herold.CreationRefs

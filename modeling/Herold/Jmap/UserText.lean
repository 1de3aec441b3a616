import Herold.Jmap.CreationRefs

/-!
# The texts of a message to be created

What the handler of `Email/set` is given of the texts a client sent: the subject, the
header properties and the body values. A text is replaced exactly when it reads like a
reference to an object created earlier in the request.
-/

namespace Herold.CreationRefs

open Herold.Go Herold.Go.Json

/-- An entry of `bodyValues`: its text, and the flags beside it. -/
structure BodyValue where
  value : Bytes
  flags : Members := []
  plain : ∀ flag ∈ flags, flag.1.head? ≠ some 35 := by simp

/-- A member of a create object by what it holds. The subject and the date are texts, the
message identifiers lists of texts, the address headers lists of objects with a name, which
may be null, and an address; identifiers such as those of mailboxes are in other members. -/
inductive Property where
  | text (value : Bytes)
  | texts (values : List Bytes)
  | addresses (values : List (List (Bytes × Option Bytes)))
  | bodyValues (parts : List (Bytes × BodyValue))
  | other (value : Value)

def BodyValue.encode (body : BodyValue) : Value := .object
    ((ascii "value", .string body.value) :: body.flags)

def encodeText : Option Bytes → Value
  | none => .null
  | some text => .string text

def encodeAddress (address : List (Bytes × Option Bytes)) : Value :=
  .object (address.map fun field => (field.1, encodeText field.2))

def Property.encode : Property → Value
  | .text value => .string value
  | .texts values => .array (values.map .string)
  | .addresses values => .array (values.map encodeAddress)
  | .bodyValues parts => .object (parts.map fun part => (part.1, part.2.encode))
  | .other value => value

/-- Names of objects are property names, and no part is given twice. -/
def Property.WellFormed : Property → Prop
  | .addresses values => ∀ address ∈ values, ∀ field ∈ address, field.1.head? ≠ some 35
  | .bodyValues parts => (parts.map Prod.fst).Nodup
  | _ => True

/-- The texts the client sent are the texts the handler gets. The identifier of a part is
replaced where the body structure names it as well, so its text is found under the new one. -/
def Delivered (creations : Creations) : Property → Value → Prop
  | .text value, received => received = .string value
  | .texts values, received => received = .array (values.map .string)
  | .addresses values, received => received = .array (values.map encodeAddress)
  | .bodyValues parts, received => ∀ part ∈ parts,
      (member (renamed creations part.1) received).bind
        (member (ascii "value")) = some (.string part.2.value)
  | .other _, _ => True

/-- No text is a reference to an earlier creation, and parts whose identifiers become the
same have the same text. -/
def Property.Plain (creations : Creations) : Property → Prop
  | .text value => referred creations value = none
  | .texts values => ∀ value ∈ values, referred creations value = none
  | .addresses values => ∀ address ∈ values, ∀ field ∈ address, ∀ text ∈ field.2,
    referred creations text = none
  | .bodyValues parts => (∀ part ∈ parts, referred creations part.2.value = none) ∧
      ∀ left ∈ parts, ∀ right ∈ parts, renamed creations left.1 = renamed creations right.1 →
        left.2.value = right.2.value
  | .other _ => True

section Property

variable {creations : Creations}

abbrev walked (creations : Creations)
    (value : Value) : Value := (substituteCreationRefs creations value).1

theorem walked_string (plainIds : PlainIds creations) (text : Bytes) :
    walked creations (.string text) = .string text ↔ referred creations text = none := by
  unfold walked
  rw [substituteCreationRefs]
  cases known : referred creations text with
  | none => simp
  | some real =>
    have differs := (plainIds.real known).2
    simp [differs]

theorem walked_array (items : List Value) :
    walked creations (.array items) = .array (items.map (walked creations)) := by
  unfold walked
  rw [substituteCreationRefs, substitute_items]

theorem walked_object (members : Members) :
    walked creations (.object members) =
      .object (renameKeys creations
        (members.map fun entry => (entry.1, walked creations entry.2))).1 := by
  unfold walked
  rw [substituteCreationRefs, substitute_members]

theorem walked_plain_object (members : Members) (plain : ∀ entry ∈ members, entry.1.head? ≠ some 35) :
    walked creations (.object members) =
      .object (members.map fun entry => (entry.1, walked creations entry.2)) := by
  rw [walked_object, rename_plain]
  intro entry listed
  obtain ⟨source, among, rfl⟩ := List.mem_map.mp listed
  exact not_referred (plain source among)

theorem map_eq_self_iff {Item : Type} (change : Item → Item) (items : List Item) :
    items.map change = items ↔ ∀ item ∈ items, change item = item := by
  induction items with
  | nil => simp
  | cons item items ih => simp [ih]

theorem walked_texts (plainIds : PlainIds creations) (values : List Bytes) :
    walked creations (.array (values.map .string)) = .array (values.map .string) ↔
      ∀ value ∈ values, referred creations value = none := by
  rw [walked_array, Value.array.injEq, map_eq_self_iff]
  simp only [List.forall_mem_map, walked_string plainIds]

theorem walked_text (plainIds : PlainIds creations) (held : Option Bytes) :
    walked creations (encodeText held) = encodeText held ↔
    ∀ text ∈ held, referred creations text = none := by
  cases held with
  | none => simp [encodeText, walked, substituteCreationRefs]
  | some text => simpa [encodeText] using walked_string plainIds text

theorem walked_address (plainIds : PlainIds creations) (address : List (Bytes × Option Bytes))
    (plain : ∀ field ∈ address, field.1.head? ≠ some 35) :
    walked creations (encodeAddress address) = encodeAddress address ↔
      ∀ field ∈ address, ∀ text ∈ field.2, referred creations text = none := by
  unfold encodeAddress
  have names : ∀ entry ∈ address.map fun field => (field.1, encodeText field.2),
    entry.1.head? ≠ some 35 := by
    rw [List.forall_mem_map]
    exact plain
  rw [walked_plain_object _ names, Value.object.injEq, map_eq_self_iff]
  simp only [List.forall_mem_map, Prod.mk.injEq, true_and, walked_text plainIds]

theorem walked_addresses (plainIds : PlainIds creations) (values : List (List (Bytes × Option Bytes)))
    (plain : ∀ address ∈ values, ∀ field ∈ address, field.1.head? ≠ some 35) :
    walked creations (.array (values.map encodeAddress)) = .array (values.map encodeAddress) ↔
      ∀ address ∈ values, ∀ field ∈ address, ∀ text ∈ field.2, referred creations text = none := by
  rw [walked_array, Value.array.injEq, map_eq_self_iff]
  simp only [List.forall_mem_map]
  exact forall₂_congr fun address among => walked_address plainIds address (plain address among)

theorem walked_body_value (body : BodyValue) :
    member (ascii "value") (walked creations body.encode) =
      some (walked creations (.string body.value)) := by
  unfold BodyValue.encode
  rw [walked_plain_object]
  · simp [member, lookup]
  · intro entry listed
    rcases List.mem_cons.mp listed with rfl | flag
    · exact show (ascii "value").head? ≠ some 35 by decide
    · exact body.plain entry flag

theorem lookup_of_mem {Content : Type} {parts : List (Bytes × Content)} (write : Content → Value)
    (distinct : (parts.map Prod.fst).Nodup) {part : Bytes × Content} (among : part ∈ parts) :
    lookup part.1 (parts.map fun other => (other.1, write other.2)) = some (write part.2) := by
  unfold lookup
  induction parts with
  | nil => cases among
  | cons first parts ih =>
    obtain ⟨absent, later⟩ := List.nodup_cons.mp distinct
    rcases List.mem_cons.mp among with rfl | behind
    · simp
    · have differs : first.1 ≠ part.1 := by
        intro same
        exact absent (by rw [same]; exact List.mem_map_of_mem behind)
      rw [List.map_cons, List.find?_cons_of_neg (by simpa using differs)]
      exact ih later behind

theorem walked_parts (plainIds : PlainIds creations) (parts : List (Bytes × BodyValue))
    (distinct : (parts.map Prod.fst).Nodup) {part : Bytes × BodyValue} (among : part ∈ parts) :
    ∃ source ∈ parts, renamed creations source.1 = renamed creations part.1 ∧
      (member (renamed creations part.1) (walked creations (Property.bodyValues parts).encode)).bind
        (member (ascii "value")) = some (walked creations (.string source.2.value)) := by
  unfold Property.encode
  rw [walked_object, List.map_map]
  have names : ((parts.map fun part => (part.1, walked creations part.2.encode)).map Prod.fst) =
      parts.map Prod.fst := by
    rw [List.map_map]
    rfl
  obtain ⟨name, listed, same, found⟩ := lookup_renamed plainIds
    (parts.map fun part => (part.1, walked creations part.2.encode)) (by rw [names]; exact distinct)
    (by rw [names]; exact List.mem_map_of_mem among)
  rw [names] at listed
  obtain ⟨source, isSource, rfl⟩ := List.mem_map.mp listed
  refine ⟨source, isSource, same, ?_⟩
  have child := lookup_of_mem (fun body : BodyValue => walked creations body.encode) distinct isSource
  change (lookup (renamed creations part.1) (renameKeys creations
    (parts.map fun part => (part.1, walked creations part.2.encode))).1).bind _ = _
  rw [found, child]
  exact walked_body_value source.2

theorem delivered_iff (plainIds : PlainIds creations) (property : Property)
    (wellFormed : property.WellFormed) :
    Delivered creations property (walked creations property.encode) ↔ property.Plain creations := by
  cases property with
  | text value => exact walked_string plainIds value
  | texts values => exact walked_texts plainIds values
  | addresses values => exact walked_addresses plainIds values wellFormed
  | other value => exact Iff.rfl
  | bodyValues parts =>
    constructor
    · intro delivered
      have agree : ∀ left ∈ parts, ∀ right ∈ parts,
        renamed creations left.1 = renamed creations right.1 →
          left.2.value = right.2.value := by
        intro left isLeft right isRight same
        have here := delivered left isLeft
        rw [same, delivered right isRight] at here
        injection Option.some.inj here with equal
        exact equal.symm
      refine ⟨fun part among => ?_, agree⟩
      obtain ⟨source, isSource, same, found⟩ := walked_parts plainIds parts wellFormed among
      rw [delivered part among, ← agree source isSource part among same] at found
      have kept := (walked_string plainIds source.2.value).mp (Option.some.inj found).symm
      rwa [agree source isSource part among same] at kept
    · rintro ⟨plain, agree⟩ part among
      obtain ⟨source, isSource, same, found⟩ := walked_parts plainIds parts wellFormed among
      rw [found, (walked_string plainIds source.2.value).mpr (plain source isSource),
        agree source isSource part among same]

end Property

structure CreateObject where
  members : List (Bytes × Property)
  plain : ∀ entry ∈ members, entry.1.head? ≠ some 35
  distinct : (members.map Prod.fst).Nodup
  wellFormed : ∀ entry ∈ members, entry.2.WellFormed

def CreateObject.encode (object : CreateObject) : Value :=
  .object (object.members.map fun entry => (entry.1, entry.2.encode))

/-- The arguments of `Email/set`: the objects to create under the client's creation
identifiers, and other arguments, given outright or by result reference. -/
structure SetCall where
  create : List (Bytes × CreateObject)
  others : Members
  plain : ∀ entry ∈ create, entry.1.head? ≠ some 35
  distinct : (create.map Prod.fst).Nodup
  apart : ∀ entry ∈ others, entry.1 ≠ ascii "create" ∧ entry.1.drop 1 ≠ ascii "create" ∧
    (entry.1.drop 1).head? ≠ some 35

def SetCall.createMember (call : SetCall) : Value :=
  .object (call.create.map fun entry => (entry.1, entry.2.encode))

def SetCall.encode (call : SetCall) : Value := .object
    ((ascii "create", call.createMember) :: call.others)

def received (args : Value) (creationID name : Bytes) : Option Value :=
  ((member (ascii "create") args).bind (member creationID)).bind (member name)

def KeepsTexts (creations : Creations) (call : SetCall) (args : Value) : Prop :=
  ∀ entry ∈ call.create, ∀ property ∈ entry.2.members,
    ∃ value, received args entry.1 property.1 = some value ∧ Delivered creations property.2 value

section Call

variable {creations : Creations}

theorem mem_assign {name : Bytes} {value : Value} {members : Members} {entry : Bytes × Value}
    (listed : entry ∈ assign name value members) : entry.1 = name ∨ entry ∈ members := by
  induction members with
  | nil =>
    rw [assign, List.mem_singleton] at listed
    exact Or.inl (by rw [listed])
  | cons first members ih =>
    unfold assign at listed
    split_ifs at listed with isName
    · rcases List.mem_cons.mp listed with rfl | later
      · exact Or.inl rfl
      · exact Or.inr (List.mem_cons_of_mem _ later)
    · rcases List.mem_cons.mp listed with rfl | later
      · exact Or.inr (List.mem_cons_self ..)
      · exact (ih later).imp_right (List.mem_cons_of_mem _)

section

variable {evalJSONPointer : Value → Bytes → Option Value} {prior : List Invocation}

theorem resolve_reference_spec {name : Bytes} {value : Value} {members next : Members}
    (resolved : resolveReference evalJSONPointer prior name value members = some next) :
    ∃ found, next = assign (name.drop 1) found (erase name members) := by
  unfold resolveReference at resolved
  simp only [Option.bind_eq_bind, Option.bind_eq_some_iff] at resolved
  obtain ⟨⟨resultOf, method, path⟩, _, rest⟩ := resolved
  dsimp only at rest
  split_ifs at rest
  obtain ⟨response, _, pointed⟩ := Option.bind_eq_some_iff.mp rest
  obtain ⟨found, _, same⟩ := Option.bind_eq_some_iff.mp pointed
  exact ⟨found, (Option.some.inj same).symm⟩

theorem resolve_arguments (todo state final : Members)
    (apart : ∀ entry ∈ todo, entry.1.head? = some 35 → entry.1 ≠ ascii "create" ∧
      entry.1.drop 1 ≠ ascii "create" ∧ (entry.1.drop 1).head? ≠ some 35)
    (marked : ∀ entry ∈ state, entry.1.head? = some 35 → entry.1 ∈ todo.map Prod.fst)
    (resolved : todo.foldlM (fun current entry =>
      if entry.1.head? = some 35 then resolveReference evalJSONPointer prior entry.1 entry.2 current
      else some current) state = some final) :
    lookup (ascii "create") final = lookup (ascii "create") state ∧
      ∀ entry ∈ final, entry.1.head? ≠ some 35 := by
  induction todo generalizing state with
  | nil =>
    cases resolved
    exact ⟨rfl, fun entry listed isMarked => absurd (marked entry listed isMarked) List.not_mem_nil⟩
  | cons first todo ih =>
    rw [List.foldlM_cons] at resolved
    obtain ⟨next, step, later⟩ := Option.bind_eq_some_iff.mp resolved
    have behind : ∀ entry ∈ todo, entry.1.head? = some 35 → entry.1 ≠ ascii "create" ∧
        entry.1.drop 1 ≠ ascii "create" ∧ (entry.1.drop 1).head? ≠ some 35 :=
      fun entry among => apart entry (List.mem_cons_of_mem _ among)
    by_cases mark : first.1.head? = some 35
    · rw [if_pos mark] at step
      obtain ⟨notCreate, notNamed, plain⟩ := apart first (List.mem_cons_self ..) mark
      obtain ⟨found, isNext⟩ := resolve_reference_spec step
      have stillMarked : ∀ entry ∈ next, entry.1.head? = some 35 → entry.1 ∈ todo.map Prod.fst := by
        intro entry listed isMarked
        rw [isNext] at listed
        rcases mem_assign listed with named | old
        · rw [named] at isMarked
          exact absurd isMarked plain
        · obtain ⟨among, differs⟩ := List.mem_filter.mp old
          have inTodo := marked entry among isMarked
          rw [List.map_cons, List.mem_cons] at inTodo
          exact inTodo.resolve_left (of_decide_eq_true differs)
      obtain ⟨kept, unmarked⟩ := ih next behind stillMarked later
      refine ⟨?_, unmarked⟩
      rw [kept, isNext, lookup_assign, if_neg (Ne.symm notNamed), lookup_erase _ (Ne.symm notCreate)]
    · rw [if_neg mark] at step
      cases step
      refine ih state behind ?_ later
      intro entry listed isMarked
      have inTodo := marked entry listed isMarked
      rw [List.map_cons, List.mem_cons] at inTodo
      refine inTodo.resolve_left fun same => mark ?_
      rw [← same]
      exact isMarked

theorem lookup_map (change : Value → Value) (name : Bytes) (members : Members) :
    lookup name (members.map fun entry => (entry.1, change entry.2)) =
      (lookup name members).map change := by
  unfold lookup
  induction members with
  | nil => rfl
  | cons entry members ih =>
    by_cases isName : entry.1 = name
    · rw [List.map_cons, List.find?_cons_of_pos (by simpa using isName),
        List.find?_cons_of_pos (by simpa using isName)]
      rfl
    · rw [List.map_cons, List.find?_cons_of_neg (by simpa using isName),
        List.find?_cons_of_neg (by simpa using isName)]
      exact ih

theorem walked_create_object (object : CreateObject) {entry : Bytes × Property}
    (among : entry ∈ object.members) :
    member entry.1 (walked creations object.encode) = some (walked creations entry.2.encode) := by
  unfold CreateObject.encode
  have plain : ∀ member ∈ object.members.map fun entry => (entry.1, entry.2.encode),
    member.1.head? ≠ some 35 := by
    rw [List.forall_mem_map]
    exact object.plain
  rw [walked_plain_object _ plain, member, lookup_map,
    lookup_of_mem Property.encode object.distinct among]
  rfl

theorem walked_create_member (call : SetCall) {entry : Bytes × CreateObject}
    (among : entry ∈ call.create) :
    member entry.1 (walked creations call.createMember) = some (walked creations entry.2.encode) := by
  unfold SetCall.createMember
  have plain : ∀ member ∈ call.create.map fun entry => (entry.1, entry.2.encode),
    member.1.head? ≠ some 35 := by
    rw [List.forall_mem_map]
    exact call.plain
  rw [walked_plain_object _ plain, member, lookup_map,
    lookup_of_mem CreateObject.encode call.distinct among]
  rfl

theorem received_eq (call : SetCall)
    {args : Value} (resolved : resolveBackReferences evalJSONPointer prior call.encode = some args)
    {entry : Bytes × CreateObject} (among : entry ∈ call.create) {property : Bytes × Property}
    (inside : property ∈ entry.2.members) :
    received (resolveCreationReferences creations args) entry.1 property.1 =
      some (walked creations property.2.encode) := by
  unfold SetCall.encode resolveBackReferences at resolved
  obtain ⟨final, folded, isArgs⟩ := Option.bind_eq_some_iff.mp resolved
  cases isArgs
  have createName : (ascii "create").head? ≠ some 35 := by decide
  have apart : ∀ other ∈ (ascii "create", call.createMember) :: call.others, other.1.head? = some 35 →
      other.1 ≠ ascii "create" ∧ other.1.drop 1 ≠ ascii "create" ∧
        (other.1.drop 1).head? ≠ some 35 := by
    intro other listed isMarked
    rcases List.mem_cons.mp listed with rfl | rest
    · exact absurd isMarked createName
    · exact call.apart other rest
  obtain ⟨kept, unmarked⟩ := resolve_arguments _ _ final apart
    (fun other listed _ => List.mem_map_of_mem listed) folded
  rw [resolve_creation_references_eq, received]
  change ((member _ (walked creations (.object final))).bind _).bind _ = _
  rw [walked_plain_object final unmarked, member, lookup_map, kept]
  have found : lookup (ascii "create") ((ascii "create", call.createMember) :: call.others) =
      some call.createMember := by
    simp [lookup]
  rw [found, Option.map_some, Option.bind_some, walked_create_member call among, Option.bind_some,
    walked_create_object entry.2 inside]

end

end Call

def createdMailbox : Invocation where
  name := ascii "Mailbox/set"
  args := .object [(ascii "created",
    .object [(ascii "k1", .object [(ascii "id", .string (ascii "7"))])])]
  callID := ascii "c0"

def subjectCall (subject : Bytes) : SetCall where
  create := [(ascii "m", {
    members := [(ascii "subject", .text subject)]
    plain := List.forall_mem_singleton.mpr (show (ascii "subject").head? ≠ some 35 by decide)
    distinct := List.nodup_singleton _
    wellFormed := List.forall_mem_singleton.mpr trivial })]
  others := []
  plain := List.forall_mem_singleton.mpr (show (ascii "m").head? ≠ some 35 by decide)
  distinct := List.nodup_singleton _
  apart := by simp

theorem created_mailbox_plain : PlainIds (gatherCreations [createdMailbox] []) := by
  intro creationID real created
  have entries : gatherCreations [createdMailbox] [] creationID =
      ([(ascii "k1", ascii "7")].find? fun entry => decide (entry.1 = creationID)).map Prod.snd := rfl
  rw [entries] at created
  obtain ⟨entry, found, isReal⟩ := Option.map_eq_some_iff.mp created
  have listed := List.mem_of_find?_eq_some found
  rw [List.mem_singleton] at listed
  rw [← isReal, listed]
  decide

end Herold.CreationRefs

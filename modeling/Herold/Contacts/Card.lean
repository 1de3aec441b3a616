import Herold.Go.Json

/-!
# The JSContact card

A card keeps every member as it was sent and holds six of them in typed fields as well.
Writing it puts the typed fields back over the members, so a member comes back changed
where its type does not write what it read.
-/

namespace Herold.Contacts

open Herold.Go Herold.Go.Json

def fieldOf (name : String) (omitempty : Bool) (content : GoType) : StructField GoType :=
  ⟨ascii name, omitempty, content⟩

def nameComponent : GoType := .struct [fieldOf "kind" false .string, fieldOf "value" false .string]

def cardName : GoType :=
  .struct [fieldOf "components" true (.slice nameComponent), fieldOf "full" true .string,
    fieldOf "isOrdered" true .bool, fieldOf "defaultSeparator" true .string,
    fieldOf "sortAs" true (.map .string)]

def emailAddress : GoType :=
  .struct [fieldOf "address" false .string, fieldOf "contexts" true (.map .bool),
    fieldOf "pref" true .int,
    fieldOf "label" true .string]

def phone : GoType :=
  .struct [fieldOf "number" false .string, fieldOf "contexts" true (.map .bool),
    fieldOf "features" true (.map .bool), fieldOf "pref" true .int, fieldOf "label" true .string]

def addressComponent : GoType := .struct [fieldOf "kind" false .string, fieldOf "value" false .string]

def address : GoType :=
  .struct [fieldOf "components" true (.slice addressComponent), fieldOf "full" true .string,
    fieldOf "contexts" true (.map .bool), fieldOf "pref" true .int, fieldOf "label" true .string,
    fieldOf "countryCode" true .string, fieldOf "coordinates" true .string,
    fieldOf "timeZone" true .string]

def organization : GoType :=
  .struct [fieldOf "name" true .string, fieldOf "units" true (.slice .string),
    fieldOf "sortAs" true .string, fieldOf "contexts" true (.map .bool)]

def title : GoType :=
  .struct [fieldOf "name" true .string, fieldOf "kind" true .string,
    fieldOf "organizationId" true .string]

/-- The members that a typed map holds, with the type of their entries. -/
def typedMaps : List (Bytes × GoType) :=
  [(ascii "emails", emailAddress), (ascii "phones", phone), (ascii "addresses", address),
    (ascii "organizations", organization), (ascii "titles", title)]

/-- `map[string]json.RawMessage`. -/
abbrev Body := Bytes → Option Value

structure Card where
  version : Bytes
  kind : Bytes
  uid : Bytes
  name : Option GoValue
  emails : Option GoValue
  phones : Option GoValue
  addresses : Option GoValue
  organizations : Option GoValue
  titles : Option GoValue
  rawJSON : Body

def projectString (raw : Body) (key : Bytes) : Bytes :=
  match raw key with
  | some (.string text) => text
  | _ => []

/-- The name is held only if every part of it is of the declared kind. -/
def readName (value : Value) : Option GoValue :=
  let filled := decode value cardName (zero cardName)
  if filled.2 then some filled.1 else none

def readMap (item : GoType) (value : Value) : Option GoValue :=
  match readInto (.map item) value with
  | .nil => none
  | filled => some filled

def projectTyped (read : Value → Option GoValue) : Option Value → Option GoValue
  | none => none
  | some .null => none
  | some value => read value

def unmarshalJSON (raw : Body) : Card where
  version := projectString raw (ascii "version")
  kind := projectString raw (ascii "kind")
  uid := projectString raw (ascii "uid")
  name := projectTyped readName (raw (ascii "name"))
  emails := projectTyped (readMap emailAddress) (raw (ascii "emails"))
  phones := projectTyped (readMap phone) (raw (ascii "phones"))
  addresses := projectTyped (readMap address) (raw (ascii "addresses"))
  organizations := projectTyped (readMap organization) (raw (ascii "organizations"))
  titles := projectTyped (readMap title) (raw (ascii "titles"))
  rawJSON := raw

def put (key : Bytes) (value : Value) (out : Body) : Body := fun other =>
  if other = key then some value else out other

def putString (key text : Bytes) (out : Body) : Body :=
  if text = [] then out else put key (.string text) out

def putTyped (key : Bytes) (held : Option GoValue) (out : Body) : Body :=
  match held with
  | none => out
  | some value => put key (encode value) out

def putVersion (version : Bytes) (out : Body) : Body :=
  if version = [] ∧ (out (ascii "version")).isNone then put (ascii "version")
    (.string (ascii "1.0")) out
  else putString (ascii "version") version out

def marshalJSON (card : Card) : Body :=
  let out := putVersion card.version card.rawJSON
  let out := putString (ascii "kind") card.kind out
  let out := putString (ascii "uid") card.uid out
  let out := putTyped (ascii "name") card.name out
  let out := putTyped (ascii "emails") card.emails out
  let out := putTyped (ascii "phones") card.phones out
  let out := putTyped (ascii "addresses") card.addresses out
  let out := putTyped (ascii "organizations") card.organizations out
  putTyped (ascii "titles") card.titles out

inductive CardError where
  | version (got : Bytes)
  | uidRequired
  | kind (got : Bytes)
  deriving DecidableEq

def allowedKinds : List Bytes :=
  [ascii "individual", ascii "group", ascii "location", ascii "application", ascii "device"]

def validate (card : Card) : Except CardError Unit :=
  if card.version ≠ ascii "1.0" then .error (.version card.version)
  else if card.uid = [] then .error .uidRequired
  else if card.kind ≠ [] && !allowedKinds.contains card.kind then .error (.kind card.kind)
  else .ok ()

theorem put_string_other (key text : Bytes) (out : Body) (other : Bytes) (differs : other ≠ key) :
    putString key text out other = out other := by
  unfold putString
  split
  case isTrue => rfl
  case isFalse => exact if_neg differs

theorem put_typed_other (key : Bytes) (held : Option GoValue) (out : Body) (other : Bytes)
    (differs : other ≠ key) : putTyped key held out other = out other := by
  unfold putTyped
  split
  case h_1 => rfl
  case h_2 => exact if_neg differs

theorem put_version_other (version : Bytes) (out : Body) (other : Bytes)
    (differs : other ≠ ascii "version") : putVersion version out other = out other := by
  unfold putVersion
  split
  case isTrue => exact if_neg differs
  case isFalse => exact put_string_other _ version out other differs

def writtenBack (read : Value → Option GoValue) (held : Option Value) : Option Value :=
  ((projectTyped read held).map encode).or held

theorem put_typed_self (key : Bytes) (read : Value → Option GoValue) (held : Option Value) (out : Body)
    (kept : out key = held) :
      putTyped key (projectTyped read held) out key = writtenBack read held := by
  unfold putTyped writtenBack
  cases projectTyped read held with
  | none => simpa using kept
  | some value => simp [put]

theorem put_string_projected (raw out : Body) (key : Bytes) (kept : out key = raw key) :
    putString key (projectString raw key) out key = raw key := by
  unfold putString projectString
  cases held : raw key with
  | none => simpa [held] using kept
  | some value =>
    cases value with
    | string text =>
      by_cases blank : text = []
      · simpa [blank, held] using kept
      · simp [blank, put]
    | _ => simpa [held] using kept

/-- The card as an update writes it: read from the merged members, with its version and
uid filled in. -/
def completed (raw : Body) (version uid : Bytes) : Card :=
  { unmarshalJSON raw with version, uid }

section

variable (raw : Body) (version uid : Bytes)

theorem completed_name : marshalJSON (completed raw version uid) (ascii "name") =
    writtenBack readName (raw (ascii "name")) := by
  simp only [marshalJSON, completed]
  iterate 5 rw [put_typed_other _ _ _ _ (by decide)]
  apply put_typed_self
  iterate 2 rw [put_string_other _ _ _ _ (by decide)]
  rw [put_version_other _ _ _ (by decide)]
  rfl

theorem completed_map (key : Bytes) (item : GoType) (typed : (key, item) ∈ typedMaps) :
    marshalJSON (completed raw version uid) key = writtenBack (readMap item) (raw key) := by
  simp only [typedMaps, List.mem_cons, Prod.mk.injEq, List.not_mem_nil, or_false] at typed
  simp only [marshalJSON, completed]
  rcases typed with ⟨rfl, rfl⟩ | ⟨rfl, rfl⟩ | ⟨rfl, rfl⟩ | ⟨rfl, rfl⟩ | ⟨rfl, rfl⟩
  all_goals
    repeat rw [put_typed_other _ _ _ _ (by decide)]
    apply put_typed_self
    repeat rw [put_typed_other _ _ _ _ (by decide)]
    repeat rw [put_string_other _ _ _ _ (by decide)]
    exact put_version_other _ _ _ (by decide)

theorem completed_uid (filled : uid ≠ []) :
    marshalJSON (completed raw version uid) (ascii "uid") = some (.string uid) := by
  simp only [marshalJSON, completed]
  iterate 6 rw [put_typed_other _ _ _ _ (by decide)]
  simp [putString, filled, put]

theorem completed_version (filled : version ≠ []) :
    marshalJSON (completed raw version uid) (ascii "version") = some (.string version) := by
  simp only [marshalJSON, completed]
  iterate 6 rw [put_typed_other _ _ _ _ (by decide)]
  iterate 2 rw [put_string_other _ _ _ _ (by decide)]
  simp [putVersion, putString, filled, put]

theorem completed_other (key : Bytes) (notVersion : key ≠ ascii "version") (notUid : key ≠ ascii "uid")
    (notName : key ≠ ascii "name") (untyped : key ∉ typedMaps.map Prod.fst) :
    marshalJSON (completed raw version uid) key = raw key := by
  simp only [typedMaps, List.map_cons, List.map_nil, List.mem_cons, List.not_mem_nil, or_false,
    not_or] at untyped
  obtain ⟨notEmails, notPhones, notAddresses, notOrganizations, notTitles⟩ := untyped
  simp only [marshalJSON, completed]
  rw [put_typed_other _ _ _ _ notTitles, put_typed_other _ _ _ _ notOrganizations,
    put_typed_other _ _ _ _ notAddresses, put_typed_other _ _ _ _ notPhones,
    put_typed_other _ _ _ _ notEmails, put_typed_other _ _ _ _ notName,
    put_string_other _ _ _ _ notUid]
  have base : putVersion version raw key = raw key := put_version_other version raw key notVersion
  by_cases isKind : key = ascii "kind"
  · subst isKind
    exact put_string_projected raw _ _ base
  · rw [put_string_other _ _ _ _ isKind]
    exact base

end

/-- A name that is written back as it stands: it is not read at all, or it is spelled
as the type writes it. -/
def NameKept (value : Value) : Prop :=
  value = .null ∨ (decode value cardName (zero cardName)).2 = false ∨ Fits cardName value

def MapKept (item : GoType) (value : Value) : Prop :=
  (∀ members, value ≠ .object members) ∨ Fits (.map item) value

theorem proper_name : proper cardName = true := by decide

theorem proper_map : ∀ entry ∈ typedMaps, proper (.map entry.2) = true := by decide

theorem name_kept_iff (value : Value) :
    Option.Rel Same (writtenBack readName (some value)) (some value) ↔ NameKept value := by
  by_cases isNull : value = .null
  · subst isNull
    exact ⟨fun _ => .inl rfl, fun _ => .some (.refl _)⟩
  have projected : projectTyped readName (some value) = readName value := by
    cases value with
    | null => exact absurd rfl isNull
    | _ => rfl
  cases fitted : (decode value cardName (zero cardName)).2 with
  | false =>
    have unread : writtenBack readName (some value) = some value := by
      rw [writtenBack, projected, readName]
      simp [fitted]
    rw [unread]
    exact ⟨fun _ => .inr (.inl fitted), fun _ => .some (.refl _)⟩
  | true =>
    have back : writtenBack readName (some value) = some (rewrite cardName value) := by
      rw [writtenBack, projected, readName]
      simp [fitted, rewrite, readInto]
    rw [back, Option.rel_some_some, rewrite_same_iff value cardName proper_name]
    simp [NameKept, isNull, fitted]

theorem map_kept_iff (item : GoType) (well : proper (.map item) = true) (value : Value) :
    Option.Rel Same (writtenBack (readMap item) (some value)) (some value) ↔ MapKept item value := by
  cases value with
  | object members =>
    have back : writtenBack (readMap item) (some (.object members)) =
        some (rewrite (.map item) (.object members)) := rfl
    rw [back, Option.rel_some_some, rewrite_same_iff _ (.map item) well]
    simp [MapKept]
  | _ => exact ⟨fun _ => .inl (by simp), fun _ => .some (.refl _)⟩

end Herold.Contacts

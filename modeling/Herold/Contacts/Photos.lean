import Herold.Contacts.Update
import Mathlib.Algebra.BigOperators.Group.Finset.Piecewise
import Mathlib.Algebra.Order.BigOperators.Group.Finset
import Mathlib.Data.List.Dedup

/-!
# Contact photos

A photo of a contact is a blob that its card names. The handlers count a reference for
every blob of a card they write and take it back when the card changes or goes: what they
write is read under the very name `media`, what they take back under any spelling of it.
The contacts of a destroyed address book go with it, and nothing is taken back for them.
-/

namespace Herold.Contacts

open Herold.Go Herold.Go.Json Herold.Machine

def mediaResource : GoType :=
  .struct [fieldOf "blobId" true .string, fieldOf "uri" true .string, fieldOf "mediaType" true .string,
    fieldOf "kind" true .string]

def textOf : GoValue → Bytes
  | .string text => text
  | _ => []

/-- The blob and the media type of an entry, unless the entry is no resource. -/
def readResource (entry : Value) : Option (Bytes × Bytes) :=
  let filled := decode entry mediaResource (zero mediaResource)
  if filled.2 then some (textOf (filled.1.field (ascii "blobId")),
    textOf (filled.1.field (ascii "mediaType")))
  else none

def mapValues (members : List (Bytes × Value)) : List Value := (members.map Prod.fst).filterMap
    (lastOf members)

/-- The limits of the account and the blobs that are there, with their sizes. -/
structure Limits where
  tooLarge : Value → Bool
  mergedTooLarge : Body → Bool
  maxPhotoBlobSize : Nat
  allowedPhotoTypes : List Bytes
  stat : Bytes → Option Nat

def validatePhotoMediaType (limits : Limits) (mediaType : Bytes) : Bool :=
  if mediaType = [] then true
  else if limits.allowedPhotoTypes = [] then hasPrefix mediaType (ascii "image/")
  else limits.allowedPhotoTypes.contains mediaType

/-- The blob of an entry, empty where it has none, if the entry is acceptable. -/
def validatePhoto (limits : Limits) (entry : Value) : Option Bytes :=
  match readResource entry with
  | none => none
  | some (blob, mediaType) =>
    if blob = [] then some []
    else if validatePhotoMediaType limits mediaType then
      match limits.stat blob with
      | none => none
      | some size => if 0 < limits.maxPhotoBlobSize ∧ limits.maxPhotoBlobSize < size then none else some blob
    else none

def distinctBlobs (blobs : List Bytes) : List Bytes := (blobs.filter fun blob => blob ≠ []).dedup

def validatePhotoBlobRefs (limits : Limits) (probe : Body) : Option (List Bytes) :=
  match probe (ascii "media") with
  | none => some []
  | some .null => some []
  | some (.object members) => ((mapValues members).mapM (validatePhoto limits)).map distinctBlobs
  | some _ => none

/-- The spellings of a lower-case name, in the order in which a written card has them. -/
def spellings : Bytes → List Bytes
  | [] => [[]]
  | letter :: rest => (spellings rest).map ((letter - 32) :: ·) ++ (spellings rest).map (letter :: ·)

/-- A member read into the map that the field holds so far; `none` stands for an error. -/
def probeMember (body : Body) (held : Option (List (Bytes × Value))) (name : Bytes) :
    Option (List (Bytes × Value)) :=
  match body name with
  | none => held
  | some .null => held.map fun _ => []
  | some (.object members) => held.map (· ++ members)
  | some _ => none

def extractPhotoBlobIDs (body : Body) : List Bytes :=
  match (spellings (ascii "media")).foldl (probeMember body) (some []) with
  | none => []
  | some members => distinctBlobs (((mapValues members).filterMap readResource).map Prod.fst)

def photoBlobDelta (old new : List Bytes) : List Bytes × List Bytes :=
  (new.filter fun blob => !old.contains blob, old.filter fun blob => !new.contains blob)

structure Library where
  store : Store
  defaultBook : Nat → Option Nat
  nextID : Nat
  refCounts : Bytes → Nat

def incRefs (counts : Bytes → Nat) (blobs : List Bytes) : Bytes → Nat :=
  blobs.foldl (fun counts blob => Function.update counts blob (counts blob + 1)) counts

/-- A count never goes below zero. -/
def decRefs (counts : Bytes → Nat) (blobs : List Bytes) : Bytes → Nat :=
  blobs.foldl (fun counts blob => Function.update counts blob (counts blob - 1)) counts

namespace Library

variable (library : Library)

def bookOf (pid : Nat) (probe : Body) : Option Nat :=
  match probe (ascii "addressBookId") with
  | none => library.defaultBook pid
  | some value =>
    ((unmarshalString value).bind addressBookIDFromJMAP).filter fun book =>
      library.store.addressBooks book = some pid

def uidTaken (book : Nat) (uid : Bytes) : Bool :=
  (List.range library.nextID).any fun id =>
    (library.store.contacts id).any fun contact => contact.addressBookID = book && contact.uid = uid

def insertContact (contact : Contact) : Library :=
  { library with
    store := { library.store with
      contacts := Function.update library.store.contacts library.nextID (some contact) }
    nextID := library.nextID + 1 }

def createContact (limits : Limits) (pid : Nat) (raw : Option Value) (minted : Bytes) : Library :=
  match raw with
  | none => library
  | some value =>
    if limits.tooLarge value then library
    else match readPatch (some value) with
      | none => library
      | some probe => match library.bookOf pid probe with
        | none => library
        | some book =>
          let body : Body := fun key => if projectedMembers.contains key then none else probe key
          match validatePhotoBlobRefs limits body with
          | none => library
          | some refs =>
            let row : Contact := ⟨pid, book, minted, body⟩
            let card := mergedCard row body
            match validate card with
            | .error _ => library
            | .ok () =>
              if library.uidTaken book card.uid then library
              else
                { library.insertContact
                    { row with uid := card.uid, jsContactJSON := marshalJSON card } with
                  refCounts := incRefs library.refCounts refs }

def updateContact (limits : Limits) (pid id : Nat) (raw : Option Value) : Library :=
  let refused body := (validatePhotoBlobRefs limits body).isNone
  match Contacts.updateContact ⟨limits.mergedTooLarge, refused, false, false, false⟩
    library.store pid id raw,
      library.store.contacts id, readPatch raw with
  | (.updated, store), some contact, some patch =>
    let refs := (validatePhotoBlobRefs limits (merge patch contact.jsContactJSON)).getD []
    let delta := photoBlobDelta (extractPhotoBlobIDs contact.jsContactJSON) refs
    { library with store, refCounts := decRefs (incRefs library.refCounts delta.1) delta.2 }
  | _, _, _ => library

def destroyContact (pid id : Nat) : Library :=
  match library.store.contacts id with
  | none => library
  | some contact =>
    if contact.principalID ≠ pid then library
    else
      { library with
        store := { library.store with contacts := Function.update library.store.contacts id none }
        refCounts := decRefs library.refCounts (extractPhotoBlobIDs contact.jsContactJSON) }

/-- The contacts of the book go by the cascade of the schema. -/
def destroyAddressBook (pid id : Nat) : Library :=
  if library.store.addressBooks id = some pid then
    { library with
      store :=
        { contacts := fun other =>
            (library.store.contacts other).filter fun contact => contact.addressBookID ≠ id
          addressBooks := Function.update library.store.addressBooks id none }
      defaultBook := fun owner => (library.defaultBook owner).filter fun book => book ≠ id }
  else library

end Library

inductive Operation where
  | createContact (limits : Limits) (pid : Nat) (raw : Option Value) (minted : Bytes)
  | updateContact (limits : Limits) (pid id : Nat) (raw : Option Value)
  | destroyContact (pid id : Nat)
  | destroyAddressBook (pid id : Nat)

def Library.operate (library : Library) : Operation → Library
  | .createContact limits pid raw minted => library.createContact limits pid raw minted
  | .updateContact limits pid id raw => library.updateContact limits pid id raw
  | .destroyContact pid id => library.destroyContact pid id
  | .destroyAddressBook pid id => library.destroyAddressBook pid id

def contactMachine : Machine Library Operation where
  step library operation := some (library.operate operation)

def mediaBlobs (body : Body) : List Bytes :=
  match body (ascii "media") with
  | some (.object members) => distinctBlobs (((mapValues members).filterMap readResource).map Prod.fst)
  | _ => []

def refersTo (contact : Option Contact) (blob : Bytes) : Bool :=
  contact.any fun row => (mediaBlobs row.jsContactJSON).contains blob

def holders (library : Library) (blob : Bytes) : Nat :=
  ((Finset.range library.nextID).filter fun id => refersTo (library.store.contacts id) blob = true).card

/-- No member is named like `media` but for the case of its letters. -/
def PlainNames (body : Body) : Prop := ∀ name ∈ spellings (ascii "media"), name ≠ ascii "media" →
    body name = none

/-- The step brings in no other spelling of `media`, and takes no photo away with its book. -/
def KeepsPhotos (library : Library) : Operation → Prop
  | .createContact _ _ raw _ => ∀ probe, readPatch raw = some probe → PlainNames probe
  | .updateContact _ _ _ raw => ∀ patch, readPatch raw = some patch → PlainNames patch
  | .destroyContact _ _ => True
  | .destroyAddressBook pid id => library.store.addressBooks id = some pid →
      ∀ other contact, library.store.contacts other = some contact → contact.addressBookID = id →
        mediaBlobs contact.jsContactJSON = []

section Reading

variable (body : Body)

theorem probe_absent (held : Option (List (Bytes × Value))) (names : List Bytes)
    (absent : ∀ name ∈ names, body name = none) : names.foldl (probeMember body) held = held := by
  induction names generalizing held with
  | nil => rfl
  | cons name names ih =>
    have here : probeMember body held name = held := by
      rw [probeMember, absent name List.mem_cons_self]
    rw [List.foldl_cons, here]
    exact ih held fun other member => absent other (List.mem_cons_of_mem _ member)

theorem extract_plain (plain : PlainNames body) : extractPhotoBlobIDs body = mediaBlobs body := by
  have last : spellings (ascii "media") = (spellings (ascii "media")).dropLast ++
    [ascii "media"] := by decide +kernel
  have others : ascii "media" ∉ (spellings (ascii "media")).dropLast := by decide +kernel
  have absent := probe_absent body (some []) (spellings (ascii "media")).dropLast (by
    intro name member
    refine plain name (List.mem_of_mem_dropLast member) ?_
    rintro rfl
    exact others member)
  rw [extractPhotoBlobIDs, last, List.foldl_append, absent, List.foldl_cons, List.foldl_nil,
    probeMember,
    mediaBlobs]
  cases body (ascii "media") with
  | none => rfl
  | some value => cases value <;> rfl

theorem validate_photo_read (limits : Limits) (entry : Value) (blob : Bytes)
    (valid : validatePhoto limits entry = some blob) :
      (readResource entry).map Prod.fst = some blob := by
  unfold validatePhoto at valid
  split at valid
  · cases valid
  case h_2 named mediaType found =>
    rw [found]
    split at valid
    case isTrue empty => rw [← valid, empty, Option.map_some]
    · split at valid
      · split at valid
        · cases valid
        · split at valid
          · cases valid
          · exact valid
      · cases valid

theorem validated_photos (limits : Limits) (values : List Value) (blobs : List Bytes)
    (valid : values.mapM (validatePhoto limits) = some blobs) :
    (values.filterMap readResource).map Prod.fst = blobs := by
  induction values generalizing blobs with
  | nil =>
    cases valid
    rfl
  | cons value values ih =>
    rw [List.mapM_cons] at valid
    obtain ⟨blob, here, rest⟩ := Option.bind_eq_some_iff.mp valid
    obtain ⟨later, there, ended⟩ := Option.bind_eq_some_iff.mp rest
    cases ended
    obtain ⟨resource, read, rfl⟩ :=
      Option.map_eq_some_iff.mp (validate_photo_read limits value blob here)
    rw [List.filterMap_cons_some read, List.map_cons, ih later there]

theorem validated_media (limits : Limits) (refs : List Bytes)
    (valid : validatePhotoBlobRefs limits body = some refs) :
    mediaBlobs body = refs := by
  unfold validatePhotoBlobRefs at valid
  unfold mediaBlobs
  split at valid
  case h_1 absent =>
    cases valid
    rw [absent]
  case h_2 empty =>
    cases valid
    rw [empty]
  case h_3 members given =>
    obtain ⟨blobs, each, rfl⟩ := Option.map_eq_some_iff.mp valid
    rw [given, ← validated_photos limits (mapValues members) blobs each]
  · cases valid

/-- Writing a card keeps every spelling of its media. -/
theorem marshal_media (contact : Contact) (name : Bytes) (spelled : name ∈ spellings (ascii "media")) :
    marshalJSON (mergedCard contact body) name = body name := by
  have untouched : ∀ name ∈ spellings (ascii "media"), name ≠ ascii "version" ∧ name ≠ ascii "uid" ∧
      name ≠ ascii "name" ∧ name ∉ typedMaps.map Prod.fst := by decide +kernel
  obtain ⟨version, uid, named, typed⟩ := untouched name spelled
  exact completed_other body _ _ name version uid named typed

theorem written_media (contact : Contact) :
    mediaBlobs (marshalJSON (mergedCard contact body)) = mediaBlobs body := by
  rw [mediaBlobs, marshal_media body contact _ (by decide +kernel), mediaBlobs]

theorem written_plain (contact : Contact) (plain : PlainNames body) :
    PlainNames (marshalJSON (mergedCard contact body)) := by
  intro name spelled other
  rw [marshal_media body contact name spelled]
  exact plain name spelled other

end Reading

section Counting

variable (counts : Bytes → Nat) (blob : Bytes)

theorem inc_refs_count (blobs : List Bytes) :
    incRefs counts blobs blob = counts blob + blobs.count blob := by
  unfold incRefs
  induction blobs generalizing counts with
  | nil => rfl
  | cons first rest ih =>
    rw [List.foldl_cons, ih, List.count_cons]
    by_cases same : blob = first
    · simp only [same, Function.update_self, beq_self_eq_true, if_true]
      omega
    · have other : (first == blob) = false := by simpa using Ne.symm same
      rw [Function.update_of_ne same, other]
      rfl

theorem dec_refs_count (blobs : List Bytes) :
    decRefs counts blobs blob = counts blob - blobs.count blob := by
  unfold decRefs
  induction blobs generalizing counts with
  | nil => rfl
  | cons first rest ih =>
    rw [List.foldl_cons, ih, List.count_cons]
    by_cases same : blob = first
    · simp only [same, Function.update_self, beq_self_eq_true, if_true]
      omega
    · have other : (first == blob) = false := by simpa using Ne.symm same
      rw [Function.update_of_ne same, other]
      rfl

theorem media_blobs_nodup (body : Body) : (mediaBlobs body).Nodup := by
  unfold mediaBlobs
  split
  · exact List.nodup_dedup _
  · exact List.nodup_nil

/-- Blobs that both cards name keep their reference. -/
theorem delta_counts (old new : List Bytes) (oldOnce : old.Nodup) (newOnce : new.Nodup)
    (covered : old.count blob ≤ counts blob) :
    decRefs (incRefs counts (photoBlobDelta old new).1) (photoBlobDelta old new).2 blob +
      old.count blob =
      counts blob + new.count blob := by
  simp only [dec_refs_count, inc_refs_count, photoBlobDelta]
  rw [oldOnce.count] at covered ⊢
  rw [(newOnce.filter _).count, (oldOnce.filter _).count, newOnce.count]
  by_cases before : blob ∈ old
  · by_cases after : blob ∈ new
    · simp [before, after]
    · simp only [before, if_true] at covered
      simp [before, after, Nat.sub_add_cancel covered]
  · by_cases after : blob ∈ new
    · simp [before, after]
    · simp [before, after]

def share (contact : Option Contact) : Nat := if refersTo contact blob = true then 1 else 0

theorem share_some (row : Contact) :
    share blob (some row) = (mediaBlobs row.jsContactJSON).count blob := by
  rw [(media_blobs_nodup row.jsContactJSON).count, share, refersTo, Option.any_some]
  simp only [List.contains_iff_mem]

theorem holders_sum (library : Library) :
    holders library blob = ∑ id ∈ Finset.range library.nextID, share blob (library.store.contacts id) :=
  Finset.card_filter _ _

theorem holders_replaced {before after : Library} (id : Nat) (contact : Option Contact)
    (issued : id < before.nextID) (next : after.nextID = before.nextID)
    (contacts : after.store.contacts = Function.update before.store.contacts id contact) :
    holders after blob + share blob (before.store.contacts id) = holders before blob +
      share blob contact := by
  have inside := Finset.mem_range.mpr issued
  have rest : ∑ other ∈ (Finset.range before.nextID).erase id, share blob (after.store.contacts other) =
      ∑ other ∈ (Finset.range before.nextID).erase id, share blob (before.store.contacts other) := by
    refine Finset.sum_congr rfl ?_
    intro other member
    rw [contacts, Function.update_of_ne (Finset.ne_of_mem_erase member)]
  have old := Finset.add_sum_erase _ (fun other => share blob (before.store.contacts other)) inside
  have new := Finset.add_sum_erase _ (fun other => share blob (after.store.contacts other)) inside
  simp only [contacts, Function.update_self] at new
  rw [holders_sum, holders_sum, next]
  simp only [contacts] at rest ⊢
  omega

end Counting

structure Balanced (start : Bytes → Nat) (library : Library) : Prop where
  issued : ∀ id contact, library.store.contacts id = some contact → id < library.nextID
  plain : ∀ id contact, library.store.contacts id = some contact → PlainNames contact.jsContactJSON
  counts : ∀ blob, library.refCounts blob = start blob + holders library blob

section Steps

variable {start : Bytes → Nat} {library : Library} (balanced : Balanced start library)

include balanced

theorem Balanced.covered (id : Nat) (contact : Contact)
    (found : library.store.contacts id = some contact)
    (blob : Bytes) : (mediaBlobs contact.jsContactJSON).count blob ≤ library.refCounts blob := by
  have inside := Finset.mem_range.mpr (balanced.issued id contact found)
  have one : share blob (library.store.contacts id) ≤ _ :=
    Finset.single_le_sum (fun other _ => Nat.zero_le (share blob (library.store.contacts other))) inside
  rw [← holders_sum, found, share_some] at one
  rw [balanced.counts blob]
  omega

theorem Balanced.replaced {after : Library} (id : Nat) (contact : Option Contact)
    (issued : id < library.nextID)
    (next : after.nextID = library.nextID)
    (contacts : after.store.contacts = Function.update library.store.contacts id contact)
    (plain : ∀ row, contact = some row → PlainNames row.jsContactJSON)
    (counted : ∀ blob, after.refCounts blob + share blob (library.store.contacts id) =
      library.refCounts blob + share blob contact) : Balanced start after := by
  have rows : ∀ other row, after.store.contacts other = some row →
      (other = id ∧ contact = some row) ∨ library.store.contacts other = some row := by
    intro other row found
    rw [contacts] at found
    by_cases same : other = id
    · rw [same, Function.update_self] at found
      exact Or.inl ⟨same, found⟩
    · rw [Function.update_of_ne same] at found
      exact Or.inr found
  constructor
  · intro other row found
    rw [next]
    rcases rows other row found with ⟨rfl, _⟩ | kept
    · exact issued
    · exact balanced.issued other row kept
  · intro other row found
    rcases rows other row found with ⟨_, new⟩ | kept
    · exact plain row new
    · exact balanced.plain other row kept
  · intro blob
    have moved := holders_replaced blob id contact issued next contacts
    have before := balanced.counts blob
    have now := counted blob
    omega

theorem Balanced.free : library.store.contacts library.nextID = none := by
  cases taken : library.store.contacts library.nextID with
  | none => rfl
  | some row => exact absurd (balanced.issued _ row taken) (Nat.lt_irrefl _)

theorem Balanced.grown : Balanced start { library with nextID := library.nextID + 1 } := by
  refine ⟨fun id contact found => Nat.lt_succ_of_lt (balanced.issued id contact found),
    balanced.plain, ?_⟩
  intro blob
  have more := holders_sum blob { library with nextID := library.nextID + 1 }
  rw [Finset.sum_range_succ, ← holders_sum, balanced.free] at more
  rw [more]
  exact balanced.counts blob

theorem create_contact_balanced (limits : Limits) (pid : Nat) (raw : Option Value) (minted : Bytes)
    (plain : ∀ probe, readPatch raw = some probe → PlainNames probe) :
    Balanced start (library.createContact limits pid raw minted) := by
  unfold Library.createContact
  split
  · exact balanced
  case h_2 value =>
    split
    · exact balanced
    split
    · exact balanced
    case h_2 probe read =>
      split
      · exact balanced
      case h_2 book _ =>
        dsimp only
        split
        · exact balanced
        case h_2 refs valid =>
          split
          · exact balanced
          · split
            · exact balanced
            · have stripped : PlainNames fun key =>
                if projectedMembers.contains key then none else probe key := by
                intro name spelled other
                dsimp only
                split
                · rfl
                · exact plain probe read name spelled other
              refine balanced.grown.replaced library.nextID (some _) (Nat.lt_succ_self _) rfl rfl ?_ ?_
              · rintro row ⟨⟩
                exact written_plain _ _ stripped
              · intro blob
                show incRefs library.refCounts refs blob +
                  share blob (library.store.contacts library.nextID) = _
                rw [balanced.free, share_some, written_media, validated_media _ limits refs valid,
                  inc_refs_count]
                rfl

theorem update_contact_balanced (limits : Limits) (pid id : Nat) (raw : Option Value)
    (plain : ∀ patch, readPatch raw = some patch → PlainNames patch) :
    Balanced start (library.updateContact limits pid id raw) := by
  unfold Library.updateContact
  dsimp only
  split
  case h_1 store contact patch updated found read =>
    obtain ⟨accepted, -, rfl⟩ := update_contact_done _ _ _ _ _ _ patch contact found read updated
    obtain ⟨refs, valid⟩ := Option.isSome_iff_exists.mp (by simpa using accepted)
    have merged : PlainNames (merge patch contact.jsContactJSON) := by
      intro name spelled other
      have stored := balanced.plain id contact found name spelled other
      rw [merge, plain patch read name spelled other, stored, ite_self]
    let row := { contact with
      jsContactJSON := marshalJSON (mergedCard contact (merge patch contact.jsContactJSON)) }
    refine balanced.replaced id (some row) (balanced.issued id contact found) rfl ?_ ?_ ?_
    · funext other
      exact (Function.update_apply ..).symm
    · rintro row ⟨⟩
      exact written_plain _ _ merged
    · intro blob
      have media := validated_media _ limits refs valid
      rw [found, share_some, share_some, written_media, valid, Option.getD_some, ← media,
        extract_plain _ (balanced.plain id contact found)]
      exact delta_counts _ blob _ _ (media_blobs_nodup _) (media_blobs_nodup _)
        (balanced.covered id contact found blob)
  · exact balanced

theorem destroy_contact_balanced (pid id : Nat) : Balanced start (library.destroyContact pid id) := by
  unfold Library.destroyContact
  split
  · exact balanced
  case h_2 contact found =>
    split
    · exact balanced
    · refine balanced.replaced id none (balanced.issued id contact found) rfl rfl ?_ ?_
      · rintro row ⟨⟩
      · intro blob
        have covered := balanced.covered id contact found blob
        rw [found, share_some, extract_plain _ (balanced.plain id contact found)]
        show decRefs library.refCounts _ blob + _ = _
        rw [dec_refs_count]
        exact Nat.sub_add_cancel covered

theorem destroy_address_book_balanced (pid id : Nat)
    (bare : library.store.addressBooks id = some pid → ∀ other contact,
      library.store.contacts other = some contact → contact.addressBookID = id →
        mediaBlobs contact.jsContactJSON = []) :
    Balanced start (library.destroyAddressBook pid id) := by
  unfold Library.destroyAddressBook
  split
  case isTrue owned =>
    constructor
    · intro other row found
      exact balanced.issued other row (Option.filter_eq_some_iff.mp found).1
    · intro other row found
      exact balanced.plain other row (Option.filter_eq_some_iff.mp found).1
    · intro blob
      rw [holders_sum, balanced.counts blob, holders_sum]
      refine congrArg _ (Finset.sum_congr rfl ?_)
      intro other _
      show share blob (library.store.contacts other) =
        share blob ((library.store.contacts other).filter fun contact => contact.addressBookID ≠ id)
      cases found : library.store.contacts other with
      | none => rfl
      | some contact =>
        by_cases inside : contact.addressBookID = id
        · have none_ := bare owned other contact found inside
          simp [share, refersTo, Option.filter, inside, none_]
        · simp [Option.filter, inside]
  · exact balanced

end Steps

theorem operate_balanced {start : Bytes → Nat} {library : Library} (balanced : Balanced start library)
    (operation : Operation) (keeps : KeepsPhotos library operation) :
    Balanced start (library.operate operation) := by
  cases operation with
  | createContact limits pid raw minted =>
    exact create_contact_balanced balanced limits pid raw minted keeps
  | updateContact limits pid id raw => exact update_contact_balanced balanced limits pid id raw keeps
  | destroyContact pid id => exact destroy_contact_balanced balanced pid id
  | destroyAddressBook pid id => exact destroy_address_book_balanced balanced pid id keeps

/-- Beside the references counted before there was a contact, each blob has one for every
contact whose media refer to it. -/
theorem photo_references_balanced (start final : Library) (operations : List Operation)
    (bare : ∀ id, start.store.contacts id = none)
    (meets : contactMachine.Meets KeepsPhotos start operations)
    (ran : contactMachine.execute start operations = some final) (blob : Bytes) :
    final.refCounts blob = start.refCounts blob + holders final blob := by
  have begun : Balanced start.refCounts start := by
    constructor
    · intro id contact found
      rw [bare id] at found
      cases found
    · intro id contact found
      rw [bare id] at found
      cases found
    · intro other
      have nobody : holders start other = 0 := by
        rw [holders_sum]
        refine Finset.sum_eq_zero ?_
        intro id _
        rw [bare id]
        rfl
      rw [nobody, Nat.add_zero]
  have ended := contactMachine.meets_keeps KeepsPhotos (Balanced start.refCounts) (by
    intro library operation next balanced keeps stepped
    cases stepped
    exact operate_balanced balanced operation keeps) operations start final begun meets ran
  exact ended.counts blob

def anyPhoto : Limits where
  tooLarge _ := false
  mergedTooLarge _ := false
  maxPhotoBlobSize := 0
  allowedPhotoTypes := []
  stat _ := some 1

def emptyLibrary : Library where
  store := ⟨fun _ => none, fun book => if book = 5 then some 1 else none⟩
  defaultBook owner := if owner = 1 then some 5 else none
  nextID := 1
  refCounts _ := 0

def portrait : Value := .object [(ascii "p", .object [(ascii "blobId", .string (ascii "b3"))])]

def newContact (name : String) : Operation :=
  .createContact anyPhoto 1
    (some (.object [(ascii "uid", .string (ascii "u")), (ascii name, portrait)])) []

theorem destroyed_book_keeps_reference :
    ∃ final, contactMachine.execute emptyLibrary [newContact "media", .destroyAddressBook 1 5] =
      some final ∧
      holders final (ascii "b3") = 0 ∧ final.refCounts (ascii "b3") = 1 :=
  ⟨_, rfl, by decide +kernel, by decide +kernel⟩

theorem photo_references_balanced_of_removed_contact :
    ∃ final, contactMachine.execute emptyLibrary [newContact "media", .destroyContact 1 1] =
      some final ∧
      final.refCounts (ascii "b3") = emptyLibrary.refCounts (ascii "b3") +
        holders final (ascii "b3") := by
  refine ⟨_, rfl, photo_references_balanced emptyLibrary _ [newContact "media", .destroyContact 1 1]
    (fun _ => rfl) ⟨?_, trivial, trivial⟩ rfl (ascii "b3")⟩
  intro probe read
  cases read
  intro name spelled other
  have absent : ∀ name ∈ spellings (ascii "media"), name ≠ ascii "media" →
      lastOf [(ascii "uid", .string (ascii "u")), (ascii "media", portrait)] name = none := by
        decide +kernel
  exact absent name spelled other

end Herold.Contacts

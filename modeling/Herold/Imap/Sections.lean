import Herold.Imap.FetchItems
import Herold.Imap.Shown

/-!
# Body sections and the sizes a client is told

Three walks describe one message: its size column, the structure that BODYSTRUCTURE
renders and the section that `resolveSection` finds for a part number. They agree on
the octets of every part unless a header is put before the stored bytes, the message
cannot be parsed, or a message has a message/rfc822 for its whole body.
-/

namespace Herold.BodyStructure

open Herold.Go Herold.Imap

def sanitiseHeaderValue (value : Bytes) : Bytes :=
  let value := trimSpace value
  if value = [] then [] else trimSpace (value.filter fun byte => byte ≠ 13 && byte ≠ 10)

def xHeroldRecipientHeader : Bytes := ascii "X-Herold-Recipient"

def injectXHeroldRecipient (raw value : Bytes) : Bytes :=
  if value = [] then raw
  else
    let safe := sanitiseHeaderValue value
    if safe = [] then raw else xHeroldRecipientHeader ++ [58, 32] ++ safe ++ [13, 10] ++ raw

/-- A row of a mailbox with the blob it names. The size is that of the blob. -/
structure StoredMessage where
  blob : Bytes
  size : Nat
  receivedTo : Bytes
  sized : size = blob.length

def fetchBlob (m : StoredMessage) : Bytes := injectXHeroldRecipient m.blob m.receivedTo

def splitRawMessage (raw : Bytes) : Bytes × Bytes :=
  match cutFirst [13, 10, 13, 10] raw with
  | some (header, body) => (header ++ [13, 10, 13, 10], body)
  | none =>
    match cutFirst [10, 10] raw with
    | some (header, body) => (header ++ [10, 10], body)
    | none => (raw, [])

/-- The fields of a header block with their line ends; `current` is the field being
read. -/
def splitHeaderFields (current : Bytes) : Nat → Bytes → List Bytes
  | 0, _ => []
  | rounds + 1, hdr =>
    match cutFirstByte 10 hdr with
    | none => if current ++ hdr = [] then [] else [current ++ hdr]
    | some (start, rest) =>
      let line := start ++ [10]
      let folded := line.head? = some 32 ∨ line.head? = some 9
      if current ≠ [] ∧ folded then splitHeaderFields (current ++ line) rounds rest
      else if current ≠ [] then current :: splitHeaderFields line rounds rest
      else splitHeaderFields line rounds rest

def headerName (field : Bytes) : Bytes := (cutFirstByte 58 field).elim [] fun cut => trimSpace cut.1

def filterHeaders (hdr : Bytes) (keep notKeep : List Bytes) : Bytes :=
  let kept := (splitHeaderFields [] (hdr.length + 1) hdr).filter fun line =>
    let name := toLower (headerName line)
    (keep.isEmpty || (keep.map toLower).contains name) &&
      !(!notKeep.isEmpty && (notKeep.map toLower).contains name)
  kept.flatten ++ [13, 10]

/-- The header of a message, or those of its fields that the section names. -/
def headerSection (sec : BodySection) (hdr : Bytes) : Bytes :=
  if sec.headerFields ≠ [] ∨ sec.headerFieldsNot ≠ [] then
    filterHeaders hdr sec.headerFields sec.headerFieldsNot
  else hdr

/-- The type that the section resolver takes for an embedded message. -/
def isMessage (p : Part) : Bool := equalFold p.contentType (ascii "message/rfc822")

section

variable (parse : Bytes → Parsed)

/-- The loop of `resolveSection` over the part number. `enter` resolves what is left
of it in an embedded message; the flag says that no segment was taken yet. -/
def walkSection (enter : Bytes → Part → List Int → Option (Option (Part × Bytes))) (raw : Bytes) :
    Bool → Part → List Int → Option (Option (Part × Bytes))
  | _, cur, [] => some (some (cur, raw))
  | first, cur, seg :: path =>
    if seg < 1 then some none
    else if !cur.children.isEmpty then
      match cur.children[(seg - 1).toNat]? with
      | some child => walkSection enter raw false child path
      | none => some none
    else if isMessage cur then
      match parseNestedMessage parse cur raw with
      | some (nested, nestedRaw) => enter nestedRaw nested.body (seg :: path)
      | none => some none
    else if first ∧ seg = 1 then walkSection enter raw false cur path
    else some none

variable {parse} in
theorem walk_past_leaf {enter : Bytes → Part → List Int → Option (Option (Part × Bytes))} {raw : Bytes}
    {cur : Part} {seg : Int} {path : List Int} (proper : 1 ≤ seg) (single : cur.children = [])
    (plain : isMessage cur = false) :
    walkSection parse enter raw false cur (seg :: path) = some none := by
  rw [walkSection, if_neg (by omega), single, plain]
  simp

/-- The part of a number and the bytes that its offsets point into, or nothing where
messages are nested deeper than the fuel allows. -/
def resolveSection : Nat → Bytes → Part → List Int → Option (Option (Part × Bytes))
  | 0, _, _, _ => none
  | fuel + 1, raw, root, path => walkSection parse (resolveSection fuel) raw true root path

def partSection (sec : BodySection) (rp : Part) (rpRaw : Bytes) : Bytes :=
  match sec.specifier with
  | .mime => rp.rawHeader rpRaw
  | .header =>
    if isMessage rp then headerSection sec (splitRawMessage ((rp.rawBody rpRaw).getD [])).1 else []
  | .text => if isMessage rp then (splitRawMessage ((rp.rawBody rpRaw).getD [])).2 else []
  | .whole => (rp.rawBody rpRaw).getD []

def extractSection (fuel : Nat) (raw : Bytes) (sec : BodySection) : Option Bytes :=
  if sec.part = [] then
    some (match sec.specifier with
      | .header => headerSection sec (splitRawMessage raw).1
      | .text => (splitRawMessage raw).2
      | .mime => (splitRawMessage raw).1
      | .whole => raw)
  else
    let msg := parse raw
    if msg.lost then some []
    else
      (resolveSection parse fuel raw msg.body sec.part).map fun found =>
        found.elim [] fun pair => partSection sec pair.1 pair.2

end

def Shown.isMultipart : Shown → Bool
  | .multipart .. => true
  | _ => false

mutual

/-- The leaves below a node with the octets shown for them, numbered from the node. -/
def partOctets : Shown → List (List Int × Nat)
  | .multipart children _ _ => childOctets 1 children
  | .plain basic _ => [([], basic.octets)]
  | .text basic _ _ => [([], basic.octets)]
  | .message basic _ body _ _ =>
    ([], basic.octets) ::
      if body.isMultipart then partOctets body
      else (partOctets body).map fun leaf => (1 :: leaf.1, leaf.2)

def childOctets : Int → List Shown → List (List Int × Nat)
  | _, [] => []
  | index, child :: children =>
    ((partOctets child).map fun leaf => (index :: leaf.1, leaf.2)) ++ childOctets (index + 1) children

end

def messageOctets (shown : Shown) : List (List Int × Nat) :=
  if shown.isMultipart then partOctets shown
    else (partOctets shown).map fun leaf => (1 :: leaf.1, leaf.2)

section

variable (parse : Bytes → Parsed) (printDate : Bytes → Option Bytes)

def unparsed (raw : Bytes) : Shown :=
  .text ⟨ascii "TEXT", ascii "PLAIN", [(ascii "CHARSET", ascii "us-ascii")], [], [], ascii "7BIT",
    raw.length⟩ 0
    none

/-- What `formatBodyStructure` shows. -/
def showMessage (fuel : Nat) (raw : Bytes) (extended : Bool) : Option Shown :=
  if (parse raw).lost then some (unparsed raw)
  else showStructure parse printDate fuel extended raw (parse raw).body

def depthFor (raw : Bytes) : Nat := raw.length + 2

/-- The size is that of the whole message, and each leaf that the structure shows has
as many octets as are sent for its number. -/
def ItemsAgree (extended : Bool) (m : StoredMessage) : Prop :=
  let raw := fetchBlob m
  (extractSection parse (depthFor raw) raw {}).map List.length = some m.size ∧
  ∃ shown, showMessage parse printDate (depthFor raw) raw extended = some shown ∧
    ∀ leaf ∈ messageOctets shown,
      (extractSection parse (depthFor raw) raw { part := leaf.1 }).map List.length = some leaf.2

def Silent (raw : Bytes) (body : Part) : Prop := ∀ leaf ∈ body.leaves, leaf.bytes raw = []

/-- The numbers of a message lead to its parts. A body that is one message/rfc822 has
to be empty, since its own number already leads into it; a part that is only rendered
as a message has to embed nothing but empty leaves. -/
inductive Addressed : Bytes → Part → Prop where
  | multipart (raw : Bytes) (root : Part) (present : root.children ≠ [])
      (entered : ∀ leaf ∈ root.leaves, showsMessage leaf = true → isMessage leaf = true →
        ∀ nested nestedRaw, parseNestedMessage parse leaf raw = some (nested, nestedRaw) →
          Addressed nestedRaw nested.body)
      (closed : ∀ leaf ∈ root.leaves, showsMessage leaf = true → isMessage leaf = false →
        ∀ nested nestedRaw, parseNestedMessage parse leaf raw = some (nested, nestedRaw) →
          Silent nestedRaw nested.body) : Addressed raw root
  | message (raw : Bytes) (root : Part) (single : root.children = []) (embeds : isMessage root = true)
      (empty : root.bytes raw = []) : Addressed raw root
  | single (raw : Bytes) (root : Part) (single : root.children = []) (plain : isMessage root = false)
      (closed : showsMessage root = true → ∀ nested nestedRaw,
        parseNestedMessage parse root raw = some (nested, nestedRaw) → Silent nestedRaw nested.body) :
      Addressed raw root

/-- No recipient is put before the blob, and the blob is empty or a message whose
numbers lead to its parts. -/
def Consistent (m : StoredMessage) : Prop :=
  sanitiseHeaderValue m.receivedTo = [] ∧
    if (parse m.blob).lost then m.blob = [] else Addressed parse m.blob (parse m.blob).body

end

theorem leaves_nonempty : (p : Part) → p.leaves ≠ []
  | ⟨_, _, _, _, _, _, _, []⟩ => by simp [Part.leaves]
  | ⟨_, _, _, _, _, _, _, child :: children⟩ => by
    have first := leaves_nonempty child
    simp [Part.leaves, leavesOf, first]

theorem empty_lost {parse : Bytes → Parsed} (shrinks : Shrinks parse) : (parse []).lost = true := by
  by_contra kept
  rw [Bool.not_eq_true] at kept
  obtain ⟨leaf, rest, listed⟩ := List.exists_cons_of_ne_nil (leaves_nonempty (parse []).body)
  have shorter := shrinks [] kept leaf (by simp [listed])
  cases shorter

theorem child_leaves {p child leaf : Part} (member : child ∈ p.children)
    (inside : leaf ∈ child.leaves) :
    leaf ∈ p.leaves := by
  obtain ⟨contentType, encoding, headers, offset, length, headerOffset, headerLength, children⟩ := p
  dsimp only at member
  have present : ¬children.isEmpty = true := by
    rw [List.isEmpty_iff]
    rintro rfl
    cases member
  rw [Part.leaves, if_neg present]
  clear present
  induction children with
  | nil => cases member
  | cons first children ih =>
    rw [leavesOf, List.mem_append]
    rcases List.mem_cons.mp member with rfl | later
    · exact .inl inside
    · exact .inr (ih later)

theorem raw_body_childless {p : Part} (single : p.children = []) (raw : Bytes) :
    p.rawBody raw = some (p.bytes raw) := by
  simp [Part.rawBody, Part.bytes, single]

theorem octets_childless {p : Part} (single : p.children = []) (raw : Bytes) :
    octetsOf p raw = (p.bytes raw).length := by
  simp [octetsOf, raw_body_childless single]

theorem shows_no_text {p : Part} (message : showsMessage p = true) : isTextType p = false := by
  have named : toLower (mediaTypeOf p).1 = ascii "message/rfc822" := by
    simpa [showsMessage] using message
  rw [isTextType, named]
  decide

def foundLength (found : Option (Part × Bytes)) : Nat :=
  found.elim 0 fun pair => ((pair.1.rawBody pair.2).getD []).length

def Delivers (resolve : List Int → Option (Option (Part × Bytes)))
    (leaves : List (List Int × Nat)) : Prop :=
  ∀ leaf ∈ leaves, (resolve leaf.1).map foundLength = some leaf.2

def ShowsNone (leaves : List (List Int × Nat)) : Prop := ∀ leaf ∈ leaves, leaf.2 = 0

theorem child_numbers (children : List Shown) (index : Int) :
    ∀ leaf ∈ childOctets index children, ∃ seg path, leaf.1 = seg :: path ∧ index ≤ seg := by
  induction children generalizing index with
  | nil =>
    intro leaf member
    simp [childOctets] at member
  | cons child children ih =>
    intro leaf member
    rw [childOctets, List.mem_append] at member
    rcases member with here | later
    · obtain ⟨inner, _, rfl⟩ := List.mem_map.mp here
      exact ⟨index, inner.1, rfl, le_refl _⟩
    · obtain ⟨seg, path, named, bound⟩ := ih (index + 1) leaf later
      exact ⟨seg, path, named, by omega⟩

theorem message_numbers (shown : Shown) :
    ∀ leaf ∈ messageOctets shown, ∃ seg path, leaf.1 = seg :: path ∧ 1 ≤ seg := by
  intro leaf member
  unfold messageOctets at member
  split at member
  case isTrue multipart =>
    cases shown with
    | multipart children subtype extension =>
      rw [partOctets] at member
      exact child_numbers children 1 leaf member
    | plain | text | message => cases multipart
  case isFalse =>
    obtain ⟨inner, _, rfl⟩ := List.mem_map.mp member
    exact ⟨1, inner.1, rfl, le_refl _⟩

section

variable {parse : Bytes → Parsed} {printDate : Bytes → Option Bytes}
variable {enter : Bytes → Part → List Int → Option (Option (Part × Bytes))}
variable {shows : Bytes → Part → Option Shown} {raw : Bytes}

theorem walk_child (first : Bool) {cur child : Part} {index : Nat} (path : List Int)
    (found : cur.children[index]? = some child) :
    walkSection parse enter raw first cur (((index : Int) + 1) :: path) =
      walkSection parse enter raw false child path := by
  have proper : ¬((index : Int) + 1 < 1) := by omega
  have present : cur.children.isEmpty = false := by
    rw [List.isEmpty_eq_false_iff]
    intro none
    simp [none] at found
  have place : ((index : Int) + 1 - 1).toNat = index := by omega
  rw [walkSection, if_neg proper, present, place, found]
  rfl

theorem walk_message (first : Bool) {cur : Part} {seg : Int} {path : List Int} (proper : 1 ≤ seg)
    (single : cur.children = []) (embeds : isMessage cur = true) :
    walkSection parse enter raw first cur (seg :: path) =
      (parseNestedMessage parse cur raw).elim (some none) fun found =>
        enter found.2 found.1.body (seg :: path) := by
  rw [walkSection, if_neg (by omega), single, embeds]
  cases parseNestedMessage parse cur raw with
  | none => rfl
  | some found => rfl

theorem walk_only_leaf {cur : Part} {path : List Int} (single : cur.children = [])
    (plain : isMessage cur = false) :
    walkSection parse enter raw true cur (1 :: path) = walkSection parse enter raw false cur path := by
  rw [walkSection, if_neg (by omega), single, plain]
  simp

theorem walk_container (first : Bool) {cur : Part} (present : cur.children ≠ []) (path : List Int) :
    walkSection parse enter raw first cur path = walkSection parse enter raw false cur path := by
  have filled : cur.children.isEmpty = false := by
    rw [List.isEmpty_eq_false_iff]
    exact present
  cases path with
  | nil => rw [walkSection, walkSection]
  | cons seg path =>
    rw [walkSection, walkSection, filled]
    rfl

def EmbeddedFits (parse : Bytes → Parsed) (shows : Bytes → Part → Option Shown)
    (enter : Bytes → Part → List Int → Option (Option (Part × Bytes))) (raw : Bytes)
    (leaf : Part) : Prop :=
  ∀ nested nestedRaw, parseNestedMessage parse leaf raw = some (nested, nestedRaw) →
    ∃ inner, shows nestedRaw nested.body = some inner ∧
      (Delivers (enter nestedRaw nested.body) (messageOctets inner) ↔
        Addressed parse nestedRaw nested.body) ∧
      (ShowsNone (messageOctets inner) ↔ Silent nestedRaw nested.body)

def LeafAddressed (parse : Bytes → Parsed) (raw : Bytes) (leaf : Part) : Prop :=
  showsMessage leaf = true → ∀ nested nestedRaw,
    parseNestedMessage parse leaf raw = some (nested, nestedRaw) →
      (isMessage leaf = true → Addressed parse nestedRaw nested.body) ∧
        (isMessage leaf = false → Silent nestedRaw nested.body)

structure PartFits (parse : Bytes → Parsed)
    (enter : Bytes → Part → List Int → Option (Option (Part × Bytes)))
    (raw : Bytes) (p : Part) (shown : Shown) : Prop where
  multipart : shown.isMultipart = !p.children.isEmpty
  own : p.children = [] → ([], octetsOf p raw) ∈ partOctets shown
  delivers : Delivers (walkSection parse enter raw false p) (partOctets shown) ↔
    ∀ leaf ∈ p.leaves, LeafAddressed parse raw leaf
  silent : ShowsNone (partOctets shown) ↔ ∀ leaf ∈ p.leaves, leaf.bytes raw = []

theorem found_whole {p : Part} (single : p.children = []) (raw : Bytes) :
    foundLength (some (p, raw)) = (p.bytes raw).length := by
  simp [foundLength, raw_body_childless single]

theorem delivers_cons (resolve : List Int → Option (Option (Part × Bytes))) (leaf : List Int × Nat)
    (leaves : List (List Int × Nat)) :
    Delivers resolve (leaf :: leaves) ↔
      (resolve leaf.1).map foundLength = some leaf.2 ∧ Delivers resolve leaves := by
  simp [Delivers]

theorem shows_none_cons (leaf : List Int × Nat) (leaves : List (List Int × Nat)) :
    ShowsNone (leaf :: leaves) ↔ leaf.2 = 0 ∧ ShowsNone leaves := by
  simp [ShowsNone]

theorem leaves_childless {p : Part} (single : p.children = []) : p.leaves = [p] := by
  obtain ⟨contentType, encoding, headers, offset, length, headerOffset, headerLength, children⟩ := p
  dsimp only at single
  subst single
  simp [Part.leaves]

theorem leaf_fits {p : Part} {shown : Shown} (single : p.children = [])
    (others : List (List Int × Nat)) (plain : shown.isMultipart = false)
    (listed : partOctets shown = ([], octetsOf p raw) :: others)
    (delivered : Delivers (walkSection parse enter raw false p) others ↔ LeafAddressed parse raw p)
    (silent : p.bytes raw = [] → ShowsNone others) : PartFits parse enter raw p shown where
  multipart := by simp [plain, single]
  own _ := by simp [listed]
  delivers := by
    have here : (walkSection parse enter raw false p []).map foundLength = some (octetsOf p raw) := by
      rw [walkSection, Option.map_some, found_whole single, octets_childless single]
    rw [listed, delivers_cons, leaves_childless single, List.forall_mem_singleton, ← delivered]
    exact ⟨And.right, fun rest => ⟨here, rest⟩⟩
  silent := by
    rw [listed, shows_none_cons, leaves_childless single, List.forall_mem_singleton,
      octets_childless single, List.length_eq_zero_iff]
    exact ⟨And.left, fun empty => ⟨empty, silent empty⟩⟩

theorem single_part_fits (lost : (parse []).lost = true) (extended : Bool) {p : Part}
    (single : p.children = []) (fits : EmbeddedFits parse shows enter raw p) :
    ∃ shown, showSinglePart parse printDate shows extended raw p = some shown ∧
      PartFits parse enter raw p shown := by
  unfold showSinglePart
  by_cases text : isTextType p = true
  · rw [if_pos text]
    refine ⟨_, rfl, leaf_fits single [] rfl rfl ?_ ?_⟩
    · refine ⟨fun _ message => ?_, fun _ => by simp [Delivers]⟩
      rw [shows_no_text message] at text
      cases text
    · intro _
      simp [ShowsNone]
  rw [if_neg text]
  by_cases message : showsMessage p = true
  · rw [if_pos message]
    cases found : parseNestedMessage parse p raw with
    | none =>
      refine ⟨_, rfl, leaf_fits single [([1], 0)] rfl rfl ?_ ?_⟩
      · refine ⟨fun _ _ nested nestedRaw some => ?_, fun _ => ?_⟩
        · rw [found] at some
          cases some
        · intro leaf member
          rw [List.mem_singleton] at member
          subst member
          by_cases embeds : isMessage p = true
          · rw [walk_message false (le_refl _) single embeds, found]
            rfl
          · rw [Bool.not_eq_true] at embeds
            rw [walk_past_leaf (le_refl _) single embeds]
            rfl
      · intro _ leaf member
        rw [List.mem_singleton] at member
        rw [member]
    | some pair =>
      obtain ⟨nested, nestedRaw⟩ := pair
      obtain ⟨inner, shown, delivered, silent⟩ := fits nested nestedRaw found
      dsimp only
      rw [shown]
      refine ⟨_, rfl, leaf_fits single (messageOctets inner) rfl rfl ?_ ?_⟩
      · have numbers := message_numbers inner
        by_cases embeds : isMessage p = true
        · have same : Delivers (walkSection parse enter raw false p) (messageOctets inner) ↔
              Delivers (enter nestedRaw nested.body) (messageOctets inner) := by
            apply forall₂_congr
            intro leaf member
            obtain ⟨seg, path, number, proper⟩ := numbers leaf member
            rw [number, walk_message false proper single embeds, found]
            rfl
          rw [same, delivered]
          constructor
          · intro addressed _ other otherRaw some
            rw [found] at some
            cases some
            refine ⟨fun _ => addressed, fun plain => ?_⟩
            rw [embeds] at plain
            cases plain
          · intro addressed
            exact (addressed message nested nestedRaw found).1 embeds
        · rw [Bool.not_eq_true] at embeds
          have none : Delivers (walkSection parse enter raw false p) (messageOctets inner) ↔
              ShowsNone (messageOctets inner) := by
            apply forall₂_congr
            intro leaf member
            obtain ⟨seg, path, number, proper⟩ := numbers leaf member
            rw [number, walk_past_leaf proper single embeds]
            exact ⟨fun zero => (Option.some.inj zero).symm, fun zero => by rw [zero]; rfl⟩
          rw [none, silent]
          constructor
          · intro quiet _ other otherRaw some
            rw [found] at some
            cases some
            refine ⟨fun named => ?_, fun _ => quiet⟩
            rw [embeds] at named
            cases named
          · intro addressed
            exact (addressed message nested nestedRaw found).2 embeds
      · intro empty
        obtain ⟨rfl, kept, rfl⟩ := nested_raw found
        rw [empty, lost] at kept
        cases kept
  · rw [if_neg message]
    refine ⟨_, rfl, leaf_fits single [] rfl rfl ?_ ?_⟩
    · exact ⟨fun _ named => absurd named message, fun _ => by simp [Delivers]⟩
    · intro _
      simp [ShowsNone]

theorem children_deliver (first : Bool) (cur child : Part) (index : Nat) (shown : Shown)
    (found : cur.children[index]? = some child) :
    Delivers (walkSection parse enter raw first cur)
        ((partOctets shown).map fun leaf => (((index : Int) + 1) :: leaf.1, leaf.2)) ↔
      Delivers (walkSection parse enter raw false child) (partOctets shown) := by
  simp only [Delivers, List.forall_mem_map]
  apply forall₂_congr
  intro leaf _
  rw [walk_child first leaf.1 found]

theorem delivers_append (resolve : List Int → Option (Option (Part × Bytes)))
    (front back : List (List Int × Nat)) :
    Delivers resolve (front ++ back) ↔ Delivers resolve front ∧ Delivers resolve back := by
  simp only [Delivers, List.forall_mem_append]

theorem shows_none_append (front back : List (List Int × Nat)) :
    ShowsNone (front ++ back) ↔ ShowsNone front ∧ ShowsNone back := by
  simp only [ShowsNone, List.forall_mem_append]

structure PartsFit (parse : Bytes → Parsed)
    (enter : Bytes → Part → List Int → Option (Option (Part × Bytes)))
    (raw : Bytes) (parts : List Part) (shown : List Shown) : Prop where
  delivers : ∀ (cur : Part) (index : Nat), cur.children.drop index = parts →
    (Delivers (walkSection parse enter raw false cur) (childOctets ((index : Int) + 1) shown) ↔
      ∀ leaf ∈ leavesOf parts, LeafAddressed parse raw leaf)
  silent : ∀ index : Int, ShowsNone (childOctets index shown) ↔
    ∀ leaf ∈ leavesOf parts, leaf.bytes raw = []

theorem parts_fit_cons {part : Part} {parts : List Part} {shown : Shown} {others : List Shown}
    (first : PartFits parse enter raw part shown) (rest : PartsFit parse enter raw parts others) :
    PartsFit parse enter raw (part :: parts) (shown :: others) where
  delivers cur index placed := by
    have found : cur.children[index]? = some part := by
      have head := congrArg List.head? placed
      rwa [List.head?_drop, List.head?_cons] at head
    have behind : cur.children.drop (index + 1) = parts := by
      rw [← List.tail_drop, placed, List.tail_cons]
    have later := rest.delivers cur (index + 1) behind
    rw [Nat.cast_add, Nat.cast_one] at later
    rw [childOctets, delivers_append, children_deliver false cur part index shown found,
      first.delivers, later,
      leavesOf, List.forall_mem_append]
  silent index := by
    have here : ShowsNone ((partOctets shown).map fun leaf => (index :: leaf.1, leaf.2)) ↔
        ShowsNone (partOctets shown) := by
      simp only [ShowsNone, List.forall_mem_map]
    rw [childOctets, shows_none_append, here, first.silent, rest.silent, leavesOf,
      List.forall_mem_append]

mutual

theorem part_fits (lost : (parse []).lost = true) (extended : Bool) : (p : Part) →
    (∀ leaf ∈ p.leaves, EmbeddedFits parse shows enter raw leaf) →
    ∃ shown, showPart parse printDate shows extended raw p = some shown ∧
    PartFits parse enter raw p shown
  | ⟨contentType, encoding, headers, offset, length, headerOffset, headerLength, children⟩, fits => by
    rw [showPart]
    split
    case isTrue childless =>
      have single : children = [] := List.isEmpty_iff.mp childless
      rw [leaves_childless (by exact single), List.forall_mem_singleton] at fits
      exact single_part_fits lost extended (by exact single) fits
    case isFalse present =>
      have below := fits
      rw [Part.leaves, if_neg present] at below
      obtain ⟨shown, listed, inside⟩ := parts_fit lost extended children below
      rw [listed]
      refine ⟨_, rfl, ⟨?_, ?_, ?_, ?_⟩⟩
      · simpa [showMultipart, Shown.isMultipart] using present
      · intro single
        exact absurd (List.isEmpty_iff.mpr single) present
      · rw [Part.leaves, if_neg present, showMultipart, partOctets]
        exact inside.delivers _ 0 rfl
      · rw [Part.leaves, if_neg present, showMultipart, partOctets]
        exact inside.silent 1

theorem parts_fit (lost : (parse []).lost = true) (extended : Bool) : (parts : List Part) →
    (∀ leaf ∈ leavesOf parts, EmbeddedFits parse shows enter raw leaf) →
    ∃ shown, showParts parse printDate shows extended raw parts = some shown ∧
      PartsFit parse enter raw parts shown
  | [], _ => by
    refine ⟨[], by rw [showParts], ⟨?_, ?_⟩⟩
    · intro cur index _
      simp [childOctets, Delivers, leavesOf]
    · intro index
      simp [childOctets, ShowsNone, leavesOf]
  | part :: parts, fits => by
    rw [leavesOf, List.forall_mem_append] at fits
    obtain ⟨shown, first, inside⟩ := part_fits lost extended part fits.1
    obtain ⟨others, rest, behind⟩ := parts_fit lost extended parts fits.2
    refine ⟨shown :: others, ?_, parts_fit_cons inside behind⟩
    simp [showParts, first, rest]

end

end

section

variable {parse : Bytes → Parsed} {printDate : Bytes → Option Bytes}

theorem walk_shorter {enter : Bytes → Part → List Int → Option (Option (Part × Bytes))} {raw : Bytes}
    (filled : 0 < raw.length)
    (entered : ∀ leaf nested nestedRaw path,
      parseNestedMessage parse leaf raw = some (nested, nestedRaw) →
      ∀ found, enter nestedRaw nested.body path = some found → foundLength found < raw.length)
    (path : List Int) : ∀ (first : Bool) (cur : Part) (found : Option (Part × Bytes)),
      (∀ leaf ∈ cur.leaves, (leaf.bytes raw).length < raw.length) →
      walkSection parse enter raw first cur path = some found → foundLength found < raw.length := by
  induction path with
  | nil =>
    intro first cur found short walked
    rw [walkSection, Option.some.injEq] at walked
    subst walked
    by_cases single : cur.children = []
    · rw [found_whole single]
      apply short
      rw [leaves_childless single]
      exact List.mem_singleton_self _
    · simp [foundLength, Part.rawBody, single, filled]
  | cons seg path ih =>
    intro first cur found short walked
    have nothing : foundLength none < raw.length := filled
    rw [walkSection] at walked
    split at walked
    case isTrue =>
      cases walked
      exact nothing
    case isFalse =>
      split at walked
      case isTrue =>
        split at walked
        case h_1 child place =>
          apply ih false child found _ walked
          intro leaf member
          apply short
          exact child_leaves (List.mem_of_getElem? place) member
        case h_2 =>
          cases walked
          exact nothing
      case isFalse =>
        split at walked
        case isTrue =>
          split at walked
          case h_1 nested nestedRaw embedded =>
            exact entered cur nested nestedRaw _ embedded found walked
          case h_2 =>
            cases walked
            exact nothing
        case isFalse =>
          split at walked
          case isTrue => exact ih false cur found short walked
          case isFalse =>
            cases walked
            exact nothing

theorem section_shorter (shrinks : Shrinks parse) (fuel : Nat) : ∀ (raw : Bytes) (path : List Int)
    (found : Option (Part × Bytes)), (parse raw).lost = false →
    resolveSection parse fuel raw (parse raw).body path = some found →
    foundLength found < raw.length := by
  induction fuel with
  | zero =>
    intro raw path found _ resolved
    cases resolved
  | succ fuel ih =>
    intro raw path found kept resolved
    have short := shrinks raw kept
    have filled : 0 < raw.length := by
      rw [List.length_pos_iff]
      rintro rfl
      rw [empty_lost shrinks] at kept
      cases kept
    refine walk_shorter filled ?_ path true (parse raw).body found short resolved
    intro leaf nested nestedRaw rest embedded inner resolvedInner
    obtain ⟨rfl, keptInner, rfl⟩ := nested_raw embedded
    have shorter := ih _ rest inner keptInner resolvedInner
    exact Nat.lt_of_lt_of_le shorter (bytes_length leaf raw)

theorem addressed_multipart_iff {raw : Bytes} {root : Part} (present : root.children ≠ []) :
    Addressed parse raw root ↔ ∀ leaf ∈ root.leaves, LeafAddressed parse raw leaf := by
  constructor
  · intro addressed leaf member shown nested nestedRaw found
    cases addressed with
    | multipart _ _ _ entered closed =>
      exact ⟨fun embeds => entered leaf member shown embeds nested nestedRaw found,
        fun plain => closed leaf member shown plain nested nestedRaw found⟩
    | message _ _ single => exact absurd single present
    | single _ _ single => exact absurd single present
  · intro each
    refine .multipart raw root present ?_ ?_
    · intro leaf member shown embeds nested nestedRaw found
      exact (each leaf member shown nested nestedRaw found).1 embeds
    · intro leaf member shown plain nested nestedRaw found
      exact (each leaf member shown nested nestedRaw found).2 plain

theorem addressed_single_iff {raw : Bytes} {root : Part} (single : root.children = [])
    (plain : isMessage root = false) : Addressed parse raw root ↔ LeafAddressed parse raw root := by
  constructor
  · intro addressed shown nested nestedRaw found
    cases addressed with
    | multipart _ _ present => exact absurd single present
    | message _ _ _ embeds =>
      rw [plain] at embeds
      cases embeds
    | single _ _ _ _ closed =>
      refine ⟨fun embeds => ?_, fun _ => closed shown nested nestedRaw found⟩
      rw [plain] at embeds
      cases embeds
  · intro addressed
    exact .single raw root single plain fun shown nested nestedRaw found =>
      (addressed shown nested nestedRaw found).2 plain

theorem addressed_message_iff {raw : Bytes} {root : Part} (single : root.children = [])
    (embeds : isMessage root = true) : Addressed parse raw root ↔ root.bytes raw = [] := by
  constructor
  · intro addressed
    cases addressed with
    | multipart _ _ present => exact absurd single present
    | message _ _ _ _ empty => exact empty
    | single _ _ _ plain =>
      rw [embeds] at plain
      cases plain
  · exact .message raw root single embeds

theorem message_root_delivers {enter : Bytes → Part → List Int → Option (Option (Part × Bytes))}
    {raw : Bytes}
    {root : Part} {shown : Shown} (lost : (parse []).lost = true) (single : root.children = [])
    (embeds : isMessage root = true) (fits : PartFits parse enter raw root shown)
    (shorter : ∀ nested nestedRaw found, parseNestedMessage parse root raw = some (nested, nestedRaw) →
      enter nestedRaw nested.body [1] = some found → foundLength found < nestedRaw.length) :
    Delivers (walkSection parse enter raw true root)
      ((partOctets shown).map fun leaf => (1 :: leaf.1, leaf.2)) ↔ root.bytes raw = [] := by
  constructor
  · intro delivers
    have own := delivers _ (List.mem_map_of_mem (fits.own single))
    dsimp only at own
    rw [walk_message true (le_refl _) single embeds, octets_childless single] at own
    cases nested : parseNestedMessage parse root raw with
    | none =>
      rw [nested] at own
      exact List.length_eq_zero_iff.mp (Option.some.inj own).symm
    | some pair =>
      obtain ⟨inner, innerRaw⟩ := pair
      rw [nested, Option.elim_some, Option.map_eq_some_iff] at own
      obtain ⟨found, entered, same⟩ := own
      have less := shorter inner innerRaw found nested entered
      obtain ⟨_, _, rfl⟩ := nested_raw nested
      omega
  · intro empty
    have zero : ShowsNone (partOctets shown) := by
      rw [fits.silent, leaves_childless single, List.forall_mem_singleton]
      exact empty
    have none : parseNestedMessage parse root raw = none := by
      simp [parseNestedMessage, raw_body_childless single, empty, lost]
    intro leaf member
    obtain ⟨inner, inside, rfl⟩ := List.mem_map.mp member
    dsimp only
    rw [walk_message true (le_refl _) single embeds, none, zero inner inside]
    rfl

theorem message_octets_silent (shown : Shown) :
    ShowsNone (messageOctets shown) ↔ ShowsNone (partOctets shown) := by
  unfold messageOctets
  split
  case isTrue => rfl
  case isFalse => simp only [ShowsNone, List.forall_mem_map]

/-- In a message that was parsed, the numbers lead to the octets that are shown
exactly if the message is addressed. -/
theorem message_fits (shrinks : Shrinks parse) (extended : Bool) (fuel : Nat) : ∀ raw,
    (parse raw).lost = false → raw.length < fuel →
    ∃ shown, showStructure parse printDate fuel extended raw (parse raw).body = some shown ∧
      (Delivers (resolveSection parse fuel raw (parse raw).body) (messageOctets shown) ↔
        Addressed parse raw (parse raw).body) ∧
      (ShowsNone (messageOctets shown) ↔ Silent raw (parse raw).body) := by
  induction fuel with
  | zero =>
    intro raw _ enough
    cases enough
  | succ fuel ih =>
    intro raw kept enough
    have lost := empty_lost shrinks
    have embedded : ∀ leaf ∈ (parse raw).body.leaves, EmbeddedFits parse
        (showStructure parse printDate fuel extended) (resolveSection parse fuel) raw leaf := by
      intro leaf member nested nestedRaw found
      obtain ⟨rfl, keptInner, rfl⟩ := nested_raw found
      have short := shrinks raw kept leaf member
      exact ih _ keptInner (by omega)
    obtain ⟨shown, rendered, fits⟩ := part_fits lost extended (parse raw).body embedded
    refine ⟨shown, rendered, ?_, (message_octets_silent shown).trans fits.silent⟩
    change Delivers (walkSection parse (resolveSection parse fuel) raw true (parse raw).body) _ ↔ _
    by_cases single : (parse raw).body.children = []
    · have plainShown : ¬shown.isMultipart = true := by
        rw [fits.multipart, single]
        decide
      rw [messageOctets, if_neg plainShown]
      by_cases embeds : isMessage (parse raw).body = true
      · rw [addressed_message_iff single embeds]
        apply message_root_delivers lost single embeds fits
        intro nested nestedRaw found nestedFound resolved
        obtain ⟨rfl, keptInner, rfl⟩ := nested_raw nestedFound
        exact section_shorter shrinks fuel _ _ found keptInner resolved
      · rw [Bool.not_eq_true] at embeds
        have whole := fits.delivers
        rw [leaves_childless single, List.forall_mem_singleton] at whole
        rw [addressed_single_iff single embeds, ← whole]
        simp only [Delivers, List.forall_mem_map, walk_only_leaf single embeds]
    · have manyShown : shown.isMultipart = true := by
        rw [fits.multipart]
        simpa using single
      rw [messageOctets, if_pos manyShown, addressed_multipart_iff single, ← fits.delivers]
      simp only [Delivers, walk_container true single]

theorem fetch_blob_plain (m : StoredMessage) (blank : sanitiseHeaderValue m.receivedTo = []) :
    fetchBlob m = m.blob := by
  unfold fetchBlob injectXHeroldRecipient
  rw [blank]
  simp

theorem fetch_blob_longer (m : StoredMessage) (named : sanitiseHeaderValue m.receivedTo ≠ []) :
    m.blob.length < (fetchBlob m).length := by
  have filled : m.receivedTo ≠ [] := by
    intro empty
    rw [empty] at named
    exact named rfl
  unfold fetchBlob injectXHeroldRecipient
  rw [if_neg filled, if_neg named]
  simp only [List.length_append, List.length_cons, List.length_nil]
  omega

theorem extract_part (fuel : Nat) {raw : Bytes} (kept : (parse raw).lost = false) {number : List Int}
    (numbered : number ≠ []) :
    (extractSection parse fuel raw { part := number }).map List.length =
      (resolveSection parse fuel raw (parse raw).body number).map foundLength := by
  unfold extractSection
  rw [if_neg numbered]
  dsimp only
  rw [kept, if_neg (by decide), Option.map_map]
  congr 1
  funext found
  cases found with
  | none => rfl
  | some pair => rfl

/-- The size and the octets of a fetched message agree with its sections exactly if
the message is consistent. -/
theorem items_agree_iff (parse : Bytes → Parsed) (printDate : Bytes → Option Bytes)
    (shrinks : Shrinks parse)
    (extended : Bool) (m : StoredMessage) :
    ItemsAgree parse printDate extended m ↔ Consistent parse m := by
  unfold ItemsAgree Consistent
  dsimp only
  by_cases blank : sanitiseHeaderValue m.receivedTo = []
  case neg =>
    refine ⟨fun agree => ?_, fun consistent => absurd consistent.1 blank⟩
    have whole : (fetchBlob m).length = m.size := Option.some.inj agree.1
    have longer := fetch_blob_longer m blank
    have sized := m.sized
    omega
  case pos =>
    have whole : (extractSection parse (depthFor m.blob) m.blob {}).map List.length = some m.size := by
      rw [m.sized]
      rfl
    rw [fetch_blob_plain m blank, and_iff_right whole, and_iff_right blank]
    by_cases kept : (parse m.blob).lost = false
    case neg =>
      rw [Bool.not_eq_false] at kept
      have one : (extractSection parse (depthFor m.blob) m.blob { part := [1] }).map List.length =
        some 0 := by
        simp [extractSection, kept]
      simp only [showMessage, kept, if_true, Option.some.injEq, exists_eq_left']
      have listed : messageOctets (unparsed m.blob) = [([1], m.blob.length)] := rfl
      rw [listed, List.forall_mem_singleton, one, Option.some.injEq, eq_comm, List.length_eq_zero_iff]
    case pos =>
      have fuel : m.blob.length < depthFor m.blob := by
        unfold depthFor
        omega
      obtain ⟨shown, rendered, delivered, _⟩ := @message_fits parse printDate shrinks extended
        (depthFor m.blob) m.blob kept fuel
      simp only [showMessage, kept, Bool.false_eq_true, if_false, rendered, Option.some.injEq,
        exists_eq_left']
      rw [← delivered]
      apply forall₂_congr
      intro leaf member
      obtain ⟨seg, path, number, _⟩ := message_numbers shown leaf member
      rw [extract_part (depthFor m.blob) kept (by rw [number]; exact List.cons_ne_nil _ _)]

end

def plainMessage : StoredMessage := ⟨plainRaw, 10, [], by decide⟩

def pairRaw : Bytes :=
  ascii "Content-Type: multipart/mixed; boundary=b\r\n\r\n--b\r\n\r\nhi\r\n--b\r\n\r\nyou\r\n--b--\r\n"

def pairChild (offset length : Nat) : Part where
  contentType := ascii "text/plain"
  contentTransferEncoding := []
  headers := ⟨[]⟩
  rawOffset := offset
  rawLen := length
  rawHeaderOffset := offset - 2
  rawHeaderLen := 2
  children := []

def pairPart : Part where
  contentType := ascii "multipart/mixed"
  contentTransferEncoding := []
  headers := ⟨[(ascii "Content-Type", ascii "multipart/mixed; boundary=b")]⟩
  rawOffset := 45
  rawLen := 30
  rawHeaderOffset := 0
  rawHeaderLen := 45
  children := [pairChild 52 2, pairChild 63 3]

/-- The parser's answers to the two messages at hand. -/
def pairParse (raw : Bytes) : Parsed := if raw = pairRaw then { body := pairPart } else plainParse raw

def pairMessage : StoredMessage := ⟨pairRaw, 75, [], by decide⟩

theorem pair_leaves : pairPart.leaves = [pairChild 52 2, pairChild 63 3] := rfl

theorem pair_parse_shrinks : Shrinks pairParse := by
  intro raw kept leaf member
  unfold pairParse at kept member
  split at kept
  case isTrue same =>
    subst same
    rw [if_pos rfl, pair_leaves] at member
    rcases List.mem_pair.mp member with rfl | rfl
    · decide
    · decide
  case isFalse other =>
    rw [if_neg other] at member
    exact plain_parse_shrinks raw kept leaf member

theorem plain_message_consistent : Shrinks pairParse ∧
    (Consistent pairParse plainMessage ∧ ItemsAgree pairParse (fun _ => none) true plainMessage) ∧
    Consistent pairParse pairMessage ∧ ItemsAgree pairParse (fun _ => none) true pairMessage := by
  have single : Consistent pairParse plainMessage := by
    have parsed : pairParse plainRaw = { body := plainPart } := rfl
    have other : (pairParse (plainPart.bytes plainRaw)).lost = true := by decide
    have blob : plainMessage.blob = plainRaw := rfl
    refine ⟨rfl, ?_⟩
    rw [blob, parsed, if_neg (by decide)]
    refine .single plainRaw plainPart rfl (by decide) fun _ nested nestedRaw found => ?_
    obtain ⟨rfl, parsedInner, rfl⟩ := nested_raw found
    rw [other] at parsedInner
    cases parsedInner
  have several : Consistent pairParse pairMessage := by
    have parsed : pairParse pairRaw = { body := pairPart } := if_pos rfl
    have blob : pairMessage.blob = pairRaw := rfl
    have texts : ∀ leaf ∈ pairPart.leaves, showsMessage leaf = false := by
      rw [pair_leaves]
      decide
    refine ⟨rfl, ?_⟩
    rw [blob, parsed, if_neg (by decide)]
    refine .multipart pairRaw pairPart (by decide) ?_ ?_
    · intro leaf member shows
      rw [texts leaf member] at shows
      cases shows
    · intro leaf member shows
      rw [texts leaf member] at shows
      cases shows
  exact ⟨pair_parse_shrinks,
    ⟨single, (items_agree_iff pairParse (fun _ => none) pair_parse_shrinks true plainMessage).mpr
      single⟩,
    several, (items_agree_iff pairParse (fun _ => none) pair_parse_shrinks true pairMessage).mpr
      several⟩

def deliveredMessage : StoredMessage := ⟨plainRaw, 10, ascii "a@b", by decide⟩

theorem delivered_message_disagrees :
    Shrinks plainParse ∧ ¬ItemsAgree plainParse (fun _ => none) true deliveredMessage := by
  refine ⟨plain_parse_shrinks, fun agree => ?_⟩
  have whole : (fetchBlob deliveredMessage).length = deliveredMessage.size := Option.some.inj agree.1
  have longer := fetch_blob_longer deliveredMessage (by decide +kernel)
  have sized := deliveredMessage.sized
  omega

end Herold.BodyStructure

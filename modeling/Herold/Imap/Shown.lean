import Herold.Imap.Structure

/-!
# What ENVELOPE and BODYSTRUCTURE show

A shown structure is what a client learns from a rendered one: the nodes of the tree
with the values that headers supply. The rendered text is read as the list of these
values and of nothing else, whatever bytes they hold.
-/

namespace Herold.BodyStructure

open Herold.Go Herold.Imap

mutual

def shape : Datum → Datum
  | .nil => .nil
  | .number _ => .number 0
  | .string _ => .string []
  | .list items => .list (shapes items)

def shapes : List Datum → List Datum
  | [] => []
  | item :: items => shape item :: shapes items

end

mutual

def stringsOf : Datum → List Bytes
  | .nil => []
  | .number _ => []
  | .string value => [value]
  | .list items => stringsOfAll items

def stringsOfAll : List Datum → List Bytes
  | [] => []
  | item :: items => stringsOf item ++ stringsOfAll items

end

theorem shapes_eq (items : List Datum) : shapes items = items.map shape := by
  induction items with
  | nil => rfl
  | cons item items ih => rw [shapes, ih, List.map_cons]

theorem strings_of_all_eq (items : List Datum) : stringsOfAll items = items.flatMap stringsOf := by
  induction items with
  | nil => rfl
  | cons item items ih => rw [stringsOfAll, ih, List.flatMap_cons]

@[simp] theorem shape_list (items : List Datum) : shape (.list items) = .list (items.map shape) := by
  rw [shape, shapes_eq]

@[simp] theorem strings_of_list (items : List Datum) :
    stringsOf (.list items) = items.flatMap stringsOf := by
  rw [stringsOf, strings_of_all_eq]

attribute [simp] shape.eq_1 shape.eq_2 shape.eq_3 stringsOf.eq_1 stringsOf.eq_2 stringsOf.eq_3

def blank (value : Bytes) : Bytes := if value = [] then [] else [0]

def filled (value : Bytes) : List Bytes := if value = [] then [] else [value]

def nstring (value : Bytes) : Datum := if value = [] then .nil else .string value

@[simp] theorem shape_nstring (value : Bytes) :
    shape (nstring (blank value)) = shape (nstring value) := by
  by_cases empty : value = []
  · simp [nstring, blank, empty]
  · simp [nstring, blank, empty]

@[simp] theorem strings_of_nstring (value : Bytes) : stringsOf (nstring value) = filled value := by
  by_cases empty : value = []
  · simp [nstring, filled, empty]
  · simp [nstring, filled, empty]

theorem quote_reads (text : Bytes) : Reads (imapQuote text) (.string text) := by
  unfold imapQuote
  split
  case isTrue => exact reads_literal text
  case isFalse quiet =>
    apply reads_quoted
    intro byte member
    simp only [containsAny, List.any_eq_true, decide_eq_true_eq, not_exists, not_and] at quiet
    have outside := quiet byte member
    simp only [List.mem_cons, List.not_mem_nil, or_false, not_or] at outside
    exact ⟨outside.1, outside.2.2, outside.2.1⟩

theorem nstring_reads (text : Bytes) : Reads (imapNString text) (nstring text) := by
  unfold imapNString nstring
  split
  case isTrue => exact reads_nil
  case isFalse => exact quote_reads text

namespace Address

def items (address : Address) : List Datum :=
  [nstring address.name, .nil, nstring address.mailbox, nstring address.host]

def outline (address : Address) : Address :=
  ⟨blank address.name, blank address.mailbox, blank address.host⟩

def values (address : Address) : List Bytes :=
  filled address.name ++ filled address.mailbox ++ filled address.host

end Address

def addressData (addrs : List Address) : Datum :=
  if addrs = [] then .nil else .list (addrs.map fun address => .list address.items)

namespace Envelope

def items (e : Envelope) : List Datum :=
  [e.date.elim .nil .string, nstring e.subject, addressData e.fromAddrs, addressData e.sender,
    addressData e.replyTo, addressData e.toAddrs, addressData e.cc, addressData e.bcc,
    nstring ([32].intercalate e.inReplyTo), nstring e.messageID]

/-- The envelope with its addresses and of its values only which are empty. -/
def outline (e : Envelope) : Envelope where
  date := e.date.map blank
  subject := blank e.subject
  fromAddrs := e.fromAddrs.map Address.outline
  sender := e.sender.map Address.outline
  replyTo := e.replyTo.map Address.outline
  toAddrs := e.toAddrs.map Address.outline
  cc := e.cc.map Address.outline
  bcc := e.bcc.map Address.outline
  inReplyTo := [blank ([32].intercalate e.inReplyTo)]
  messageID := blank e.messageID

def values (e : Envelope) : List Bytes :=
  e.date.toList ++ filled e.subject ++
    (e.fromAddrs ++ e.sender ++ e.replyTo ++ e.toAddrs ++ e.cc ++ e.bcc).flatMap Address.values ++
      filled ([32].intercalate e.inReplyTo) ++ filled e.messageID

end Envelope

theorem address_reads (address : Address) : Reads (formatAddress address) (.list address.items) := by
  apply parens_reads
  exact .cons (nstring_reads _)
    (.cons reads_nil (.cons (nstring_reads _) (.cons (nstring_reads _) .nil)))

theorem addr_list_reads (addrs : List Address) : Reads (formatAddrList addrs) (addressData addrs) := by
  unfold formatAddrList addressData
  split
  case isTrue => exact reads_nil
  case isFalse filled =>
    have each : List.Forall₂ Reads (addrs.map formatAddress)
        (addrs.map fun address => Datum.list address.items) := by
      rw [List.forall₂_map_left_iff, List.forall₂_map_right_iff, List.forall₂_same]
      exact fun address _ => address_reads address
    obtain ⟨first, rest, rfl⟩ := List.exists_cons_of_ne_nil filled
    exact parens_reads each

theorem envelope_reads (e : Envelope) : Reads (formatEnvelope e) (.list e.items) := by
  have date : Reads (e.date.elim nilText imapQuote) (e.date.elim .nil .string) := by
    cases e.date with
    | none => exact reads_nil
    | some text => exact quote_reads text
  have reply : Reads (if e.inReplyTo ≠ [] then imapNString ([32].intercalate e.inReplyTo) else nilText)
      (nstring ([32].intercalate e.inReplyTo)) := by
    split
    case isTrue => exact nstring_reads _
    case isFalse empty =>
      rw [not_not] at empty
      rw [empty]
      exact reads_nil
  apply parens_reads
  exact .cons date (.cons (nstring_reads _) (.cons (addr_list_reads _) (.cons (addr_list_reads _)
    (.cons (addr_list_reads _) (.cons (addr_list_reads _) (.cons (addr_list_reads _)
      (.cons (addr_list_reads _) (.cons reply (.cons (nstring_reads _) .nil)))))))))

@[simp] theorem shape_addresses (addrs : List Address) :
    shape (addressData (addrs.map Address.outline)) = shape (addressData addrs) := by
  cases addrs with
  | nil => rfl
  | cons first rest => simp [addressData, Address.items, Address.outline, Function.comp_def]

@[simp] theorem strings_of_addresses (addrs : List Address) :
    stringsOf (addressData addrs) = addrs.flatMap Address.values := by
  cases addrs with
  | nil => rfl
  | cons first rest =>
    have each : (fun address : Address => stringsOf (.list address.items)) = Address.values := by
      funext address
      simp [Address.items, Address.values]
    rw [addressData, if_neg (List.cons_ne_nil _ _), strings_of_list, List.flatMap_map, each]

theorem envelope_shape (e : Envelope) : shape (.list e.outline.items) = shape (.list e.items) := by
  have date : shape (e.outline.date.elim .nil .string) = shape (e.date.elim .nil .string) := by
    cases shown : e.date with
    | none => simp [Envelope.outline, shown]
    | some text => simp [Envelope.outline, shown]
  simp only [Envelope.items, shape_list, List.map_cons, List.map_nil, date]
  simp [Envelope.outline]

theorem envelope_strings (e : Envelope) : stringsOf (.list e.items) = e.values := by
  have date : stringsOf (e.date.elim .nil .string) = e.date.toList := by
    cases e.date with
    | none => rfl
    | some text => rfl
  simp [Envelope.items, Envelope.values, date]

abbrev Disposition := Option (Bytes × Params)

structure Basic where
  typ : Bytes
  subtype : Bytes
  params : Params
  id : Bytes
  description : Bytes
  encoding : Bytes
  octets : Nat

/-- A rendered node; `none` for the extension where the short form is rendered. -/
inductive Shown where
  | multipart (children : List Shown) (subtype : Bytes) (extension : Option (Params × Disposition))
  | plain (basic : Basic) (extension : Option Disposition)
  | text (basic : Basic) (lines : Nat) (extension : Option Disposition)
  | message (basic : Basic) (envelope : Option Envelope) (body : Shown) (lines : Nat)
      (extension : Option Disposition)

def paramsDatum (params : Params) : Datum :=
  if params = [] then .nil
  else .list (params.flatMap fun entry => [.string (toUpper entry.1), .string entry.2])

def dispositionDatum : Disposition → Datum
  | none => .nil
  | some (dtype, dparams) => .list [.string (toUpper dtype), paramsDatum dparams]

def extensionItems : Option Disposition → List Datum
  | none => []
  | some disposition => [.nil, dispositionDatum disposition, .nil, .nil]

def multipartItems : Option (Params × Disposition) → List Datum
  | none => []
  | some (params, disposition) => [paramsDatum params, dispositionDatum disposition, .nil, .nil]

def Basic.items (basic : Basic) : List Datum :=
  [.string (toUpper basic.typ), .string (toUpper basic.subtype), paramsDatum basic.params,
    nstring basic.id,
    nstring basic.description, .string basic.encoding, .number basic.octets]

def envelopeDatum : Option Envelope → Datum
  | none => .nil
  | some e => .list e.items

mutual

def Shown.items : Shown → List Datum
  | .multipart children subtype extension =>
    childItems children ++ .string (toUpper subtype) :: multipartItems extension
  | .plain basic extension => basic.items ++ extensionItems extension
  | .text basic lines extension => basic.items ++ [.number lines] ++ extensionItems extension
  | .message basic envelope body lines extension =>
    basic.items ++ [envelopeDatum envelope, .list body.items, .number lines] ++ extensionItems extension

def childItems : List Shown → List Datum
  | [] => []
  | child :: children => .list child.items :: childItems children

end

theorem child_items_eq (children : List Shown) :
    childItems children = (children.map Shown.items).map .list := by
  induction children with
  | nil => rfl
  | cons child children ih => rw [childItems, ih, List.map_cons, List.map_cons]

def basicOf (p : Part) (raw : Bytes) : Basic where
  typ := (typeOf p).1
  subtype := (typeOf p).2
  params := sortedParams (mediaTypeOf p).2
  id := p.headers.get (ascii "Content-Id")
  description := p.headers.get (ascii "Content-Description")
  encoding := encodingOf p
  octets := octetsOf p raw

def dispositionShown (p : Part) : Disposition :=
  (dispositionOf p).map fun named => (named.1, sortedParams named.2)

def extensionShown (extended : Bool) (p : Part) : Option Disposition :=
  if extended then some (dispositionShown p) else none

def unreadable : Shown := .text ⟨ascii "TEXT", ascii "PLAIN", [], [], [], ascii "7BIT", 0⟩ 0 none

section

variable (parse : Bytes → Parsed) (printDate : Bytes → Option Bytes)

def showSinglePart (embedded : Bytes → Part → Option Shown) (extended : Bool) (raw : Bytes) (p : Part) :
    Option Shown :=
  let basic := basicOf p raw
  let extension := extensionShown extended p
  if isTextType p then some (.text basic (linesOf ((p.rawBody raw).getD [])) extension)
  else if showsMessage p then
    match parseNestedMessage parse p raw with
    | none => some (.message basic none unreadable 0 extension)
    | some (nested, nestedRaw) =>
      (embedded nestedRaw nested.body).map fun inner =>
        .message basic (some (convertMailparseEnvelope printDate nested.envelope)) inner
          (linesOf nestedRaw) extension
  else some (.plain basic extension)

def showMultipart (extended : Bool) (p : Part) (children : List Shown) : Shown :=
  .multipart children (splitTypeSubtype p.contentType).2
    (if extended then
      some (sortedParams (splitMediaType (p.headers.get (ascii "Content-Type"))).2, dispositionShown p)
    else none)

mutual

def showPart (embedded : Bytes → Part → Option Shown) (extended : Bool) (raw : Bytes) :
    Part → Option Shown
  | ⟨contentType, encoding, headers, offset, length, headerOffset, headerLength, children⟩ =>
    let p : Part := ⟨contentType, encoding, headers, offset, length, headerOffset,
      headerLength, children⟩
    if children.isEmpty then showSinglePart parse printDate embedded extended raw p
    else (showParts embedded extended raw children).map (showMultipart extended p)

def showParts (embedded : Bytes → Part → Option Shown) (extended : Bool) (raw : Bytes) :
    List Part → Option (List Shown)
  | [] => some []
  | part :: parts => do
      let shown ← showPart embedded extended raw part
      let others ← showParts embedded extended raw parts
      some (shown :: others)

end

def showStructure : Nat → Bool → Bytes → Part → Option Shown
  | 0, _, _, _ => none
  | fuel + 1, extended, raw, p => showPart parse printDate (showStructure fuel extended) extended raw p

end

def paramValues (params : Params) : List Bytes := params.flatMap fun entry => [toUpper entry.1, entry.2]

def dispositionValues : Disposition → List Bytes
  | none => []
  | some (dtype, dparams) => toUpper dtype :: paramValues dparams

def Basic.values (basic : Basic) : List Bytes :=
  toUpper basic.typ :: toUpper basic.subtype :: paramValues basic.params ++ filled basic.id ++
    filled basic.description ++ [basic.encoding]

def extensionValues (extension : Option Disposition) : List Bytes := extension.elim [] dispositionValues

mutual

/-- The values that a structure shows, in upper case where they are shown so. -/
def Shown.values : Shown → List Bytes
  | .multipart children subtype extension =>
    childValues children ++ toUpper subtype ::
      extension.elim [] fun pair => paramValues pair.1 ++ dispositionValues pair.2
  | .plain basic extension => basic.values ++ extensionValues extension
  | .text basic _ extension => basic.values ++ extensionValues extension
  | .message basic envelope body _ extension =>
    basic.values ++ envelope.elim [] Envelope.values ++ body.values ++ extensionValues extension

def childValues : List Shown → List Bytes
  | [] => []
  | child :: children => child.values ++ childValues children

end

def paramsOutline (params : Params) : Params := params.map fun entry => (blank entry.1, blank entry.2)

def dispositionOutline (disposition : Disposition) : Disposition :=
  disposition.map fun named => (blank named.1, paramsOutline named.2)

def Basic.outline (basic : Basic) : Basic where
  typ := blank basic.typ
  subtype := blank basic.subtype
  params := paramsOutline basic.params
  id := blank basic.id
  description := blank basic.description
  encoding := blank basic.encoding
  octets := 0

mutual

def Shown.outline : Shown → Shown
  | .multipart children subtype extension =>
    .multipart (outlines children) (blank subtype)
      (extension.map fun pair => (paramsOutline pair.1, dispositionOutline pair.2))
  | .plain basic extension => .plain basic.outline (extension.map dispositionOutline)
  | .text basic _ extension => .text basic.outline 0 (extension.map dispositionOutline)
  | .message basic envelope body _ extension =>
    .message basic.outline (envelope.map Envelope.outline) body.outline 0
      (extension.map dispositionOutline)

def outlines : List Shown → List Shown
  | [] => []
  | child :: children => child.outline :: outlines children

end

@[simp] theorem strings_of_params (params : Params) :
    stringsOf (paramsDatum params) = paramValues params := by
  cases params with
  | nil => rfl
  | cons first rest => simp [paramsDatum, paramValues, List.flatMap_assoc]

@[simp] theorem strings_of_disposition (disposition : Disposition) :
    stringsOf (dispositionDatum disposition) = dispositionValues disposition := by
  cases disposition with
  | none => rfl
  | some named => simp [dispositionDatum, dispositionValues]

theorem extension_strings (extension : Option Disposition) :
    (extensionItems extension).flatMap stringsOf = extensionValues extension := by
  cases extension with
  | none => rfl
  | some disposition => simp [extensionItems, extensionValues]

theorem multipart_strings (extension : Option (Params × Disposition)) :
    (multipartItems extension).flatMap stringsOf =
      extension.elim [] fun pair => paramValues pair.1 ++ dispositionValues pair.2 := by
  cases extension with
  | none => rfl
  | some pair => simp [multipartItems]

theorem basic_strings (basic : Basic) : basic.items.flatMap stringsOf = basic.values := by
  simp [Basic.items, Basic.values]

@[simp] theorem envelope_datum_strings (envelope : Option Envelope) :
    stringsOf (envelopeDatum envelope) = envelope.elim [] Envelope.values := by
  cases envelope with
  | none => rfl
  | some e => exact envelope_strings e

mutual

theorem shown_strings : (shown : Shown) → shown.items.flatMap stringsOf = shown.values
  | .multipart children subtype extension => by
    simp [Shown.items, Shown.values, child_strings children, multipart_strings]
  | .plain basic extension => by
    simp [Shown.items, Shown.values, basic_strings, extension_strings]
  | .text basic lines extension => by
    simp [Shown.items, Shown.values, basic_strings, extension_strings]
  | .message basic envelope body lines extension => by
    simp [Shown.items, Shown.values, basic_strings, extension_strings, shown_strings body]

theorem child_strings : (children : List Shown) →
    (childItems children).flatMap stringsOf = childValues children
  | [] => rfl
  | child :: children => by
    simp [childItems, childValues, shown_strings child, child_strings children]

end

@[simp] theorem shape_params (params : Params) :
    shape (paramsDatum (paramsOutline params)) = shape (paramsDatum params) := by
  cases params with
  | nil => rfl
  | cons first rest => simp [paramsDatum, paramsOutline, List.map_flatMap, List.flatMap_map]

@[simp] theorem shape_disposition (disposition : Disposition) :
    shape (dispositionDatum (dispositionOutline disposition)) =
      shape (dispositionDatum disposition) := by
  cases disposition with
  | none => rfl
  | some named => simp [dispositionDatum, dispositionOutline]

theorem extension_shape (extension : Option Disposition) :
    (extensionItems (extension.map dispositionOutline)).map shape =
      (extensionItems extension).map shape := by
  cases extension with
  | none => rfl
  | some disposition => simp [extensionItems]

theorem multipart_shape (extension : Option (Params × Disposition)) :
    (multipartItems (extension.map fun pair =>
      (paramsOutline pair.1, dispositionOutline pair.2))).map shape =
      (multipartItems extension).map shape := by
  cases extension with
  | none => rfl
  | some pair => simp [multipartItems]

theorem basic_shape (basic : Basic) : basic.outline.items.map shape = basic.items.map shape := by
  simp [Basic.items, Basic.outline]

@[simp] theorem envelope_datum_shape (envelope : Option Envelope) :
    shape (envelopeDatum (envelope.map Envelope.outline)) = shape (envelopeDatum envelope) := by
  cases envelope with
  | none => rfl
  | some e => exact envelope_shape e

mutual

theorem shown_shape : (shown : Shown) → shown.outline.items.map shape = shown.items.map shape
  | .multipart children subtype extension => by
    simp [Shown.items, Shown.outline, child_shape children, multipart_shape]
  | .plain basic extension => by
    simp [Shown.items, Shown.outline, basic_shape, extension_shape]
  | .text basic lines extension => by
    simp [Shown.items, Shown.outline, basic_shape, extension_shape]
  | .message basic envelope body lines extension => by
    simp [Shown.items, Shown.outline, basic_shape, extension_shape, shown_shape body]

theorem child_shape : (children : List Shown) →
    (childItems (outlines children)).map shape = (childItems children).map shape
  | [] => rfl
  | child :: children => by
    simp [childItems, outlines, shown_shape child, child_shape children]

end

theorem params_reads (params : Params) :
    Reads (formatMimeParams params) (paramsDatum (sortedParams params)) := by
  have sorted : sortedParams params = [] ↔ params = [] := by
    rw [← List.length_eq_zero_iff, sortedParams, List.length_insertionSort, List.length_eq_zero_iff]
  unfold formatMimeParams paramsDatum
  by_cases empty : params = []
  · rw [if_pos empty, if_pos (sorted.mpr empty)]
    exact reads_nil
  · rw [if_neg empty, if_neg (fun none => empty (sorted.mp none))]
    have each : ∀ entries : Params, List.Forall₂ Reads
        (entries.flatMap fun entry => [imapQuote (toUpper entry.1), imapQuote entry.2])
        (entries.flatMap fun entry => [Datum.string (toUpper entry.1), Datum.string entry.2]) := by
      intro entries
      induction entries with
      | nil => exact .nil
      | cons entry entries ih => exact .cons (quote_reads _) (.cons (quote_reads _) ih)
    obtain ⟨first, rest, listed⟩ := List.exists_cons_of_ne_nil (fun none => empty (sorted.mp none))
    have all := each (sortedParams params)
    rw [listed] at all ⊢
    exact parens_reads all

theorem disposition_reads (p : Part) :
    Reads (formatDisposition p) (dispositionDatum (dispositionShown p)) := by
  unfold formatDisposition dispositionShown
  cases dispositionOf p with
  | none => exact reads_nil
  | some named => exact parens_reads (.cons (quote_reads _) (.cons (params_reads _) .nil))

theorem basic_reads (p : Part) (raw : Bytes) :
    List.Forall₂ Reads (basicItems p raw) (basicOf p raw).items := by
  unfold basicItems basicOf Basic.items
  dsimp only
  exact .cons (quote_reads _) (.cons (quote_reads _) (.cons (params_reads _) (.cons (nstring_reads _)
    (.cons (nstring_reads _) (.cons (quote_reads _) (.cons (reads_number _) .nil))))))

theorem extension_reads (extended : Bool) (p : Part) :
    List.Forall₂ Reads (if extended then [nilText, formatDisposition p, nilText, nilText] else [])
      (extensionItems (extensionShown extended p)) := by
  cases extended with
  | false => exact .nil
  | true => exact .cons reads_nil (.cons (disposition_reads p) (.cons reads_nil (.cons reads_nil .nil)))

def isQuotable (text : Bytes) : Bool := text.all fun byte => 34 < byte && byte ≠ 92

theorem constant_reads (text : Bytes) (quotable : isQuotable text = true) :
    Reads (quoted text) (.string text) := by
  have each : ∀ byte ∈ text, 34 < byte ∧ byte ≠ 92 := by
    intro byte member
    have here := List.all_eq_true.mp quotable byte member
    simpa using here
  have kept : escaped text = text := by
    rw [escaped, List.flatMap_congr (g := fun byte => [byte]), List.flatMap_singleton']
    intro byte member
    have here := each byte member
    have other : ¬(byte = 34 ∨ byte = 92) := by
      rintro (rfl | special)
      · exact absurd here.1 (by decide)
      · exact here.2 special
    rw [if_neg other]
  have reads := reads_quoted text (by
    intro byte member
    have here := (each byte member).1
    refine ⟨?_, ?_, ?_⟩ <;> rintro rfl <;> exact absurd here (by decide))
  rw [kept] at reads
  exact reads

theorem constant_upper (text : Bytes) (capital : (text.all fun byte => byte < 91) = true) :
    toUpper text = text := by
  induction text with
  | nil => rfl
  | cons first text ih =>
    rw [List.all_cons, Bool.and_eq_true, decide_eq_true_eq] at capital
    have bound : first.toNat < 91 := capital.1
    have same : toUpperRune first.toNat = first.toNat := by
      have low : first.toNat < 0x80 := by omega
      have small : (decide (0x61 ≤ first.toNat) && decide (first.toNat ≤ 0x7A)) = false := by
        rw [Bool.and_eq_false_iff, decide_eq_false_iff_not]
        exact .inl (by omega)
      rw [toUpperRune, if_pos low, small]
      rfl
    have small : first < 0x80 := by
      rw [UInt8.lt_iff_toNat_lt]
      exact Nat.lt_trans bound (by decide)
    have written : encodeRune first.toNat = [first] := by
      have low : first.toNat < 0x80 := small
      simp [encodeRune, low]
    rw [toUpper, map_runes_ascii_cons _ _ _ small, same, written]
    exact congrArg (first :: ·) (ih capital.2)

theorem unreadable_reads : Reads unreadableText (.list unreadable.items) := by
  have items : unreadable.items = [.string (ascii "TEXT"), .string (ascii "PLAIN"), .nil, .nil, .nil,
      .string (ascii "7BIT"), .number 0, .number 0] := by
    have typ := constant_upper (ascii "TEXT") (by decide)
    have subtype := constant_upper (ascii "PLAIN") (by decide)
    simp [unreadable, Shown.items, Basic.items, extensionItems, typ, subtype, paramsDatum, nstring]
  rw [items]
  apply parens_reads
  exact .cons (constant_reads _ (by decide)) (.cons (constant_reads _ (by decide)) (.cons reads_nil
    (.cons reads_nil (.cons reads_nil (.cons (constant_reads _ (by decide)) (.cons (reads_number 0)
      (.cons (reads_number 0) .nil)))))))

def Part.bytes (p : Part) (raw : Bytes) : Bytes := sectionOf raw p.rawOffset p.rawLen

mutual

def Part.leaves : Part → List Part
  | ⟨contentType, encoding, headers, offset, length, headerOffset, headerLength, children⟩ =>
    if children.isEmpty then
      [⟨contentType, encoding, headers, offset, length, headerOffset, headerLength, children⟩]
    else leavesOf children

def leavesOf : List Part → List Part
  | [] => []
  | part :: parts => part.leaves ++ leavesOf parts

end

/-- Parsing puts the header of a message before its parts: each of them is shorter
than the message. -/
def Shrinks (parse : Bytes → Parsed) : Prop :=
  ∀ raw, (parse raw).lost = false →
    ∀ leaf ∈ (parse raw).body.leaves, (leaf.bytes raw).length < raw.length

def Displays : Option Bytes → Option Shown → Prop :=
  Option.Rel fun text shown => Reads text (.list shown.items)

section

variable (parse : Bytes → Parsed) (printDate : Bytes → Option Bytes)
variable {rendered : Bytes → Part → Option Bytes} {shows : Bytes → Part → Option Shown}

theorem single_part_displays (embedded : ∀ raw p, Displays (rendered raw p) (shows raw p))
    (extended : Bool)
    (raw : Bytes) (p : Part) :
    Displays (renderSinglePartStructure parse printDate rendered extended raw p)
      (showSinglePart parse printDate shows extended raw p) := by
  have close : ∀ {items : List Bytes} {data : List Datum}, List.Forall₂ Reads items data →
      Reads (parens (basicItems p raw ++ items ++
        if extended then [nilText, formatDisposition p, nilText, nilText] else []))
        (.list ((basicOf p raw).items ++ data ++ extensionItems (extensionShown extended p))) := by
    intro items data reads
    exact parens_reads (List.rel_append (List.rel_append (basic_reads p raw) reads)
      (extension_reads extended p))
  unfold renderSinglePartStructure showSinglePart typeItems
  by_cases text : isTextType p = true
  · rw [if_pos text, if_pos text]
    exact .some (close (.cons (reads_number _) .nil))
  rw [if_neg text, if_neg text]
  by_cases message : showsMessage p = true
  · rw [if_pos message, if_pos message]
    cases nested : parseNestedMessage parse p raw with
    | none => exact .some (close (.cons reads_nil (.cons unreadable_reads (.cons (reads_number _) .nil))))
    | some found =>
      have inner := embedded found.2 found.1.body
      dsimp only
      generalize rendered found.2 found.1.body = written at inner ⊢
      generalize shows found.2 found.1.body = shown at inner ⊢
      cases inner with
      | none => exact .none
      | some reads => exact .some (close (.cons (envelope_reads _) (.cons reads (.cons (reads_number _) .nil))))
  · rw [if_neg message, if_neg message]
    have plain := close .nil
    rw [List.append_nil] at plain
    exact .some plain

theorem multipart_displays (extended : Bool) (p : Part) {texts : List Bytes} {children : List Shown}
    (present : texts ≠ [])
    (reads : List.Forall₂ (fun text shown => Reads text (.list (Shown.items shown))) texts children) :
    Reads (renderMultipartStructure extended p texts)
      (.list (showMultipart extended p children).items) := by
  have lists : List.Forall₂ (fun text list => Reads text (.list list)) texts
    (children.map Shown.items) := by
    rw [List.forall₂_map_right_iff]
    exact reads
  have rest : List.Forall₂ Reads
      (if extended then
        [formatMimeParams (splitMediaType (p.headers.get (ascii "Content-Type"))).2,
          formatDisposition p,
          nilText, nilText]
      else [])
      (multipartItems (if extended then
        some (sortedParams (splitMediaType (p.headers.get (ascii "Content-Type"))).2,
          dispositionShown p)
      else none)) := by
    cases extended with
    | false => exact .nil
    | true => exact .cons (params_reads _) (.cons (disposition_reads p) (.cons reads_nil (.cons reads_nil .nil)))
  have whole := adjacent_list_reads present lists
    (trailing_reads (.cons (quote_reads (toUpper (splitTypeSubtype p.contentType).2)) rest))
  rw [← child_items_eq] at whole
  exact whole

mutual

theorem part_displays (embedded : ∀ raw p, Displays (rendered raw p) (shows raw p)) (extended : Bool)
    (raw : Bytes) : (p : Part) → Displays (renderPart parse printDate rendered extended raw p)
      (showPart parse printDate shows extended raw p)
  | ⟨contentType, encoding, headers, offset, length, headerOffset, headerLength, children⟩ => by
    rw [renderPart, showPart]
    split
    case isTrue => exact single_part_displays parse printDate embedded extended raw _
    case isFalse present =>
      rcases parts_display embedded extended raw
        children with ⟨none, nothing⟩ | ⟨texts, shown, some, all, each⟩
      · rw [none, nothing]
        exact .none
      · rw [some, all]
        refine .some (multipart_displays extended _ ?_ each.1)
        intro empty
        have same := each.2
        rw [empty] at same
        exact present (by simpa using same.symm)

theorem parts_display (embedded : ∀ raw p, Displays (rendered raw p) (shows raw p)) (extended : Bool)
    (raw : Bytes) : (parts : List Part) →
    (renderParts parse printDate rendered extended raw parts = none ∧
      showParts parse printDate shows extended raw parts = none) ∨
    ∃ texts children, renderParts parse printDate rendered extended raw parts = some texts ∧
      showParts parse printDate shows extended raw parts = some children ∧
      List.Forall₂ (fun text shown => Reads text (.list (Shown.items shown))) texts children ∧
      texts.length = parts.length
  | [] => .inr ⟨[], [], by rw [renderParts], by rw [showParts], .nil, rfl⟩
  | part :: parts => by
    have first := part_displays embedded extended raw part
    have rest := parts_display embedded extended raw parts
    rw [renderParts, showParts]
    generalize renderPart parse printDate rendered extended raw part = text at first ⊢
    generalize showPart parse printDate shows extended raw part = shown at first ⊢
    cases first with
    | none => exact .inl ⟨rfl, rfl⟩
    | some reads =>
      rcases rest with ⟨none, nothing⟩ | ⟨texts, children, some, all, each, same⟩
      · rw [none, nothing]
        exact .inl ⟨rfl, rfl⟩
      · rw [some, all]
        exact .inr ⟨_, _, rfl, rfl, .cons reads each, by simp [same]⟩

end

def LeafRendered (rendered : Bytes → Part → Option Bytes) (raw : Bytes) (leaf : Part) : Prop :=
  ∀ nested nestedRaw, parseNestedMessage parse leaf raw = some (nested, nestedRaw) →
    (rendered nestedRaw nested.body).isSome

theorem single_part_rendered (extended : Bool) (raw : Bytes) (p : Part)
    (whole : LeafRendered parse rendered raw p) :
    (renderSinglePartStructure parse printDate rendered extended raw p).isSome := by
  rw [renderSinglePartStructure, Option.isSome_map, typeItems]
  by_cases text : isTextType p = true
  · rw [if_pos text, Option.isSome_some]
  rw [if_neg text]
  by_cases message : showsMessage p = true
  · rw [if_pos message]
    cases nested : parseNestedMessage parse p raw with
    | none => rfl
    | some found =>
      have inner := whole found.1 found.2 nested
      rw [← inner]
      exact Option.isSome_map
  · rw [if_neg message, Option.isSome_some]

mutual

theorem part_rendered (extended : Bool) (raw : Bytes) : (p : Part) →
    (∀ leaf ∈ p.leaves, LeafRendered parse rendered raw leaf) →
    (renderPart parse printDate rendered extended raw p).isSome
  | ⟨contentType, encoding, headers, offset, length, headerOffset, headerLength, children⟩, whole => by
    rw [renderPart]
    rw [Part.leaves] at whole
    split
    case isTrue childless =>
      rw [if_pos childless] at whole
      exact single_part_rendered parse printDate extended raw _ (whole _ (by simp))
    case isFalse present =>
      rw [if_neg present] at whole
      have all := parts_rendered extended raw children whole
      simpa using all

theorem parts_rendered (extended : Bool) (raw : Bytes) : (parts : List Part) →
    (∀ leaf ∈ leavesOf parts, LeafRendered parse rendered raw leaf) →
    (renderParts parse printDate rendered extended raw parts).isSome
  | [], _ => by simp [renderParts]
  | part :: parts, whole => by
    rw [leavesOf] at whole
    have first := part_rendered extended raw part fun leaf member =>
      whole leaf (List.mem_append_left _ member)
    have rest := parts_rendered extended raw parts fun leaf member =>
      whole leaf (List.mem_append_right _ member)
    obtain ⟨text, written⟩ := Option.isSome_iff_exists.mp first
    obtain ⟨texts, others⟩ := Option.isSome_iff_exists.mp rest
    simp [renderParts, written, others]

end

theorem nested_raw {parse : Bytes → Parsed} {leaf : Part} {raw : Bytes} {nested : Parsed}
    {nestedRaw : Bytes}
    (found : parseNestedMessage parse leaf raw = some (nested, nestedRaw)) :
    nested = parse nestedRaw ∧ nested.lost = false ∧ nestedRaw = leaf.bytes raw := by
  unfold parseNestedMessage Part.rawBody at found
  split at found
  case h_1 => cases found
  case h_2 body =>
    split at body
    case isTrue =>
      split at found
      case isTrue => cases found
      case isFalse kept =>
        simp only [Option.some.injEq] at body
        cases found
        exact ⟨rfl, by simpa using kept, body.symm⟩
    case isFalse => cases body

theorem structure_rendered (shrinks : Shrinks parse) (extended : Bool) (fuel : Nat) :
    ∀ raw p, 0 < fuel → (∀ leaf ∈ p.leaves, (leaf.bytes raw).length + 1 < fuel) →
      (renderBodyStructure parse printDate fuel extended raw p).isSome := by
  induction fuel with
  | zero =>
    intro raw p positive
    cases positive
  | succ fuel ih =>
    intro raw p _ short
    apply part_rendered parse printDate extended raw p
    intro leaf member nested nestedRaw found
    obtain ⟨rfl, kept, rfl⟩ := nested_raw found
    have bounded := short leaf member
    apply ih
    · omega
    · intro inner inside
      have shorter := shrinks _ kept inner inside
      omega

theorem structure_displays (fuel : Nat) (extended : Bool) : ∀ raw p,
    Displays (renderBodyStructure parse printDate fuel extended raw p)
      (showStructure parse printDate fuel extended raw p) := by
  induction fuel with
  | zero =>
    intro raw p
    exact .none
  | succ fuel ih =>
    intro raw p
    exact part_displays parse printDate ih extended raw p

theorem bytes_length (p : Part) (raw : Bytes) : (p.bytes raw).length ≤ raw.length := by
  simp [Part.bytes, sectionOf]

end

def plainRaw : Bytes := ascii "A: b\r\n\r\nhi"

def plainPart : Part where
  contentType := ascii "text/plain"
  contentTransferEncoding := []
  headers := ⟨[(ascii "A", ascii "b")]⟩
  rawOffset := 8
  rawLen := 2
  rawHeaderOffset := 0
  rawHeaderLen := 8
  children := []

def plainParse (raw : Bytes) : Parsed :=
  if raw = plainRaw then { body := plainPart } else { body := Part.zero, failed := true }

theorem plain_parse_shrinks : Shrinks plainParse := by
  intro raw kept leaf member
  unfold plainParse at kept member
  split at kept
  case isTrue same =>
    subst same
    rw [if_pos rfl] at member
    simp only [plainPart, Part.leaves, List.isEmpty_nil, if_true, List.mem_singleton] at member
    subst member
    decide
  case isFalse => cases kept

end Herold.BodyStructure

import Mathlib.Data.List.Induction
import Herold.Go.Split
import Herold.Imap.Shown

/-!
# The values a structure supplies

What a shown structure says of a part, stated on the text of its headers: media types and
parameters by the semicolons, equals signs and quotes they stand between, addresses by their
last at sign. The values that a rendered structure is read back as are these.
-/

namespace Herold.BodyStructure

open Herold.Go Herold.Imap

/-- The text without the double quotes around it. -/
def Unquoted (text value : Bytes) : Prop :=
  ∃ before after, text = List.replicate before 34 ++ value ++ List.replicate after 34 ∧
    value.head? ≠ some 34 ∧ value.getLast? ≠ some 34

/-- A piece such as `charset="utf-8"`, with white space around it. -/
def Gives (piece key value : Bytes) : Prop :=
  ∃ name text, trimSpace piece = name ++ 61 :: text ∧ 61 ∉ name ∧ key = toLower name ∧
    Unquoted text value

/-- A piece gives the value, and none after it gives the key again. -/
def LastGives (pieces : List Bytes) (key value : Bytes) : Prop :=
  ∃ front piece back, pieces = front ++ piece :: back ∧ Gives piece key value ∧
    ∀ later ∈ back, ∀ other, ¬Gives later key other

/-- The parameters that the pieces give, each key once and in order. -/
structure Lists (pieces : List Bytes) (params : Params) : Prop where
  ordered : params.Pairwise fun left right => left.1 < right.1
  given : ∀ key value, (key, value) ∈ params ↔ LastGives pieces key value

/-- A header value: a media type, and pieces between semicolons. -/
def MediaText (header mt : Bytes) (params : Params) : Prop :=
  ∃ first pieces, header = List.intercalate [59] (first :: pieces) ∧
    (∀ piece ∈ first :: pieces, 59 ∉ piece) ∧ mt = trimSpace first ∧ Lists pieces params

def TypeParts (mt typ subtype : Bytes) : Prop := mt = typ ++ 47 :: subtype ∧ typ ≠ [] ∧ 47 ∉ typ

/-- The media type of a leaf. Without a type in the header it is the one that parsing assumed. -/
def LeafMedia (p : Part) (mt : Bytes) (params : Params) : Prop :=
  ∃ given listed, MediaText (p.headers.get (ascii "Content-Type")) given listed ∧
    (given ≠ [] → mt = given ∧ params = listed) ∧
    (given = [] → mt = p.contentType ∧ params =
      if equalFold p.contentType (ascii "text/plain") then [(ascii "charset", ascii "us-ascii")]
      else listed)

def bodyText (raw : Bytes) (p : Part) : Bytes := (raw.drop p.rawOffset).take p.rawLen

structure BasicShown (raw : Bytes) (p : Part) (mt : Bytes) (basic : Basic) : Prop where
  media : LeafMedia p mt basic.params
  typed : TypeParts mt basic.typ basic.subtype ∨
    basic.typ = ascii "text" ∧ basic.subtype = ascii "plain" ∧ ∀ typ subtype, ¬TypeParts mt typ subtype
  id : basic.id = p.headers.get (ascii "Content-Id")
  description : basic.description = p.headers.get (ascii "Content-Description")
  encoding : basic.encoding =
    if toUpper (trimSpace p.contentTransferEncoding) = [] then ascii "7BIT"
    else toUpper (trimSpace p.contentTransferEncoding)
  octets : basic.octets = (bodyText raw p).length

def DispositionShown (p : Part) (shown : Disposition) : Prop :=
  ∃ dtype params, MediaText (p.headers.get (ascii "Content-Disposition")) dtype params ∧
    shown = if dtype = [] then none else some (dtype, params)

def LeafExtension (extended : Bool) (p : Part) (extension : Option Disposition) : Prop :=
  if extended then ∃ disposition, extension = some disposition ∧ DispositionShown p disposition
  else extension = none

def MultipartExtension (extended : Bool) (p : Part)
    (extension : Option (Params × Disposition)) : Prop :=
  if extended then
    ∃ mt params disposition, extension = some (params, disposition) ∧
      MediaText (p.headers.get (ascii "Content-Type")) mt params ∧ DispositionShown p disposition
  else extension = none

def AddressShown (address : MailAddress) (shown : Address) : Prop :=
  shown.name = address.name ∧
    (address.address = shown.mailbox ++ 64 :: shown.host ∧ 64 ∉ shown.host ∨
      64 ∉ address.address ∧ shown.mailbox = address.address ∧ shown.host = [])

structure EnvelopeShown (printDate : Bytes → Option Bytes) (e : MailEnvelope) (shown : Envelope) :
    Prop where
  undated : e.date = [] → shown.date = none
  dated : e.date ≠ [] → shown.date = printDate e.date
  subject : shown.subject = e.subject
  authors : List.Forall₂ AddressShown e.fromAddrs shown.fromAddrs
  sender : List.Forall₂ AddressShown e.sender.toList shown.sender
  replyTo : List.Forall₂ AddressShown e.replyTo shown.replyTo
  recipients : List.Forall₂ AddressShown e.toAddrs shown.toAddrs
  cc : List.Forall₂ AddressShown e.cc shown.cc
  bcc : List.Forall₂ AddressShown e.bcc shown.bcc
  inReplyTo : shown.inReplyTo = e.inReplyTo
  messageID : shown.messageID = e.messageID

def NamesText (mt : Bytes) : Prop := ∃ rest, toLower mt = ascii "text/" ++ rest

def NamesMessage (mt : Bytes) : Prop := toLower mt = ascii "message/rfc822"

/-- What the structure of a part says. The part of an embedded message is what parsing its text
yields. -/
inductive Represents (parse : Bytes → Parsed) (printDate : Bytes → Option Bytes) (extended : Bool) :
    Bytes → Part → Shown → Prop where
  | multipart {raw : Bytes} {p : Part} {children : List Shown} {subtype : Bytes}
      {extension : Option (Params × Disposition)} (container : p.children ≠ [])
      (same : p.children.length = children.length)
      (each : ∀ pair ∈ p.children.zip children, Represents parse printDate extended raw pair.1 pair.2)
      (typed : (∃ typ, TypeParts p.contentType typ subtype) ∨
        subtype = [] ∧ ∀ typ subtype, ¬TypeParts p.contentType typ subtype)
      (extra : MultipartExtension extended p extension) :
      Represents parse printDate extended raw p (.multipart children subtype extension)
  | text {raw : Bytes} {p : Part} {mt : Bytes} {basic : Basic} {extension : Option Disposition}
      (leaf : p.children = []) (values : BasicShown raw p mt basic) (kind : NamesText mt)
      (extra : LeafExtension extended p extension) :
      Represents parse printDate extended raw p (.text basic ((bodyText raw p).count 10) extension)
  | message {raw : Bytes} {p : Part} {mt : Bytes} {basic : Basic} {extension : Option Disposition}
      {envelope : Envelope} {body : Shown} (leaf : p.children = [])
      (values : BasicShown raw p mt basic) (kind : NamesMessage mt)
      (kept : (parse (bodyText raw p)).lost = false)
      (enveloped : EnvelopeShown printDate (parse (bodyText raw p)).envelope envelope)
      (inner : Represents parse printDate extended (bodyText raw p) (parse (bodyText raw p)).body body)
      (extra : LeafExtension extended p extension) :
      Represents parse printDate extended raw p
        (.message basic (some envelope) body ((bodyText raw p).count 10) extension)
  | lost {raw : Bytes} {p : Part} {mt : Bytes} {basic : Basic} {extension : Option Disposition}
      (leaf : p.children = []) (values : BasicShown raw p mt basic) (kind : NamesMessage mt)
      (lost : (parse (bodyText raw p)).lost = true) (extra : LeafExtension extended p extension) :
      Represents parse printDate extended raw p (.message basic none unreadable 0 extension)
  | plain {raw : Bytes} {p : Part} {mt : Bytes} {basic : Basic} {extension : Option Disposition}
      (leaf : p.children = []) (values : BasicShown raw p mt basic) (other : ¬NamesText mt)
      (another : ¬NamesMessage mt) (extra : LeafExtension extended p extension) :
      Represents parse printDate extended raw p (.plain basic extension)

theorem replicate_trimmed (count : Nat) (rest : Bytes) (starts : rest.head? ≠ some 34) :
    (List.replicate count 34 ++ rest).dropWhile (· = 34) = rest := by
  induction count with
  | zero =>
    cases rest with
    | nil => rfl
    | cons first rest =>
      rw [List.head?_cons, ne_eq, Option.some.injEq] at starts
      simp [starts]
  | succ count ih => simpa [List.replicate_succ] using ih

theorem head_of_front (front back : Bytes) (starts : (front ++ back).head? ≠ some 34) :
    front.head? ≠ some 34 := by
  cases front with
  | nil => simp
  | cons first rest => simpa using starts

theorem unquoted_iff (text value : Bytes) : Unquoted text value ↔ value = trimQuotes text := by
  constructor
  · rintro ⟨before, after, rfl, starts, ends⟩
    rw [trimQuotes, List.append_assoc]
    cases value with
    | nil => simp [dropTrailing]
    | cons first rest =>
      rw [replicate_trimmed _ _ (by simpa using starts), dropTrailing, List.reverse_append,
        List.reverse_replicate, replicate_trimmed _ _ (by rwa [List.head?_reverse]),
          List.reverse_reverse]
  · rintro rfl
    have quotes : ∀ run : Bytes, (∀ byte ∈ run, decide (byte = 34) = true) →
        run = List.replicate run.length 34 := by
      intro run all
      exact List.eq_replicate_of_mem fun byte member => of_decide_eq_true (all byte member)
    obtain ⟨tail, whole, behind⟩ := drop_trailing_split (fun byte : UInt8 => decide (byte = 34))
      (text.dropWhile fun byte => decide (byte = 34))
    have front := quotes (text.takeWhile fun byte => decide (byte = 34)) fun byte member => by
      have quote := List.mem_takeWhile_imp member
      exact quote
    refine ⟨(text.takeWhile fun byte => decide (byte = 34)).length, tail.length, ?_, ?_, ?_⟩
    · rw [← front, ← quotes tail behind, trimQuotes, List.append_assoc, ← whole,
        List.takeWhile_append_dropWhile]
    · have starts := List.head?_dropWhile_not (fun byte : UInt8 => decide (byte = 34)) text
      refine head_of_front _ tail fun first => ?_
      rw [trimQuotes, ← whole] at first
      simp [first] at starts
    · intro last
      rw [trimQuotes, dropTrailing, List.getLast?_reverse] at last
      have ends := List.head?_dropWhile_not (fun byte : UInt8 => decide (byte = 34))
        (text.dropWhile fun byte => decide (byte = 34)).reverse
      simp [last] at ends

theorem gives_iff (piece key value : Bytes) : Gives piece key value ↔
    ∃ name text, cutFirstByte 61 (trimSpace piece) = some (name, text) ∧ key = toLower name ∧
      value = trimQuotes text := by
  constructor
  · rintro ⟨name, text, shape, free, isKey, isValue⟩
    exact ⟨name, text, by rw [shape, cut_first_byte_append 61 name text free], isKey,
      (unquoted_iff text value).mp isValue⟩
  · rintro ⟨name, text, cut, isKey, isValue⟩
    obtain ⟨shape, free⟩ := cut_first_byte_splits 61 _ name text cut
    exact ⟨name, text, shape, free, isKey, (unquoted_iff text value).mpr isValue⟩

theorem last_gives_behind (pieces : List Bytes) (piece key value : Bytes) :
    LastGives (pieces ++ [piece]) key value ↔
      Gives piece key value ∨ LastGives pieces key value ∧ ∀ other, ¬Gives piece key other := by
  constructor
  · rintro ⟨front, found, back, shape, gives, last⟩
    rcases List.eq_nil_or_concat back with rfl | ⟨between, final, rfl⟩
    · obtain ⟨rfl, same⟩ := List.append_inj' shape rfl
      obtain rfl := (List.cons.inj same).1
      exact .inl gives
    · rw [List.concat_eq_append] at shape last
      rw [← List.cons_append, ← List.append_assoc] at shape
      obtain ⟨rfl, same⟩ := List.append_inj' shape rfl
      obtain rfl := (List.cons.inj same).1
      exact .inr ⟨⟨front, found, between, rfl, gives,
        fun later member => last later (List.mem_append_left _ member)⟩,
        last piece (List.mem_append_right _ (List.mem_singleton_self _))⟩
  · rintro (gives | ⟨⟨front, found, back, rfl, gives, last⟩, none⟩)
    · exact ⟨pieces, piece, [], rfl, gives, by simp⟩
    · refine ⟨front, found, back ++ [piece], by simp, gives, fun later member => ?_⟩
      rcases List.mem_append.mp member with earlier | here
      · exact last later earlier
      · rw [List.mem_singleton.mp here]
        exact none

/-- One round of the loop of `splitMediaType`. -/
def addPiece (params : Params) (piece : Bytes) : Params :=
  match splitN 61 2 (trimSpace piece) with
  | [key, value] => setParam params (toLower key) (trimQuotes value)
  | _ => params

theorem add_piece_given (params : Params) (piece name text : Bytes)
    (cut : cutFirstByte 61 (trimSpace piece) = some (name, text)) :
    addPiece params piece = setParam params (toLower name) (trimQuotes text) := by
  rw [addPiece, splitN, cut]
  rfl

theorem add_piece_other (params : Params) (piece : Bytes)
    (cut : cutFirstByte 61 (trimSpace piece) = none) : addPiece params piece = params := by
  rw [addPiece, splitN, cut]

theorem mem_set_param (params : Params) (key value other text : Bytes) :
    (other, text) ∈ setParam params key value ↔
      (other = key ∧ text = value) ∨ (other, text) ∈ params ∧ other ≠ key := by
  simp [setParam, or_comm]

theorem set_param_keys {params : Params} (distinct : (params.map Prod.fst).Nodup) (key value : Bytes) :
    ((setParam params key value).map Prod.fst).Nodup := by
  rw [setParam, List.map_append, List.map_singleton, List.nodup_append]
  refine ⟨distinct.sublist (List.filter_sublist.map _), List.nodup_singleton _, ?_⟩
  intro one member other same
  rw [List.mem_singleton.mp same]
  obtain ⟨entry, kept, rfl⟩ := List.mem_map.mp member
  simpa using (List.mem_filter.mp kept).2

theorem pieces_given (pieces : List Bytes) :
    ((pieces.foldl addPiece []).map Prod.fst).Nodup ∧
      ∀ key value, (key, value) ∈ pieces.foldl addPiece [] ↔ LastGives pieces key value := by
  induction pieces using List.reverseRecOn with
  | nil => simp [LastGives]
  | append_singleton pieces piece ih =>
    obtain ⟨distinct, given⟩ := ih
    rw [List.foldl_append, List.foldl_cons, List.foldl_nil]
    have none : cutFirstByte 61 (trimSpace piece) = none → ∀ key value, ¬Gives piece key value := by
      intro cut key value gives
      obtain ⟨name, text, found, -⟩ := (gives_iff piece key value).mp gives
      rw [cut] at found
      cases found
    cases cut : cutFirstByte 61 (trimSpace piece) with
    | none =>
      rw [add_piece_other _ piece cut]
      refine ⟨distinct, fun key value => ?_⟩
      rw [given, last_gives_behind]
      exact ⟨fun holds => .inr ⟨holds, none cut key⟩,
        fun holds => (holds.resolve_left (none cut key value)).1⟩
    | some halves =>
      obtain ⟨name, text⟩ := halves
      have gives (key value : Bytes) : Gives piece key value ↔ key = toLower name ∧
        value = trimQuotes text := by
        rw [gives_iff]
        constructor
        · rintro ⟨other, rest, found, isKey, isValue⟩
          rw [cut] at found
          cases found
          exact ⟨isKey, isValue⟩
        · rintro ⟨isKey, isValue⟩
          exact ⟨name, text, cut, isKey, isValue⟩
      rw [add_piece_given _ piece name text cut]
      refine ⟨set_param_keys distinct _ _, fun key value => ?_⟩
      rw [mem_set_param, given, last_gives_behind, gives]
      simp only [gives, not_and]
      constructor
      · rintro (here | ⟨before, other⟩)
        · exact .inl here
        · exact .inr ⟨before, fun _ same => absurd same other⟩
      · rintro (here | ⟨before, other⟩)
        · exact .inl here
        · exact .inr ⟨before, fun same => other _ same rfl⟩

theorem pieces_listed (pieces : List Bytes) :
    Lists pieces (sortedParams (pieces.foldl addPiece [])) := by
  obtain ⟨distinct, given⟩ := pieces_given pieces
  have same := List.perm_insertionSort (fun left right : Bytes × Bytes => left.1 ≤ right.1)
    (pieces.foldl addPiece [])
  constructor
  · have ordered := List.pairwise_insertionSort (fun left right : Bytes × Bytes => left.1 ≤ right.1)
      (pieces.foldl addPiece [])
    have keys : ((sortedParams (pieces.foldl addPiece [])).map Prod.fst).Nodup :=
      ((same.map Prod.fst).nodup_iff).mpr distinct
    have apart := List.pairwise_map.mp keys
    refine List.Pairwise.imp₂ (fun left right most other => ?_) ordered apart
    exact (List.le_iff_lt_or_eq.mp most).resolve_right other
  · intro key value
    rw [sortedParams, same.mem_iff, given]

theorem media_text (header : Bytes) :
    MediaText header (splitMediaType header).1 (sortedParams (splitMediaType header).2) := by
  have free := split_byte_free 59 header
  have joined := split_byte_parts 59 header
  have halves : splitMediaType header =
      (trimSpace ((splitByte 59 header).headD []), (splitByte 59 header).tail.foldl addPiece []) := rfl
  rw [halves]
  cases pieces : splitByte 59 header with
  | nil =>
    rw [pieces] at joined
    have blank : header = [] := joined.symm
    exact ⟨[], [], by rw [blank]; rfl, by simp, rfl, pieces_listed []⟩
  | cons first rest =>
    rw [pieces] at joined
    refine ⟨first, rest, joined.symm, fun piece member => free piece ?_, rfl, pieces_listed rest⟩
    rwa [pieces]

theorem type_parts (mt : Bytes) :
    TypeParts mt (splitTypeSubtype mt).1 (splitTypeSubtype mt).2 ∨
      splitTypeSubtype mt = ([], []) ∧ ∀ typ subtype, ¬TypeParts mt typ subtype := by
  unfold splitTypeSubtype
  split
  case h_1 typ subtype cut =>
    obtain ⟨shape, free⟩ := cut_first_byte_splits 47 mt typ subtype cut
    split
    case isTrue empty =>
      refine .inr ⟨rfl, fun other rest parts => parts.2.1 ?_⟩
      have again := cut_first_byte_append 47 other rest parts.2.2
      rw [← parts.1, cut, Option.some.injEq, Prod.mk.injEq] at again
      rw [← again.1, empty]
    case isFalse filled => exact .inl ⟨shape, filled, free⟩
  case h_2 cut =>
    refine .inr ⟨rfl, fun other rest parts => ?_⟩
    have again := cut_first_byte_append 47 other rest parts.2.2
    rw [← parts.1, cut] at again
    cases again

theorem leaf_media (p : Part) : LeafMedia p (mediaTypeOf p).1 (sortedParams (mediaTypeOf p).2) := by
  refine ⟨_, _, media_text (p.headers.get (ascii "Content-Type")), ?_, ?_⟩
  · intro given
    have media : mediaTypeOf p = splitMediaType (p.headers.get (ascii "Content-Type")) := by
      unfold mediaTypeOf
      exact if_neg given
    rw [media]
    exact ⟨rfl, rfl⟩
  · intro none
    have media : mediaTypeOf p = (p.contentType, if equalFold p.contentType (ascii "text/plain") then
        [(ascii "charset", ascii "us-ascii")]
        else (splitMediaType (p.headers.get (ascii "Content-Type"))).2) := by
      unfold mediaTypeOf
      exact if_pos none
    rw [media]
    refine ⟨rfl, ?_⟩
    dsimp only
    split
    · rfl
    · rfl

theorem disposition_shown (p : Part) : DispositionShown p (dispositionShown p) := by
  refine ⟨_, _, media_text (p.headers.get (ascii "Content-Disposition")), ?_⟩
  rw [dispositionShown, dispositionOf]
  dsimp only
  by_cases absent : p.headers.get (ascii "Content-Disposition") = []
  · have untyped : (splitMediaType []).1 = [] := by decide
    rw [absent, if_pos rfl, if_pos untyped, Option.map_none]
  · rw [if_neg absent]
    by_cases untyped : (splitMediaType (p.headers.get (ascii "Content-Disposition"))).1 = []
    · rw [if_pos untyped, if_pos untyped, Option.map_none]
    · rw [if_neg untyped, if_neg untyped, Option.map_some]

theorem leaf_extension (extended : Bool) (p : Part) :
    LeafExtension extended p (extensionShown extended p) := by
  cases extended with
  | false => rfl
  | true => exact ⟨_, rfl, disposition_shown p⟩

theorem body_text {p : Part} (leaf : p.children = []) (raw : Bytes) :
    (p.rawBody raw).getD [] = bodyText raw p := by
  rw [Part.rawBody, leaf]
  rfl

theorem type_of_parts {p : Part} (filled : (splitTypeSubtype (mediaTypeOf p).1).1 ≠ []) :
    typeOf p = splitTypeSubtype (mediaTypeOf p).1 := by
  unfold typeOf
  generalize splitTypeSubtype (mediaTypeOf p).1 = parts at filled ⊢
  exact if_neg filled

theorem basic_shown {p : Part} (leaf : p.children = []) (raw : Bytes) :
    BasicShown raw p (mediaTypeOf p).1 (basicOf p raw) where
  media := leaf_media p
  typed := by
    rcases type_parts (mediaTypeOf p).1 with parts | ⟨none, never⟩
    · left
      rw [basicOf, type_of_parts parts.2.1]
      dsimp only
      exact parts
    · right
      have untyped : typeOf p = (ascii "text", ascii "plain") := by
        rw [typeOf, none]
        rfl
      rw [basicOf, untyped]
      exact ⟨rfl, rfl, never⟩
  id := rfl
  description := rfl
  encoding := rfl
  octets := by
    change ((p.rawBody raw).getD []).length = _
    rw [body_text leaf]

theorem names_text_iff (mt : Bytes) : hasPrefix (toLower mt) (ascii "text/") = true ↔ NamesText mt := by
  rw [hasPrefix, List.isPrefixOf_iff_prefix]
  constructor
  · rintro ⟨rest, same⟩
    exact ⟨rest, same.symm⟩
  · rintro ⟨rest, same⟩
    exact ⟨rest, same.symm⟩

theorem cut_last_byte_last (byte : UInt8) (text : Bytes) :
    (cutLastByte byte text = none → byte ∉ text) ∧
      ∀ before after, cutLastByte byte text = some (before, after) → byte ∉ after := by
  induction text with
  | nil => simp [cutLastByte]
  | cons first rest ih =>
    rw [cutLastByte]
    cases later : cutLastByte byte rest with
    | some halves =>
      refine ⟨fun absent => (by cases absent), fun before after cut => ?_⟩
      cases cut
      exact ih.2 _ _ later
    | none =>
      have free := ih.1 later
      dsimp only
      split
      case isTrue =>
        refine ⟨fun absent => (by cases absent), fun before after cut => ?_⟩
        cases cut
        exact free
      case isFalse other =>
        refine ⟨fun _ => ?_, fun before after cut => (by cases cut)⟩
        rw [List.mem_cons, not_or]
        exact ⟨fun same => other same.symm, free⟩

theorem addresses_shown (addrs : List MailAddress) :
    List.Forall₂ AddressShown addrs (convertMailAddrs addrs) := by
  rw [convertMailAddrs, List.forall₂_map_right_iff, List.forall₂_same]
  intro address _
  split
  case h_1 mailbox host cut =>
    exact ⟨rfl, .inl ⟨cut_last_byte_splits 64 _ mailbox host cut, (cut_last_byte_last 64 _).2 _ _ cut⟩⟩
  case h_2 none => exact ⟨rfl, .inr ⟨(cut_last_byte_last 64 _).1 none, rfl, rfl⟩⟩

theorem envelope_shown (printDate : Bytes → Option Bytes) (e : MailEnvelope) :
    EnvelopeShown printDate e (convertMailparseEnvelope printDate e) where
  undated := fun undated => if_pos undated
  dated := fun dated => if_neg dated
  subject := rfl
  authors := addresses_shown _
  sender := addresses_shown _
  replyTo := addresses_shown _
  recipients := addresses_shown _
  cc := addresses_shown _
  bcc := addresses_shown _
  inReplyTo := rfl
  messageID := rfl

section

variable (parse : Bytes → Parsed) (printDate : Bytes → Option Bytes) (extended : Bool)
variable {shows : Bytes → Part → Option Shown}

theorem single_part_represents
    (embedded : ∀ raw p shown, shows raw p = some shown →
      Represents parse printDate extended raw p shown)
    (raw : Bytes) (p : Part) (leaf : p.children = []) (shown : Shown)
    (ran : showSinglePart parse printDate shows extended raw p = some shown) :
    Represents parse printDate extended raw p shown := by
  have basic := basic_shown leaf raw
  have extra := leaf_extension extended p
  have nested : p.rawBody raw = some (bodyText raw p) := by
    rw [Part.rawBody, leaf]
    rfl
  unfold showSinglePart at ran
  dsimp only at ran
  by_cases text : isTextType p = true
  · rw [if_pos text, body_text leaf] at ran
    cases ran
    exact .text leaf basic ((names_text_iff _).mp text) extra
  rw [if_neg text] at ran
  by_cases message : showsMessage p = true
  · have kind : NamesMessage (mediaTypeOf p).1 := by simpa [showsMessage, NamesMessage] using message
    rw [if_pos message, parseNestedMessage, nested] at ran
    dsimp only at ran
    by_cases lost : (parse (bodyText raw p)).lost = true
    · rw [if_pos lost] at ran
      cases ran
      exact .lost leaf basic kind lost extra
    · rw [if_neg lost] at ran
      obtain ⟨inner, rendered, rfl⟩ := Option.map_eq_some_iff.mp ran
      exact .message leaf basic kind (Bool.eq_false_iff.mpr lost) (envelope_shown printDate _)
        (embedded _ _ inner rendered) extra
  · rw [if_neg message] at ran
    cases ran
    refine .plain leaf basic (mt (names_text_iff _).mpr text) (fun kind => message ?_) extra
    rw [showsMessage, decide_eq_true_eq]
    exact kind

mutual

theorem part_represents
    (embedded : ∀ raw p shown, shows raw p = some shown →
      Represents parse printDate extended raw p shown)
    (raw : Bytes) : (p : Part) → (shown : Shown) →
    showPart parse printDate shows extended raw p = some shown →
      Represents parse printDate extended raw p shown
  | ⟨contentType, encoding, headers, offset, length, headerOffset, headerLength, children⟩,
    shown, ran => by
    rw [showPart] at ran
    split at ran
    case isTrue childless =>
      exact single_part_represents parse printDate extended embedded raw _
        (List.isEmpty_iff.mp childless)
        shown ran
    case isFalse present =>
      obtain ⟨inner, all, rfl⟩ := Option.map_eq_some_iff.mp ran
      obtain ⟨same, each⟩ := parts_represent embedded raw children inner all
      refine .multipart (fun empty => present (List.isEmpty_iff.mpr empty)) same each ?_ ?_
      · rcases type_parts contentType with parts | ⟨none, never⟩
        · exact .inl ⟨_, parts⟩
        · refine .inr ⟨?_, never⟩
          dsimp only
          rw [none]
      · cases extended with
        | false => rfl
        | true => exact ⟨_, _, _, rfl, media_text _, disposition_shown _⟩

theorem parts_represent
    (embedded : ∀ raw p shown, shows raw p = some shown →
      Represents parse printDate extended raw p shown)
    (raw : Bytes) : (parts : List Part) → (shown : List Shown) →
    showParts parse printDate shows extended raw parts = some shown →
      parts.length = shown.length ∧
        ∀ pair ∈ parts.zip shown, Represents parse printDate extended raw pair.1 pair.2
  | [], shown, ran => by
    rw [showParts] at ran
    cases ran
    simp
  | part :: parts, shown, ran => by
    rw [showParts] at ran
    obtain ⟨first, here, later⟩ := Option.bind_eq_some_iff.mp ran
    obtain ⟨others, there, ended⟩ := Option.bind_eq_some_iff.mp later
    cases ended
    obtain ⟨same, each⟩ := parts_represent embedded raw parts others there
    refine ⟨by simp [same], fun pair member => ?_⟩
    rw [List.zip_cons_cons, List.mem_cons] at member
    rcases member with rfl | rest
    · exact part_represents embedded raw part first here
    · exact each pair rest

end

theorem structure_represents (fuel : Nat) : ∀ raw p shown,
    showStructure parse printDate fuel extended raw p = some shown →
      Represents parse printDate extended raw p shown := by
  induction fuel with
  | zero =>
    intro raw p shown ran
    cases ran
  | succ fuel ih => exact part_represents parse printDate extended ih

end

section

variable (parse : Bytes → Parsed) (printDate : Bytes → Option Bytes)

end

end Herold.BodyStructure

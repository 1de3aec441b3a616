import Herold.Mail.Multipart
import Herold.Sieve.HeaderEdits

/-!
# Enclosing a message

An `enclose` action wraps the message as it stands. With a replacement in the outcome
the embeddings are applied one to the other in memory; without one they are streamed,
each around the same edited message. The two ways agree on one embedding of a message
whose blank line is where the header was cut, and on no more than one.
-/

namespace Herold.Sieve

open Herold.Go Herold.Mail

def newEncloseBoundary (random : Bytes) : Bytes := ascii "herold-sieve-" ++ Herold.Send.hexEncode random

/-- One embedding at most, around a message in which a blank line is found and whose
fields before it read as those of the edited header. -/
def EmbedsOnce (headers body : Bytes) (enclosures : List Enclosure) : Prop :=
  enclosures = [] ∨ ∃ enclosure headerEnd, enclosures = [enclosure] ∧
    findHeaderEnd (headers ++ body) = some headerEnd ∧
    outerFields ((headers ++ body).take headerEnd) enclosure.subject =
      outerFields headers enclosure.subject

theorem header_end_at_blank (text : Bytes) (headerEnd : Nat)
    (found : findHeaderEnd text = some headerEnd) :
    ∃ before blank after, text = before ++ blank ++ after ∧ headerEnd = before.length + blank.length ∧
      (blank = [13, 10, 13, 10] ∨ blank = [10, 10]) := by
  unfold findHeaderEnd at found
  split at found
  case h_1 before after cut =>
    cases found
    exact ⟨before, _, after, cut_first_splits cut, rfl, Or.inl rfl⟩
  case h_2 =>
    obtain ⟨⟨before, after⟩, cut, same⟩ := Option.map_eq_some_iff.mp found
    exact ⟨before, _, after, cut_first_splits cut, same.symm, Or.inr rfl⟩

theorem header_end_found (before after : Bytes) :
    ∃ headerEnd, findHeaderEnd (before ++ [13, 10, 13, 10] ++ after) = some headerEnd := by
  unfold findHeaderEnd
  cases cut : cutFirst [13, 10, 13, 10] (before ++ [13, 10, 13, 10] ++ after) with
  | some halves => exact ⟨_, rfl⟩
  | none =>
    have absent := cut_first_none _ _ cut before.length
    rw [List.append_assoc, List.drop_left] at absent
    simp [hasPrefix] at absent

theorem header_end_feeds (text : Bytes) (headerEnd : Nat)
    (found : findHeaderEnd text = some headerEnd) :
    2 ≤ text.count 10 := by
  obtain ⟨before, blank, after, rfl, -, kind⟩ := header_end_at_blank text headerEnd found
  have two : blank.count 10 = 2 := by
    rcases kind with rfl | rfl
    · decide
    · decide
  rw [List.count_append, List.count_append]
  omega

def EndsInFeed (text : Bytes) : Prop := ∀ last, text.getLast? = some last → last = 10

theorem ends_in_feed_append (front back : Bytes) (first : EndsInFeed front) (second : EndsInFeed back) :
    EndsInFeed (front ++ back) := by
  intro last ends
  rw [List.getLast?_append] at ends
  cases tail : back.getLast? with
  | none =>
    rw [tail, Option.none_or] at ends
    exact first last ends
  | some byte =>
    rw [tail, Option.some_or] at ends
    exact second last (tail.trans ends)

theorem ends_in_feed_right (front back : Bytes) (whole : EndsInFeed (front ++ back)) :
    EndsInFeed back := by
  intro last ends
  apply whole last
  rw [List.getLast?_append, ends, Option.some_or]

theorem line_ends_in_feed (text : Bytes) : EndsInFeed (text ++ crlf) := by
  intro last ends
  have tail : (text ++ crlf).getLast? = some 10 := by simp [crlf]
  rw [tail] at ends
  exact (Option.some.inj ends).symm

theorem read_block_ends_in_feed (raw block body : Bytes)
    (found : readHeaderBlock raw = some (block, body)) :
    EndsInFeed block := by
  unfold readHeaderBlock at found
  obtain ⟨headerEnd, within, same⟩ := Option.map_eq_some_iff.mp found
  cases same
  obtain ⟨before, blank, after, split, rfl, kind⟩ := header_end_at_blank _ _ within
  have short : before.length + blank.length ≤ maxHeaderReadSize := by
    have lengths := congrArg List.length split
    rw [List.length_take, List.length_append, List.length_append] at lengths
    omega
  have block : raw.take (before.length + blank.length) = before ++ blank := by
    have taken := congrArg (List.take (before.length + blank.length)) split
    rw [List.take_take, Nat.min_eq_left short, ← List.length_append, List.take_left] at taken
    rwa [List.length_append] at taken
  rw [block]
  intro last ends
  rcases kind with rfl | rfl
  · simpa using ends.symm
  · simpa using ends.symm

theorem slice_line_ends (text line rest : Bytes) (ends : EndsInFeed text)
    (sliced : sliceLine text = some (line, rest)) : EndsInFeed line ∧ EndsInFeed rest := by
  unfold sliceLine at sliced
  split at sliced
  case h_1 front back cut =>
    cases sliced
    rw [cut_first_splits cut] at ends
    exact ⟨line_ends_in_feed front, ends_in_feed_right _ _ ends⟩
  case h_2 =>
    split at sliced
    case isTrue => cases sliced
    case isFalse =>
      cases sliced
      exact ⟨ends, by simp [EndsInFeed]⟩

theorem delete_lines_ends (name : Bytes) (fuel : Nat) (skipping : Bool) (text out : Bytes)
    (ends : EndsInFeed text) (deleted : deleteLines name fuel skipping text = some out) :
      EndsInFeed out := by
  have nothing : EndsInFeed [] := by simp [EndsInFeed]
  induction fuel generalizing skipping text out with
  | zero =>
    cases deleted
    exact nothing
  | succ fuel ih =>
    rw [deleteLines] at deleted
    by_cases empty : text = []
    · rw [if_pos empty] at deleted
      cases deleted
      exact nothing
    · rw [if_neg empty] at deleted
      cases sliced : sliceLine text with
      | none =>
        rw [sliced] at deleted
        cases deleted
      | some halves =>
        obtain ⟨line, rest⟩ := halves
        obtain ⟨lineEnds, restEnds⟩ := slice_line_ends text line rest ends sliced
        have kept : ∀ skipping, (deleteLines name fuel skipping rest).map (line ++ ·) = some out →
            EndsInFeed out := by
          intro skipping kept
          obtain ⟨later, deletes, rfl⟩ := Option.map_eq_some_iff.mp kept
          exact ends_in_feed_append line later lineEnds (ih skipping rest later restEnds deletes)
        rw [sliced] at deleted
        dsimp only at deleted
        split at deleted
        case isTrue =>
          cases skipping with
          | true => exact ih true rest out restEnds (by simpa using deleted)
          | false => exact kept false (by simpa using deleted)
        case isFalse =>
          split at deleted
          case isTrue =>
            cases deleted
            exact lineEnds
          case isFalse =>
            split at deleted
            case h_1 => exact kept false deleted
            case h_2 =>
              split at deleted
              case isTrue => exact ih true rest out restEnds deleted
              case isFalse => exact kept false deleted

theorem edit_headers_ends (actions : List Action) (block headers : Bytes) (ends : EndsInFeed block)
    (edited : editHeaders actions block = some headers) : EndsInFeed headers := by
  induction actions generalizing block with
  | nil =>
    cases edited
    exact ends
  | cons action actions ih =>
    rw [editHeaders] at edited
    obtain ⟨next, step, later⟩ := Option.bind_eq_some_iff.mp edited
    apply ih next _ later
    cases action with
    | addHeader name value =>
      cases step
      exact ends_in_feed_append _ block (line_ends_in_feed _) ends
    | deleteHeader name => exact delete_lines_ends name _ false block next ends step
    | _ =>
      cases step
      exact ends

/-- The tail check of the streaming path is that of the whole message: a header never
ends in a carriage return. -/
theorem ends_in_crlf_of_whole (headers body : Bytes) (ends : EndsInFeed headers) :
    crlf.isSuffixOf (headers ++ body) = endsInCRLF headers body := by
  unfold endsInCRLF
  rw [Bool.eq_iff_iff, List.isSuffixOf_iff_suffix]
  by_cases long : 2 ≤ body.length
  · rw [if_pos long, List.isSuffixOf_iff_suffix]
    constructor
    · intro suffix
      exact List.suffix_of_suffix_length_le suffix (List.suffix_append headers body) long
    · intro suffix
      exact suffix.trans (List.suffix_append headers body)
  · rw [if_neg long]
    cases body with
    | nil =>
      by_cases filled : 2 ≤ headers.length
      · simp [filled, List.isSuffixOf_iff_suffix]
      · simp only [List.append_nil, List.length_nil, filled]
        constructor
        · intro suffix
          exact absurd suffix.length_le filled
        · intro impossible
          simp at impossible
    | cons byte body =>
      cases body with
      | cons next body => simp at long
      | nil =>
        constructor
        · intro suffix
          obtain ⟨front, same⟩ := suffix
          have split : (front ++ [13]) ++ [10] = headers ++ [byte] := by simpa [crlf] using same
          have parts := List.append_inj' split rfl
          have cr := ends 13 (by rw [← parts.1]; simp)
          exact absurd cr (by decide)
        · intro impossible
          simp at impossible

theorem with_line_end_of_whole (headers body : Bytes) (ends : EndsInFeed headers) :
    withLineEnd (headers ++ body) =
      headers ++ body ++ (if endsInCRLF headers body then [] else crlf) := by
  unfold withLineEnd
  rw [ends_in_crlf_of_whole headers body ends]
  cases endsInCRLF headers body <;> simp

theorem streamed_shape (boundary headers body : Bytes) (enclosure : Enclosure)
    (ends : EndsInFeed headers) :
    applyEncloseStreaming boundary headers (headers ++ body) (endsInCRLF headers body) enclosure =
      outerFields headers enclosure.subject ++
        (enclosureStart boundary enclosure.body enclosure.headers ++
        (withLineEnd (headers ++ body) ++ enclosureEnd boundary)) := by
  rw [with_line_end_of_whole headers body ends]
  simp [applyEncloseStreaming]

theorem enclosed_shape (boundary raw : Bytes) (enclosure : Enclosure) (headerEnd : Nat)
    (found : findHeaderEnd raw = some headerEnd) :
    applyEnclose boundary raw enclosure =
      outerFields (raw.take headerEnd) enclosure.subject ++
        (enclosureStart boundary enclosure.body enclosure.headers ++
          (withLineEnd raw ++ enclosureEnd boundary)) := by
  simp [applyEnclose, found]

theorem enclosure_end_filled (boundary : Bytes) : 0 < (enclosureEnd boundary).length := by
  simp [enclosureEnd, crlf]

theorem with_line_end_longer (text : Bytes) : text.length ≤ (withLineEnd text).length := by
  unfold withLineEnd
  split
  · exact Nat.le_refl _
  · simp

theorem enclose_once_iff (boundary headers body : Bytes) (enclosure : Enclosure)
    (ends : EndsInFeed headers) :
    applyEncloseStreaming boundary headers (headers ++ body) (endsInCRLF headers body) enclosure =
        applyEnclose boundary (headers ++ body) enclosure ↔
      ∃ headerEnd, findHeaderEnd (headers ++ body) = some headerEnd ∧
        outerFields ((headers ++ body).take headerEnd) enclosure.subject =
          outerFields headers enclosure.subject := by
  rw [streamed_shape boundary headers body enclosure ends]
  cases found : findHeaderEnd (headers ++ body) with
  | none =>
    constructor
    · intro same
      have lengths := congrArg List.length same
      have filled := enclosure_end_filled boundary
      have longer := with_line_end_longer (headers ++ body)
      simp only [applyEnclose, found, List.length_append] at lengths longer
      omega
    · rintro ⟨headerEnd, impossible, -⟩
      cases impossible
  | some headerEnd =>
    rw [enclosed_shape boundary _ enclosure headerEnd found]
    constructor
    · intro same
      exact ⟨headerEnd, rfl, (List.append_cancel_right same).symm⟩
    · rintro ⟨other, here, same⟩
      cases here
      rw [same]

theorem enclosure_start_blank (boundary body : Bytes) (headers : List Bytes) :
    ∃ front back, enclosureStart boundary body headers = front ++ [13, 10, 13, 10] ++ back := by
  refine ⟨extraFields headers ++ ascii "MIME-Version: 1.0" ++ crlf ++
      ascii "Content-Type: multipart/mixed; boundary=\"" ++ boundary ++ ascii "\"",
    ascii "--" ++ boundary ++ crlf ++ ascii "Content-Type: text/plain; charset=utf-8" ++ crlf ++ crlf ++
      withLineEnd body ++ ascii "--" ++ boundary ++ crlf ++ ascii "Content-Type: message/rfc822" ++ crlf ++ crlf, ?_⟩
  unfold enclosureStart
  simp only [crlf, List.append_assoc, List.cons_append, List.nil_append]

theorem enclosed_found (boundary raw : Bytes) (enclosure : Enclosure) (headerEnd : Nat)
    (found : findHeaderEnd raw = some headerEnd) :
    ∃ next, findHeaderEnd (applyEnclose boundary raw enclosure) = some next := by
  obtain ⟨front, back, start⟩ := enclosure_start_blank boundary enclosure.body enclosure.headers
  have shape : applyEnclose boundary raw enclosure =
      outerFields (raw.take headerEnd) enclosure.subject ++ front ++ [13, 10, 13, 10] ++
        (back ++ (withLineEnd raw ++ enclosureEnd boundary)) := by
    rw [enclosed_shape boundary raw enclosure headerEnd found, start]
    simp only [List.append_assoc]
  rw [shape]
  exact header_end_found _ _

section Many

variable (boundaries : Nat → Bytes)

theorem enclose_in_memory_last (count : Nat) (earlier : List Enclosure) (last : Enclosure)
    (raw : Bytes) :
    encloseInMemory boundaries count (earlier ++ [last]) raw =
      applyEnclose (boundaries (count + earlier.length))
        (encloseInMemory boundaries count earlier raw) last := by
  induction earlier generalizing count raw with
  | nil => rfl
  | cons enclosure earlier ih =>
    rw [List.cons_append, encloseInMemory, ih, encloseInMemory, List.length_cons,
      Nat.add_right_comm count 1,
      Nat.add_assoc count]

theorem enclose_in_memory_found (count : Nat) (enclosures : List Enclosure) (raw : Bytes)
    (headerEnd : Nat)
    (found : findHeaderEnd raw = some headerEnd) :
    ∃ next, findHeaderEnd (encloseInMemory boundaries count enclosures raw) = some next := by
  induction enclosures generalizing count raw headerEnd with
  | nil => exact ⟨headerEnd, found⟩
  | cons enclosure enclosures ih =>
    obtain ⟨next, here⟩ := enclosed_found (boundaries count) raw enclosure headerEnd found
    exact ih (count + 1) _ next here

theorem enclose_in_memory_idle (count : Nat) (enclosures : List Enclosure) (raw : Bytes)
    (none : findHeaderEnd raw = Option.none) :
      encloseInMemory boundaries count enclosures raw = raw := by
  induction enclosures generalizing count with
  | nil => rfl
  | cons enclosure enclosures ih =>
    have kept : applyEnclose (boundaries count) raw enclosure = raw := by simp [applyEnclose, none]
    rw [encloseInMemory, kept, ih]

/-- In memory the closing delimiters of the last two embeddings stand one behind the
other. -/
theorem enclose_in_memory_ends (count : Nat) (earlier : List Enclosure) (middle last : Enclosure)
    (raw : Bytes)
    (headerEnd : Nat) (found : findHeaderEnd raw = some headerEnd) :
    ∃ front, encloseInMemory boundaries count (earlier ++ [middle] ++ [last]) raw =
      front ++ enclosureEnd (boundaries (count + earlier.length)) ++
        enclosureEnd (boundaries (count + (earlier ++ [middle]).length)) := by
  obtain ⟨inner, innerFound⟩ := enclose_in_memory_found boundaries count earlier raw headerEnd found
  obtain ⟨outer, outerFound⟩ :=
    enclose_in_memory_found boundaries count (earlier ++ [middle]) raw headerEnd found
  rw [enclose_in_memory_last, enclosed_shape _ _ last outer outerFound, enclose_in_memory_last,
    enclosed_shape _ _ middle inner innerFound]
  generalize encloseInMemory boundaries count earlier raw = embedded
  have ended : ∀ front boundary, withLineEnd (front ++ enclosureEnd boundary) = front ++
    enclosureEnd boundary := by
    intro front boundary
    unfold withLineEnd
    rw [if_pos]
    rw [List.isSuffixOf_iff_suffix, enclosureEnd, ← List.append_assoc front]
    exact List.suffix_append _ crlf
  simp only [← List.append_assoc]
  rw [ended]
  exact ⟨_, congrArg (· ++ enclosureEnd _) (List.append_assoc _ _ _).symm⟩

theorem enclose_streaming_ends (headers body : Bytes) (count : Nat) (earlier : List Enclosure)
    (last : Enclosure)
    (ends : EndsInFeed headers) :
    ∃ front, encloseStreaming boundaries headers body count (earlier ++ [last]) =
      front ++ withLineEnd (headers ++ body) ++ enclosureEnd (boundaries (count + earlier.length)) := by
  induction earlier generalizing count with
  | nil =>
    rw [List.nil_append, encloseStreaming, encloseStreaming, streamed_shape _ headers body last ends]
    exact ⟨outerFields headers last.subject ++
      enclosureStart (boundaries count) last.body last.headers, by simp⟩
  | cons enclosure earlier ih =>
    obtain ⟨front, later⟩ := ih (count + 1)
    rw [List.cons_append, encloseStreaming, later, List.length_cons, Nat.add_right_comm count 1,
      Nat.add_assoc count]
    exact ⟨applyEncloseStreaming (boundaries count) headers (headers ++ body) (endsInCRLF headers body)
      enclosure ++ front, by simp⟩

/-- If the two ways agree on two embeddings or more, the message ends in a closing
delimiter, or is the end of one. -/
theorem enclose_more_overlap (headers body : Bytes) (earlier : List Enclosure) (middle last : Enclosure)
    (ends : EndsInFeed headers) (headerEnd : Nat)
    (found : findHeaderEnd (headers ++ body) = some headerEnd)
    (same : encloseStreaming boundaries headers body 0 (earlier ++ [middle] ++ [last]) =
      encloseInMemory boundaries 0 (earlier ++ [middle] ++ [last]) (headers ++ body)) :
    withLineEnd (headers ++ body) <:+ enclosureEnd (boundaries (0 + earlier.length)) ∨
      enclosureEnd (boundaries (0 + earlier.length)) <:+ withLineEnd (headers ++ body) := by
  obtain ⟨streamed, written⟩ :=
    enclose_streaming_ends boundaries headers body 0 (earlier ++ [middle]) last ends
  obtain ⟨wrapped, folded⟩ :=
    enclose_in_memory_ends boundaries 0 earlier middle last (headers ++ body) headerEnd found
  rw [written, folded] at same
  have fronts := List.append_cancel_right same
  apply List.suffix_or_suffix_of_suffix (List.suffix_append streamed _)
  rw [fronts]
  exact List.suffix_append _ _

end Many

theorem with_line_end_feeds (text : Bytes) : text.count 10 ≤ (withLineEnd text).count 10 := by
  unfold withLineEnd
  split
  · exact Nat.le_refl _
  · rw [List.count_append]
    exact Nat.le_add_right _ _

theorem boundary_apart (text : Bytes) (feeds : 2 ≤ text.count 10) :
    ∃ random : Bytes, random.length = 16 ∧ ¬text <:+ enclosureEnd (newEncloseBoundary random) ∧
      ¬enclosureEnd (newEncloseBoundary random) <:+ text := by
  have apart : ∀ random : Bytes, (enclosureEnd (newEncloseBoundary random)).count 10 = 1 →
      ¬text <:+ enclosureEnd (newEncloseBoundary random) := by
    intro random one suffix
    have fewer := suffix.sublist.count_le 10
    omega
  by_cases zeros : enclosureEnd (newEncloseBoundary (List.replicate 16 0)) <:+ text
  · refine ⟨List.replicate 16 1, rfl, apart _ (by decide +kernel), ?_⟩
    intro ones
    have nested := List.suffix_of_suffix_length_le zeros ones (by decide +kernel)
    exact absurd nested (by decide +kernel)
  · exact ⟨List.replicate 16 0, rfl, apart _ (by decide +kernel), zeros⟩

/-- Whatever is embedded twice or more, some draw of the boundaries tells the two ways
apart. -/
theorem enclose_more_differ (headers body : Bytes) (earlier : List Enclosure) (middle last : Enclosure)
    (ends : EndsInFeed headers) :
    ¬∀ random : Nat → Bytes, (∀ count, (random count).length = 16) →
      encloseStreaming (fun count => newEncloseBoundary (random count)) headers body 0
          (earlier ++ [middle] ++ [last]) =
        encloseInMemory (fun count => newEncloseBoundary (random count)) 0
          (earlier ++ [middle] ++ [last]) (headers ++ body) := by
  intro agrees
  cases found : findHeaderEnd (headers ++ body) with
  | none =>
    have same := agrees (fun _ => List.replicate 16 0) fun _ => rfl
    rw [enclose_in_memory_idle _ 0 _ _ found] at same
    obtain ⟨front, written⟩ := enclose_streaming_ends
      (fun _ => newEncloseBoundary (List.replicate 16 0)) headers body 0 (earlier ++ [middle]) last ends
    have lengths := congrArg List.length (written.symm.trans same)
    have filled := enclosure_end_filled (newEncloseBoundary (List.replicate 16 0))
    have longer := with_line_end_longer (headers ++ body)
    rw [List.length_append, List.length_append] at lengths
    omega
  | some headerEnd =>
    have feeds := header_end_feeds _ _ found
    have more := with_line_end_feeds (headers ++ body)
    obtain ⟨random, long, notInside, notAtEnd⟩ :=
      boundary_apart (withLineEnd (headers ++ body)) (by omega)
    have same := agrees (fun _ => random) fun _ => long
    rcases enclose_more_overlap _ headers body earlier middle last ends headerEnd found
      same with inside | atEnd
    · exact notInside inside
    · exact notAtEnd atEnd

theorem embeds_once_single (headers body : Bytes) (enclosure : Enclosure) :
    EmbedsOnce headers body [enclosure] ↔
      ∃ headerEnd, findHeaderEnd (headers ++ body) = some headerEnd ∧
        outerFields ((headers ++ body).take headerEnd) enclosure.subject =
          outerFields headers enclosure.subject := by
  constructor
  · rintro (none | ⟨other, headerEnd, single, found, same⟩)
    · cases none
    · cases single
      exact ⟨headerEnd, found, same⟩
  · rintro ⟨headerEnd, found, same⟩
    exact Or.inr ⟨enclosure, headerEnd, rfl, found, same⟩

theorem enclose_streaming_single_iff (headers body : Bytes) (enclosure : Enclosure)
    (ends : EndsInFeed headers) :
    (∀ random : Nat → Bytes, (∀ count, (random count).length = 16) →
      encloseStreaming (fun count => newEncloseBoundary (random count)) headers body 0 [enclosure] =
        encloseInMemory (fun count => newEncloseBoundary (random count)) 0 [enclosure]
          (headers ++ body)) ↔
      ∃ headerEnd, findHeaderEnd (headers ++ body) = some headerEnd ∧
        outerFields ((headers ++ body).take headerEnd) enclosure.subject =
          outerFields headers enclosure.subject := by
  simp only [encloseStreaming, encloseInMemory, List.append_nil]
  constructor
  · intro agrees
    exact (enclose_once_iff _ headers body enclosure ends).mp
      (agrees (fun _ => List.replicate 16 0) fun _ => rfl)
  · intro found random long
    exact (enclose_once_iff _ headers body enclosure ends).mpr found

/-- The streamed rewrite is the fold of the embeddings exactly where there is one of
them at most and the whole message has its blank line where the fields end. -/
theorem streaming_enclose_agrees_iff (raw block body : Bytes) (outcome : Outcome)
    (found : readHeaderBlock raw = some (block, body))
    (noReplace : outcome.actions.any Action.isReplace = false) :
    (∀ random : Nat → Bytes, (∀ count, (random count).length = 16) →
      applyMutationsBytes (fun count => newEncloseBoundary (random count)) raw outcome =
        (editHeaders outcome.actions block).map fun headers =>
          encloseInMemory (fun count => newEncloseBoundary (random count)) 0
            (outcome.actions.filterMap Action.enclosure) (headers ++ body)) ↔
      ∀ headers, editHeaders outcome.actions block = some headers →
        EmbedsOnce headers body (outcome.actions.filterMap Action.enclosure) := by
  simp only [apply_without_replace _ raw block body outcome found noReplace]
  generalize outcome.actions.filterMap Action.enclosure = enclosures
  cases edited : editHeaders outcome.actions block with
  | none => simp
  | some headers =>
    have ends := edit_headers_ends outcome.actions block headers
      (read_block_ends_in_feed raw block body found) edited
    simp only [Option.map_some, Option.some.injEq, forall_eq']
    rcases List.eq_nil_or_concat' enclosures with rfl | ⟨earlier, last, rfl⟩
    · simp [EmbedsOnce, encloseInMemory]
    · simp only [List.append_eq_nil_iff, List.cons_ne_nil, and_false, if_false]
      rcases List.eq_nil_or_concat' earlier with rfl | ⟨earlier, middle, rfl⟩
      · rw [List.nil_append, embeds_once_single, ← enclose_streaming_single_iff headers body last ends]
      · constructor
        · intro agrees
          exact absurd agrees (enclose_more_differ headers body earlier middle last ends)
        · intro once
          rcases once with none | ⟨enclosure, headerEnd, single, -⟩
          · simp at none
          · have lengths := congrArg List.length single
            simp at lengths

theorem streaming_enclose_agrees_once :
    applyMutationsBytes (fun _ => newEncloseBoundary (List.replicate 16 7)) (ascii "To: b\r\n\r\nhi")
        { actions := [.deleteHeader (ascii "X"), .enclose (ascii "note") [] []] } =
      some (applyEnclose (newEncloseBoundary (List.replicate 16 7)) (ascii "To: b\r\n\r\nhi")
        ⟨ascii "note", [], []⟩) := by
  refine (streaming_enclose_agrees_iff (ascii "To: b\r\n\r\nhi") (ascii "To: b\r\n\r\n") (ascii "hi")
    { actions := [.deleteHeader (ascii "X"), .enclose (ascii "note") [] []] } (by decide)
      (by decide)).mpr
    ?_ (fun _ => List.replicate 16 7) fun _ => rfl
  intro headers edited
  have kept : editHeaders [.deleteHeader (ascii "X"), .enclose (ascii "note") [] []]
    (ascii "To: b\r\n\r\n") =
      some (ascii "To: b\r\n\r\n") := by decide
  cases kept.symm.trans edited
  exact Or.inr ⟨⟨ascii "note", [], []⟩, 9, rfl, by decide, by decide⟩

/-- Two embeddings are written one behind the other: two messages, where the fold is
one. -/
theorem streaming_enclose_twice_apart :
    readHeaderBlock (ascii "\r\n\r\n") = some (ascii "\r\n\r\n", []) ∧
      applyMutationsBytes (fun _ => newEncloseBoundary (List.replicate 16 7)) (ascii "\r\n\r\n")
          { actions := [.enclose [] [] [], .enclose [] [] []] } =
        some (applyEnclose (newEncloseBoundary (List.replicate 16 7)) (ascii "\r\n\r\n") ⟨[], [], []⟩ ++
          applyEnclose (newEncloseBoundary (List.replicate 16 7)) (ascii "\r\n\r\n") ⟨[], [], []⟩) ∧
      applyMutationsBytes (fun _ => newEncloseBoundary (List.replicate 16 7)) (ascii "\r\n\r\n")
          { actions := [.enclose [] [] [], .enclose [] [] []] } ≠
        some (encloseInMemory (fun _ => newEncloseBoundary (List.replicate 16 7)) 0
          [⟨[], [], []⟩, ⟨[], [], []⟩] (ascii "\r\n\r\n")) := by
  decide +kernel

end Herold.Sieve

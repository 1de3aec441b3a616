import Herold.Send.Commands

/-!
# What a structured request can do to the header

The builder encodes the subject and replaces the odd characters of a tag's name;
every other text of the request goes into the header as it is. The message reads
back as the header map exactly when those texts stay on one line and the caller's
own names are field names.
-/

namespace Herold.Send

open Herold.Go

/-- The message reads as the entries of the map, in order, with the body behind
them; its From field is the source and its subject stands for the request's. -/
structure ReadsAsBuilt (request : SendRequest) (headers : List (Bytes × Bytes)) (bytes body : Bytes) :
    Prop where
  fields : readMessage bytes = some (sortHeaders headers, body)
  from_source : (sortHeaders headers).filter (fun field => asciiLower field.1 = ascii "from") =
    [(ascii "From", request.source)]
  subject : lastValue (ascii "Subject") (supplied request) = none →
    ∃ value, (ascii "Subject", value) ∈ headers ∧ Denotes value request.subject

/-- No text that reaches the header breaks its line: not the source, not the
domain of the Message-ID, and under no name the last text the request puts there. -/
structure StaysInLine (hostname : Bytes) (request : SendRequest) : Prop where
  source : isBreakless request.source = true
  domain : isBreakless (messageDomain hostname request.source) = true
  supplied : ∀ name value, lastValue name (supplied request) = some value →
    isCleanField (name, value) = true

theorem write_qp_extends (quotedPrintable : Bytes → Bytes) (buffer text : Bytes) :
    ∃ written, writeQP quotedPrintable buffer text = buffer ++ written := by
  unfold writeQP
  dsimp only
  split
  · exact ⟨_, rfl⟩
  · exact ⟨_, List.append_assoc ..⟩

theorem write_part_extends (quotedPrintable : Bytes → Bytes)
    (buffer boundary contentType text : Bytes) :
    ∃ written, writeAlternativePart quotedPrintable buffer boundary contentType text = buffer ++
      written := by
  obtain ⟨written, same⟩ := write_qp_extends quotedPrintable (buffer ++ ascii "--" ++ boundary ++ crlf ++
    ascii "Content-Type: " ++ contentType ++ crlf ++
      ascii "Content-Transfer-Encoding: quoted-printable" ++ crlf ++ crlf) text
  rw [writeAlternativePart, same]
  simp only [List.append_assoc]
  exact ⟨_, rfl⟩

theorem write_body_extends (quotedPrintable : Bytes → Bytes) (body : Body) (boundary buffer : Bytes) :
    ∃ written, writeBody quotedPrintable body boundary buffer = buffer ++ written := by
  unfold writeBody
  split
  · obtain ⟨plain, first⟩ := write_part_extends quotedPrintable buffer boundary
      (ascii "text/plain; charset=utf-8") body.text
    obtain ⟨html, second⟩ := write_part_extends quotedPrintable (buffer ++ plain) boundary
      (ascii "text/html; charset=utf-8") body.html
    simp only [first, second, List.append_assoc]
    exact ⟨_, rfl⟩
  · split
    · exact write_qp_extends quotedPrintable buffer body.html
    · exact write_qp_extends quotedPrintable buffer body.text

section Entries

variable (request : SendRequest) (now : Stamp) (messageID boundary : Bytes)

theorem content_headers_clean (body : Body) (clean : isBreakless boundary = true) :
    ∀ field ∈ contentHeaders body boundary, isCleanField field = true := by
  intro field member
  unfold contentHeaders at member
  split at member
  · rw [List.mem_singleton.mp member]
    simp only [isCleanField, breakless_append, clean]
    decide
  · split at member
    · simp only [List.mem_cons, List.not_mem_nil, or_false] at member
      rcases member with rfl | rfl <;> decide
    · simp only [List.mem_cons, List.not_mem_nil, or_false] at member
      rcases member with rfl | rfl <;> decide

theorem content_headers_own (body : Body) :
    ∀ field ∈ contentHeaders body boundary,
      field.1 = ascii "Content-Type" ∨ field.1 = ascii "Content-Transfer-Encoding" := by
  intro field member
  unfold contentHeaders at member
  split at member
  · rw [List.mem_singleton.mp member]
    exact .inl rfl
  · split at member
    · simp only [List.mem_cons, List.not_mem_nil, or_false] at member
      rcases member with rfl | rfl
      · exact .inl rfl
      · exact .inr rfl
    · simp only [List.mem_cons, List.not_mem_nil, or_false] at member
      rcases member with rfl | rfl
      · exact .inl rfl
      · exact .inr rfl

theorem supplied_in_map (name value : Bytes) (last : lastValue name (supplied request) = some value) :
    (name, value) ∈ headerMap request now messageID boundary := by
  have apart := supplied_apart request (name, value) (last_value_mem name value _ last)
  rw [mem_header_map, last_value_append, last_value_append, last]
  rw [last_value_none name (contentHeaders request.body boundary)]
  · simp
  · intro field member same
    rcases content_headers_own boundary request.body field member with content | encoding
    · rw [← same, content] at apart
      exact apart (by decide)
    · rw [← same, encoding] at apart
      exact apart (by decide)

/-- A generated entry stands in the map unless the request or the body has its name. -/
theorem generated_in_map (name value : Bytes)
    (last : lastValue name (generated request now messageID) = some value)
    (free : lastValue name (supplied request) = none)
    (apart : name ≠ ascii "Content-Type" ∧ name ≠ ascii "Content-Transfer-Encoding") :
    (name, value) ∈ headerMap request now messageID boundary := by
  rw [mem_header_map, last_value_append, last_value_append, last, free]
  rw [last_value_none name (contentHeaders request.body boundary)]
  · simp
  · intro field member same
    rcases content_headers_own boundary request.body field member with content | encoding
    · exact apart.1 (by rw [← same, content])
    · exact apart.2 (by rw [← same, encoding])

theorem map_entry_cases (name value : Bytes)
    (entry : (name, value) ∈ headerMap request now messageID boundary) :
    (name, value) ∈ contentHeaders request.body boundary ∨
      lastValue name (supplied request) = some value ∨
      (name, value) ∈ generated request now messageID := by
  rw [mem_header_map, last_value_append, last_value_append, Option.or_eq_some_iff] at entry
  rcases entry with content | ⟨_, entry⟩
  · exact .inl (last_value_mem name value _ content)
  · rw [Option.or_eq_some_iff] at entry
    rcases entry with given | ⟨_, made⟩
    · exact .inr (.inl given)
    · exact .inr (.inr (last_value_mem name value _ made))

theorem from_in_map : (ascii "From", request.source) ∈ headerMap request now messageID boundary := by
  apply generated_in_map
  · simp [generated, lastValue, ascii]
  · exact supplied_keeps request _ (by decide)
  · decide

theorem message_id_in_map :
    (ascii "Message-ID", ascii "<" ++ messageID ++ ascii ">") ∈
      headerMap request now messageID boundary := by
  apply generated_in_map
  · simp [generated, lastValue, ascii]
  · exact supplied_keeps request _ (by decide)
  · decide

theorem from_entry (field : Bytes × Bytes) (entry : field ∈ headerMap request now messageID boundary)
    (named : asciiLower field.1 = ascii "from") : field = (ascii "From", request.source) := by
  obtain ⟨name, value⟩ := field
  rcases map_entry_cases request now messageID boundary name value entry with content | given | made
  · rcases content_headers_own boundary request.body _ content with same | same
    · rw [same] at named
      exact absurd named (by decide)
    · rw [same] at named
      exact absurd named (by decide)
  · have apart := supplied_apart request (name, value) (last_value_mem name value _ given)
    rw [named] at apart
    exact absurd (by decide) apart
  · simp only [generated, List.mem_cons, List.not_mem_nil, or_false, Prod.mk.injEq] at made
    rcases made with ⟨rfl, rfl⟩ | ⟨rfl, _⟩ | ⟨rfl, _⟩ | ⟨rfl, _⟩ | ⟨rfl, _⟩
    · rfl
    all_goals
      dsimp only at named
      exact absurd named (by decide)

theorem single_entry (headers : List (Bytes × Bytes)) (field : Bytes × Bytes)
    (distinct : headers.Pairwise fun left right => left.1 ≠ right.1)
    (same : ∀ other ∈ headers, other = field) (member : field ∈ headers) : headers = [field] := by
  cases headers with
  | nil => cases member
  | cons first rest =>
    have firstIs := same first (List.mem_cons_self ..)
    cases rest with
    | nil => rw [firstIs]
    | cons second rest =>
      have secondIs := same second (by simp)
      have apart := (List.pairwise_cons.mp distinct).1 second (List.mem_cons_self ..)
      rw [firstIs, secondIs] at apart
      exact absurd rfl apart

theorem one_from_field :
    (sortHeaders (headerMap request now messageID boundary)).filter
        (fun field => asciiLower field.1 = ascii "from") = [(ascii "From", request.source)] := by
  have sorted := (sort_headers_perm (headerMap request now messageID boundary)).filter
    fun field => asciiLower field.1 = ascii "from"
  have distinct := assigned_distinct (generated request now messageID ++ supplied request ++
    contentHeaders request.body boundary) [] List.Pairwise.nil
  have unsorted : (headerMap request now messageID boundary).filter
      (fun field => asciiLower field.1 = ascii "from") = [(ascii "From", request.source)] := by
    apply single_entry
    · exact List.Pairwise.filter _ distinct
    · intro field member
      obtain ⟨entry, named⟩ := List.mem_filter.mp member
      exact from_entry request now messageID boundary field entry (of_decide_eq_true named)
    · have spelled : asciiLower (ascii "From") = ascii "from" := by decide
      exact List.mem_filter.mpr ⟨from_in_map request now messageID boundary, decide_eq_true spelled⟩
  rw [unsorted] at sorted
  exact List.perm_singleton.mp sorted

theorem subject_in_map (free : lastValue (ascii "Subject") (supplied request) = none) :
    (ascii "Subject", encodeHeaderValue request.subject) ∈
      headerMap request now messageID boundary := by
  apply generated_in_map
  · simp [generated, lastValue, ascii]
  · exact free
  · decide

end Entries

theorem message_id_breakless (random : Except Bytes Bytes) (domain messageID : Bytes)
    (made : newMessageID random domain = .ok messageID) :
    isBreakless messageID = isBreakless domain := by
  unfold newMessageID at made
  split at made
  · cases made
  · cases made
    rw [breakless_append, breakless_append, hex_encode_breakless, to_lower_breakless]
    split
    case isTrue empty =>
      rw [empty]
      decide
    case isFalse => rfl

theorem boundary_breakless (entropy : Entropy) (body : Body) (boundary : Bytes)
    (made : bodyBoundary entropy body = .ok boundary) : isBreakless boundary = true := by
  unfold bodyBoundary at made
  split at made
  · unfold newBoundary at made
    split at made
    · cases made
    · cases made
      rw [breakless_append, hex_encode_breakless]
      decide
  · cases made
    rfl

theorem header_map_clean_iff (request : SendRequest) (now : Stamp) (hostname messageID boundary : Bytes)
    (identified : isBreakless messageID = isBreakless (messageDomain hostname request.source))
    (bounded : isBreakless boundary = true) :
    (∀ field ∈ headerMap request now messageID boundary, isCleanField field = true) ↔
      StaysInLine hostname request := by
  constructor
  · intro clean
    refine ⟨?_, ?_, ?_⟩
    · have entry := clean _ (from_in_map request now messageID boundary)
      simp only [isCleanField, Bool.and_eq_true] at entry
      exact entry.2
    · have entry := clean _ (message_id_in_map request now messageID boundary)
      simp only [isCleanField, breakless_append, Bool.and_eq_true] at entry
      rw [← identified]
      exact entry.2.1.2
    · intro name value last
      exact clean _ (supplied_in_map request now messageID boundary name value last)
  · rintro ⟨source, domain, given⟩ ⟨name, value⟩ entry
    rw [← identified] at domain
    rcases map_entry_cases request now messageID boundary name value entry with content | last | made
    · exact content_headers_clean boundary request.body bounded _ content
    · exact given name value last
    · simp only [generated, List.mem_cons, List.not_mem_nil, or_false, Prod.mk.injEq] at made
      rcases made with ⟨rfl, rfl⟩ | ⟨rfl, rfl⟩ | ⟨rfl, rfl⟩ | ⟨rfl, rfl⟩ | ⟨rfl, rfl⟩
      · simp only [isCleanField, source]
        decide
      · simp only [isCleanField, rfc1123z_breakless]
        decide
      · simp only [isCleanField, breakless_append, domain]
        decide
      · simp only [isCleanField, encode_header_value_breakless]
        decide
      · decide

theorem build_structured_message_ok (quotedPrintable : Bytes → Bytes) (entropy : Entropy)
    (request : SendRequest) (hostname : Bytes) (now : Stamp) (built : BuiltMessage)
    (returned : buildStructuredMessage quotedPrintable entropy request hostname now = .ok built) :
    ∃ boundary body, newMessageID entropy.messageID (messageDomain hostname request.source) =
        .ok built.messageID ∧ bodyBoundary entropy request.body = .ok boundary ∧
      built.bytes = writeHead request now built.messageID boundary ++ body := by
  unfold buildStructuredMessage at returned
  split at returned
  · cases returned
  case h_2 messageID identified =>
    split at returned
    · cases returned
    case h_2 boundary bounded =>
      cases returned
      obtain ⟨body, written⟩ := write_body_extends quotedPrintable request.body boundary
        (writeHead request now messageID boundary)
      exact ⟨boundary, body, identified, bounded, written⟩

/-- The message of a structured request reads as the header map, with the From
field and the subject of the request and with the body where the builder ended
the header, exactly when the request stays in line. -/
theorem structured_message_reads_iff (quotedPrintable : Bytes → Bytes) (entropy : Entropy)
    (request : SendRequest) (hostname : Bytes) (now : Stamp) (built : BuiltMessage)
    (returned : buildStructuredMessage quotedPrintable entropy request hostname now = .ok built) :
    ∃ boundary body, bodyBoundary entropy request.body = .ok boundary ∧
      built.bytes = writeHead request now built.messageID boundary ++ body ∧
        (ReadsAsBuilt request (headerMap request now built.messageID boundary) built.bytes body ↔
          StaysInLine hostname request) := by
  obtain ⟨boundary, body, identified, bounded, bytes⟩ :=
    build_structured_message_ok quotedPrintable entropy request hostname now built returned
  refine ⟨boundary, body, bounded, bytes, ?_⟩
  have clean := header_map_clean_iff request now hostname built.messageID boundary
    (message_id_breakless _ _ _ identified) (boundary_breakless entropy request.body boundary bounded)
  have sorted : (∀ field ∈ sortHeaders (headerMap request now built.messageID boundary),
      isCleanField field = true) ↔ StaysInLine hostname request := by
    rw [← clean]
    have same := sort_headers_perm (headerMap request now built.messageID boundary)
    exact ⟨fun each field member => each field (same.mem_iff.mpr member),
      fun each field member => each field (same.mem_iff.mp member)⟩
  have reads := read_written_iff (sortHeaders (headerMap request now built.messageID boundary)) body
  have layout : built.bytes =
      ((sortHeaders (headerMap request now built.messageID boundary)).flatMap
        fun field => headerLine field ++ crlf) ++ (crlf ++ body) := by
    rw [bytes, writeHead, writeHeaders, List.append_assoc]
  rw [← sorted, ← reads, ← layout]
  constructor
  · exact fun built => built.fields
  · intro fields
    refine ⟨fields, one_from_field request now built.messageID boundary, ?_⟩
    intro free
    exact ⟨_, subject_in_map request now built.messageID boundary free,
      encode_header_value_denotes request.subject⟩

def requestWith (value : Bytes) : SendRequest where
  source := ascii "a@b.org"
  destination := ⟨[ascii "c@d.org"], [], []⟩
  subject := ascii "s"
  body := ⟨ascii "t", [], [(ascii "x-note", value)]⟩

def builtWith (value : Bytes) : BuiltMessage where
  bytes := writeBody (fun text => text) (requestWith value).body []
    (writeHead (requestWith value) sampleStamp (ascii "01@b.org") [])
  messageID := ascii "01@b.org"

theorem request_with_built (value : Bytes) :
    buildStructuredMessage (fun text => text) sampleCaller.entropy (requestWith value)
      (ascii "mx.b.org") sampleStamp = .ok (builtWith value) := by
  have identified : newMessageID sampleCaller.entropy.messageID
      (messageDomain (ascii "mx.b.org") (requestWith value).source) = .ok (ascii "01@b.org") := by
    have closed : newMessageID (.ok [1]) (messageDomain (ascii "mx.b.org") (ascii "a@b.org")) =
        .ok (ascii "01@b.org") := by decide +kernel
    exact closed
  have bounded : bodyBoundary sampleCaller.entropy (requestWith value).body = .ok [] := rfl
  rw [buildStructuredMessage, identified]
  simp only [bounded]
  rfl

def forgedNote : Bytes := ascii "n\r\nBcc: e@f.org"

theorem header_value_forges_field :
    validateSendRequest bareOutside sampleOptions (requestWith forgedNote) = none ∧
      buildStructuredMessage (fun text => text) sampleCaller.entropy (requestWith forgedNote)
        (ascii "mx.b.org") sampleStamp = .ok (builtWith forgedNote) ∧
      (∃ fields body, readMessage (builtWith forgedNote).bytes = some (fields, body) ∧
        (ascii "Bcc", ascii "e@f.org") ∈ fields) ∧
      ∀ body, ¬ReadsAsBuilt (requestWith forgedNote)
        (headerMap (requestWith forgedNote) sampleStamp (ascii "01@b.org") [])
          (builtWith forgedNote).bytes body := by
  refine ⟨by decide +kernel, request_with_built forgedNote, ?_, ?_⟩
  · have reads : (readMessage (builtWith forgedNote).bytes).any fun read =>
        read.1.contains (ascii "Bcc", ascii "e@f.org") := by decide +kernel
    obtain ⟨⟨fields, body⟩, read, member⟩ := (Option.any_eq_true _ _).mp reads
    exact ⟨fields, body, read, List.contains_iff_mem.mp member⟩
  · rintro body ⟨fields, _, _⟩
    have apart : ((readMessage (builtWith forgedNote).bytes).map Prod.fst) ≠
        some (sortHeaders (headerMap (requestWith forgedNote) sampleStamp (ascii "01@b.org") [])) := by
      decide +kernel
    rw [fields] at apart
    exact apart rfl

theorem structured_message_reads_of_note :
    ∃ boundary body, bodyBoundary sampleCaller.entropy (requestWith (ascii "n")).body = .ok boundary ∧
      (builtWith (ascii "n")).bytes =
          writeHead (requestWith (ascii "n")) sampleStamp (ascii "01@b.org") boundary ++ body ∧
        (ReadsAsBuilt (requestWith (ascii "n"))
            (headerMap (requestWith (ascii "n")) sampleStamp (ascii "01@b.org") boundary)
            (builtWith (ascii "n")).bytes body ↔
          StaysInLine (ascii "mx.b.org") (requestWith (ascii "n"))) :=
  structured_message_reads_iff (fun text => text) sampleCaller.entropy (requestWith (ascii "n"))
    (ascii "mx.b.org") sampleStamp (builtWith (ascii "n")) (request_with_built (ascii "n"))

end Herold.Send

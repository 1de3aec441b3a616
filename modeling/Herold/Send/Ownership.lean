import Herold.Send.Forgery

/-!
# The From fields of a raw message

The handler checks the first address of the first From field and queues the
message with all the others in it. Putting a Message-ID or a date in front
changes no From field, so every address of the queued message is the caller's
exactly when the further addresses of the request's are.
-/

namespace Herold.Send

open Herold.Go Herold.Queue

/-- All the addresses of a field, of which `extractFirstAddress` takes the first. -/
def fieldAddresses (outside : Outside) (field : Bytes) : List Bytes :=
  match outside.parseAddressList field with
  | .ok (address :: rest) => address :: rest
  | _ => match outside.parseAddress (trimSpace field) with
    | .ok address => [address]
    | .error _ => []

def fromAddresses (outside : Outside) (message : Bytes) : List Bytes :=
  match readRawHeader message with
  | .ok fields => (headerValues fields (ascii "From")).flatMap (fieldAddresses outside)
  | .error _ => []

def mayUse (caller : Caller) (address : Bytes) : Prop :=
  checkFrom caller.directory caller.principal (some caller.key) (toLower address) = .ok .allowed

def hasPlainDomain (address : Bytes) : Bool :=
  (cutLastByte 64 address).any fun halves => isBreakless halves.2

/-- What `net/mail` promises of its address parsers: an empty text is no address,
and every address has a domain, a dotted word or a bracketed IP address, behind
its last at sign. -/
structure NetMail (outside : Outside) : Prop where
  no_list : ∀ addresses, outside.parseAddressList [] ≠ .ok addresses
  no_address : ∀ address, outside.parseAddress [] ≠ .ok address
  list_domains : ∀ text addresses, outside.parseAddressList text = .ok addresses →
    ∀ address ∈ addresses, hasPlainDomain address = true
  domains : ∀ text address, outside.parseAddress text = .ok address → hasPlainDomain address = true

theorem extract_first (outside : Outside) (field : Bytes) :
    extractFirstAddress outside field = (fieldAddresses outside field).headD [] := by
  unfold extractFirstAddress fieldAddresses
  cases outside.parseAddressList field with
  | error error => cases outside.parseAddress (trimSpace field) <;> rfl
  | ok addresses =>
    cases addresses with
    | nil => cases outside.parseAddress (trimSpace field) <;> rfl
    | cons address rest => rfl

theorem field_addresses_plain (outside : Outside) (sound : NetMail outside) (field : Bytes) :
    ∀ address ∈ fieldAddresses outside field, hasPlainDomain address = true := by
  intro address member
  unfold fieldAddresses at member
  split at member
  case h_1 parsed => exact sound.list_domains field _ parsed address member
  case h_2 =>
    split at member
    case h_1 found parsed =>
      rw [List.mem_singleton.mp member]
      exact sound.domains _ _ parsed
    case h_2 => cases member

theorem empty_field_addresses (outside : Outside) (sound : NetMail outside) :
    fieldAddresses outside [] = [] := by
  unfold fieldAddresses
  split
  case h_1 parsed => exact absurd parsed (sound.no_list _)
  case h_2 =>
    have trimmed : trimSpace [] = [] := rfl
    rw [trimmed]
    split
    case h_1 parsed => exact absurd parsed (sound.no_address _)
    case h_2 => rfl

/-- The first line of a text starts as the text does, unless it is empty. -/
theorem first_line_head (raw line : Bytes) (lines : List Bytes) (split : splitLines raw = line :: lines)
    (nonempty : line ≠ []) : line.head? = raw.head? := by
  fun_cases splitLines raw with
  | case1 => cases split
  | case2 rest =>
    cases split
    exact absurd rfl nonempty
  | case3 rest =>
    cases split
    exact absurd rfl nonempty
  | case4 byte rest _ _ none =>
    rw [splitLines, none] at split
    · cases split
      rfl
    all_goals assumption
  | case5 byte rest _ _ next more found =>
    rw [splitLines, found] at split
    · cases split
      rfl
    all_goals assumption

theorem read_behind_line (line raw : Bytes) (name value : Bytes) (fields : List (Bytes × Bytes))
    (readAs : readRawHeader raw = .ok fields) (clean : isBreakless line = true)
    (trimmed : trimBlanks line = line) (starts : continues line = false) (nonempty : line ≠ [])
    (split : cutFirstByte 58 line = some (name, value)) (named : name ≠ []) :
    readRawHeader (line ++ (crlf ++ raw)) =
      .ok ((canonicalMIMEHeaderKey name, value.dropWhile isBlank) :: fields) := by
  unfold readRawHeader at readAs ⊢
  dsimp only at readAs ⊢
  have begins : continues (line ++ (crlf ++ raw)) = false := by
    obtain ⟨first, rest, rfl⟩ := List.exists_cons_of_ne_nil nonempty
    exact starts
  have bytes := List.all_eq_true.mp clean
  have breakless : 13 ∉ line ∧ 10 ∉ line :=
    ⟨fun member => absurd (bytes 13 member) (by decide), fun member =>
      absurd (bytes 10 member) (by decide)⟩
  rw [begins, split_lines_line crlf line raw (.inl rfl) breakless]
  split at readAs
  · cases readAs
  case isFalse plain =>
    have block : headerBlock (line :: splitLines raw) = line :: headerBlock (splitLines raw) := by
      simp [headerBlock, nonempty]
    have apart : logicalLines (line :: headerBlock (splitLines raw)) =
        line :: logicalLines (headerBlock (splitLines raw)) := by
      rw [logicalLines, trimmed]
      cases below : headerBlock (splitLines raw) with
      | nil => rfl
      | cons first more =>
        cases lines : splitLines raw with
        | nil =>
          rw [lines] at below
          cases below
        | cons head tail =>
          rw [lines, headerBlock, List.takeWhile_cons] at below
          split at below
          case isTrue filled =>
            obtain ⟨rfl, rfl⟩ := List.cons.inj below
            have some : head ≠ [] := by simpa using filled
            have same := first_line_head raw head tail lines some
            have fresh : continues head = false := by
              rw [continues, same]
              simpa [continues] using plain
            rw [gather, fresh, logicalLines]
            simp
          case isFalse => cases below
    rw [block, apart, parseFields, split]
    split at readAs
    · cases readAs
    case h_2 found parsed =>
      split at readAs
      · cases readAs
      · cases readAs
        simp [named, endsEarly]

theorem trim_blanks_fixed (line : Bytes) (last : UInt8) (starts : continues (line ++ [last]) = false)
    (ends : isBlank last = false) : trimBlanks (line ++ [last]) = line ++ [last] := by
  have leading : (line ++ [last]).dropWhile isBlank = line ++ [last] := by
    cases line with
    | nil => simp [ends]
    | cons first rest =>
      have plain : isBlank first = false := by simpa [continues, isBlank] using starts
      simp [plain]
  rw [trimBlanks, leading, drop_trailing_stops isBlank line last [] ends]
  rfl

theorem prepended_keeps_from (start core : Bytes) (last : UInt8) (name value : Bytes) (raw : Bytes)
    (fields : List (Bytes × Bytes)) (readAs : readRawHeader raw = .ok fields)
    (shape : start ++ core ++ [last] = name ++ 58 :: value) (free : 58 ∉ name) (named : name ≠ [])
    (clean : isBreakless (start ++ core ++ [last]) = true)
    (starts : continues (start ++ core ++ [last]) = false) (ends : isBlank last = false)
    (other : canonicalMIMEHeaderKey name ≠ canonicalMIMEHeaderKey (ascii "From")) :
    ∃ more, readRawHeader (start ++ core ++ [last] ++ crlf ++ raw) = .ok more ∧
      headerValues more (ascii "From") = headerValues fields (ascii "From") := by
  have split : cutFirstByte 58 (start ++ core ++ [last]) = some (name, value) := by
    rw [shape]
    exact cut_first_byte_append 58 name value free
  have trimmed := trim_blanks_fixed (start ++ core) last starts ends
  have read := read_behind_line _ raw name value fields readAs clean trimmed starts
    (by simp) split named
  rw [← List.append_assoc (start ++ core ++ [last])] at read
  refine ⟨_, read, ?_⟩
  simp [headerValues, other]

theorem message_id_keeps_from (messageID raw : Bytes) (fields : List (Bytes × Bytes))
    (readAs : readRawHeader raw = .ok fields) (clean : isBreakless messageID = true) :
    ∃ more, readRawHeader (messageIDLine messageID ++ raw) = .ok more ∧
      headerValues more (ascii "From") = headerValues fields (ascii "From") := by
  have kept := prepended_keeps_from (ascii "Message-ID: <") messageID 62 (ascii "Message-ID")
    (ascii " <" ++ messageID ++ [62]) raw fields readAs (by simp [ascii]) (by decide) (by decide)
    (by
      rw [breakless_append, breakless_append, clean]
      decide)
    (by simp [continues, ascii]) (by decide) (by decide)
  exact kept

theorem date_keeps_from (now : Stamp) (raw : Bytes) (fields : List (Bytes × Bytes))
    (readAs : readRawHeader raw = .ok fields) :
    ∃ more, readRawHeader (dateLine now ++ raw) = .ok more ∧
      headerValues more (ascii "From") = headerValues fields (ascii "From") := by
  obtain ⟨core, ending⟩ : ∃ core, now.rfc1123Z = core ++ [48] := by
    have tail : ascii " +0000" = ascii " +000" ++ [48] := by decide
    rw [Stamp.rfc1123Z, tail, ← List.append_assoc]
    exact ⟨_, rfl⟩
  have whole := rfc1123z_breakless now
  rw [ending] at whole
  have kept := prepended_keeps_from (ascii "Date: ") core 48 (ascii "Date")
    (ascii " " ++ core ++ [48]) raw fields readAs (by simp [ascii]) (by decide) (by decide)
    (by
      rw [List.append_assoc, breakless_append, whole]
      decide)
    (by simp [continues, ascii]) (by decide) (by decide)
  rw [dateLine, ending, ← List.append_assoc]
  exact kept

theorem message_domain_plain (hostname address : Bytes) (plain : hasPlainDomain address = true) :
    isBreakless (messageDomain hostname address) = true := by
  unfold hasPlainDomain at plain
  unfold messageDomain
  cases found : cutLastByte 64 address with
  | none => simp [found] at plain
  | some halves => simpa [found] using plain

theorem inspected_keeps_from (entropy : Entropy) (raw hostname source : Bytes) (now : Stamp)
    (inspected : Inspected) (fields : List (Bytes × Bytes)) (readAs : readRawHeader raw = .ok fields)
    (plain : hasPlainDomain source = true) (given : headerGet fields (ascii "From") ≠ [])
    (built : inspectRawMessage entropy raw hostname source now = .ok inspected) :
    ∃ more, readRawHeader inspected.bytes = .ok more ∧
      headerValues more (ascii "From") = headerValues fields (ascii "From") := by
  unfold inspectRawMessage at built
  rw [readAs] at built
  dsimp only at built
  rw [show (decide (headerGet fields (ascii "From") = []) && decide (source ≠ [])) = false by
    simp [given]] at built
  have dated : ∃ more, readRawHeader
    ((if headerGet fields (ascii "Date") = [] then dateLine now else []) ++
      raw) = .ok more ∧ headerValues more (ascii "From") = headerValues fields (ascii "From") := by
    split
    · exact date_keeps_from now raw fields readAs
    · exact ⟨fields, readAs, rfl⟩
  obtain ⟨middle, readMiddle, sameMiddle⟩ := dated
  split at built
  · cases built
  case h_2 messageID idLine ensured =>
    cases built
    simp only [Bool.false_eq_true, if_false, List.append_nil, List.append_assoc]
    unfold ensureMessageID at ensured
    dsimp only at ensured
    split at ensured
    · split at ensured
      · cases ensured
      case h_2 made =>
        cases ensured
        have clean : isBreakless messageID = true := by
          rw [message_id_breakless _ _ _ made]
          exact message_domain_plain hostname source plain
        obtain ⟨more, readMore, sameMore⟩ := message_id_keeps_from messageID _ middle readMiddle clean
        exact ⟨more, readMore, sameMore.trans sameMiddle⟩
    · cases ensured
      exact ⟨middle, readMiddle, sameMiddle⟩

theorem from_addresses_start (outside : Outside) (sound : NetMail outside)
    (fields : List (Bytes × Bytes))
    (source : Bytes) (first : source = extractFirstAddress outside (headerGet fields (ascii "From")))
    (named : source ≠ []) :
    headerGet fields (ascii "From") ≠ [] ∧ hasPlainDomain source = true ∧
      ∃ further, (headerValues fields (ascii "From")).flatMap (fieldAddresses outside) =
        source :: further := by
  rw [extract_first] at first
  unfold headerGet at first ⊢
  cases values : headerValues fields (ascii "From") with
  | nil =>
    rw [values, List.headD_nil, empty_field_addresses outside sound] at first
    exact absurd first named
  | cons value more =>
    rw [values, List.headD_cons] at first
    have filled : value ≠ [] := by
      rintro rfl
      rw [empty_field_addresses outside sound] at first
      exact named first
    cases addresses : fieldAddresses outside value with
    | nil =>
      rw [addresses] at first
      exact absurd first named
    | cons address rest =>
      rw [addresses, List.headD_cons] at first
      subst first
      refine ⟨filled, ?_, rest ++ more.flatMap (fieldAddresses outside), ?_⟩
      · apply field_addresses_plain outside sound value
        rw [addresses]
        exact List.mem_cons_self ..
      · rw [List.flatMap_cons, addresses, List.cons_append]

/-- The caller may use every From address of the queued message exactly when the
caller may use every From address of the request's message behind the first. -/
theorem raw_from_owned_iff (outside : Outside) (options : Send.ServerOptions) (caller : Caller)
    (request : SendRawRequest) (submission : Submission) (messageID : Bytes) (sound : NetMail outside)
    (accepted : sendRawSubmission outside options caller request = .ok (submission, messageID)) :
    ∃ raw queued, stdDecode request.rawMessage = some raw ∧ submission.body = some queued ∧
      ((∀ address ∈ fromAddresses outside queued, mayUse caller address) ↔
        ∀ address ∈ (fromAddresses outside raw).tail, mayUse caller address) := by
  obtain ⟨raw, fields, inspected, decoded, readAs, sender, named, allowed, built, body, _⟩ :=
    send_raw_submission_ok outside options caller request submission messageID accepted
  refine ⟨raw, inspected.bytes, decoded, body, ?_⟩
  obtain ⟨given, plain, further, listed⟩ :=
    from_addresses_start outside sound fields submission.mailFrom sender named
  obtain ⟨more, readMore, same⟩ := inspected_keeps_from caller.entropy raw options.hostname
    submission.mailFrom caller.now inspected fields readAs plain given built
  have owned : mayUse caller submission.mailFrom := check_from_policy_none caller _ allowed
  have queued : fromAddresses outside inspected.bytes = submission.mailFrom :: further := by
    simp only [fromAddresses, readMore, same, listed]
  have requested : fromAddresses outside raw = submission.mailFrom :: further := by
    simp only [fromAddresses, readAs, listed]
  rw [queued, requested, List.tail_cons, List.forall_mem_cons]
  exact ⟨fun both => both.2, fun rest => ⟨owned, rest⟩⟩

theorem bare_address_ok (text address : Bytes) (parsed : bareAddress text = .ok address) :
    hasPlainDomain address = true := by
  unfold bareAddress at parsed
  split at parsed
  case h_1 localPart domain halves =>
    split at parsed
    case isTrue tokens =>
      cases parsed
      unfold splitAddr at halves
      split at halves
      case h_1 left right found =>
        split at halves
        · cases halves
        · cases halves
          rw [hasPlainDomain, found]
          rw [Bool.and_eq_true, List.all_eq_true, List.all_eq_true] at tokens
          simp only [Option.any_some, breakless_iff]
          exact ⟨fun inside => absurd (tokens.2 13 inside) (by decide),
            fun inside => absurd (tokens.2 10 inside) (by decide)⟩
      case h_2 => cases halves
    case isFalse => cases parsed
  case h_2 => cases parsed

theorem bare_list_ok (parts addresses : List Bytes)
    (parsed : parts.mapM (fun part => bareAddress (trimBlanks part)) = .ok addresses) :
    ∀ address ∈ addresses, hasPlainDomain address = true := by
  induction parts generalizing addresses with
  | nil =>
    cases parsed
    simp
  | cons part parts ih =>
    rw [List.mapM_cons] at parsed
    cases first : bareAddress (trimBlanks part) with
    | error error =>
      rw [first] at parsed
      cases parsed
    | ok address =>
      cases rest : parts.mapM (fun part => bareAddress (trimBlanks part)) with
      | error error =>
        rw [first, rest] at parsed
        cases parsed
      | ok others =>
        rw [first, rest] at parsed
        cases parsed
        intro other member
        rcases List.mem_cons.mp member with rfl | later
        · exact bare_address_ok _ _ first
        · exact ih others rest other later

theorem bare_net_mail : NetMail bareOutside where
  no_list := by
    intro addresses parsed
    cases parsed
  no_address := by
    intro address parsed
    cases parsed
  list_domains := fun text addresses parsed => bare_list_ok (splitByte 44 text) addresses parsed
  domains := fun text address parsed => bare_address_ok text address parsed

def rawRequest (message : Bytes) : SendRawRequest where
  destinations := [ascii "c@d.org"]
  rawMessage := base64URLOk message

def sharedFrom : Bytes := ascii "Date: x\r\nMessage-ID: <1>\r\nFrom: a@b.org, x@y.org\r\n\r\n"

def ownFrom : Bytes := ascii "Date: x\r\nMessage-ID: <1>\r\nFrom: a@b.org\r\n\r\n"

def plainSubmission (message : Bytes) : Submission where
  principalID := some 1
  mailFrom := ascii "a@b.org"
  recipients := [ascii "c@d.org"]
  body := some message

theorem own_raw_accepted {raw : Bytes} {fields : List (Bytes × Bytes)}
    (decoded : decodeRaw bareOutside sampleOptions (rawRequest raw) = .ok raw)
    (readAs : readRawHeader raw = .ok fields)
    (first : extractFirstAddress bareOutside (headerGet fields (ascii "From")) = ascii "a@b.org")
    (inspected : inspectRawMessage sampleCaller.entropy raw sampleOptions.hostname (ascii "a@b.org")
      sampleCaller.now = .ok ⟨raw, ascii "1"⟩) :
    sendRawSubmission bareOutside sampleOptions sampleCaller (rawRequest raw) =
      .ok (plainSubmission raw, ascii "1") := by
  have owned : checkFromPolicy sampleCaller (ascii "a@b.org") = none := by decide +kernel
  rw [sendRawSubmission, decoded]
  simp only [readAs, first, owned, inspected]
  rfl

theorem shared_from_accepted :
    sendRawSubmission bareOutside sampleOptions sampleCaller (rawRequest sharedFrom) =
      .ok (plainSubmission sharedFrom, ascii "1") := by
  have readAs : readRawHeader sharedFrom =
    .ok [(ascii "Date", ascii "x"), (ascii "Message-Id", ascii "<1>"),
      (ascii "From", ascii "a@b.org, x@y.org")] := by
    unfold sharedFrom
    repeat rw [ascii_of_list]
    decide +kernel
  apply own_raw_accepted _ readAs
  · decide +kernel
  · unfold sharedFrom
    repeat rw [ascii_of_list]
    decide +kernel
  · unfold sharedFrom
    repeat rw [ascii_of_list]
    decide +kernel

theorem own_from_accepted :
    sendRawSubmission bareOutside sampleOptions sampleCaller (rawRequest ownFrom) =
      .ok (plainSubmission ownFrom, ascii "1") := by
  have readAs : readRawHeader ownFrom =
    .ok [(ascii "Date", ascii "x"), (ascii "Message-Id", ascii "<1>"),
      (ascii "From", ascii "a@b.org")] := by
    unfold ownFrom
    repeat rw [ascii_of_list]
    decide +kernel
  apply own_raw_accepted _ readAs
  · decide +kernel
  · unfold ownFrom
    repeat rw [ascii_of_list]
    decide +kernel
  · unfold ownFrom
    repeat rw [ascii_of_list]
    decide +kernel

/-- The second author is queued although the caller may not use it. -/
theorem second_author_unchecked :
    sampleCaller.principal.isAdmin = false ∧
      sendRawSubmission bareOutside sampleOptions sampleCaller (rawRequest sharedFrom) =
        .ok (plainSubmission sharedFrom, ascii "1") ∧
      ascii "x@y.org" ∈ fromAddresses bareOutside sharedFrom ∧
        ¬mayUse sampleCaller (ascii "x@y.org") := by
  refine ⟨rfl, shared_from_accepted, ?_, ?_⟩
  · unfold sharedFrom
    repeat rw [ascii_of_list]
    decide +kernel
  · unfold mayUse
    decide +kernel

theorem raw_from_owned_of_own_address :
    ∃ raw queued, stdDecode (rawRequest ownFrom).rawMessage = some raw ∧
      (plainSubmission ownFrom).body = some queued ∧
        ((∀ address ∈ fromAddresses bareOutside queued, mayUse sampleCaller address) ↔
          ∀ address ∈ (fromAddresses bareOutside raw).tail, mayUse sampleCaller address) :=
  raw_from_owned_iff bareOutside sampleOptions sampleCaller (rawRequest ownFrom) _ _ bare_net_mail
    own_from_accepted

end Herold.Send

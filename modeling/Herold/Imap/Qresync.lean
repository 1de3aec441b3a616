import Herold.Go.Json
import Herold.Imap.Framing
import Herold.Store.Numbering

/-!
# Resynchronising with QRESYNC

A client that names the modification sequence it has seen is told of every row that
was stamped since. It is told of expunged UIDs only as far as it lists them itself:
the store keeps no record of them, and `emitQresyncSelectResponses` takes the UIDs
of `known-uids` that are not in the mailbox. Without the list there is nothing to
take them from.
-/

namespace Herold.Qresync

open Herold.Go Herold.Store Herold.Imap Herold.Machine

/-- The bytes of a parenthesised group, which starts here at depth zero. -/
def takeGroup : Nat → Bytes → Bytes × Bytes
  | _, [] => ([], [])
  | depth, byte :: rest =>
    let deeper := if byte = 40 then depth + 1 else if byte = 41 then depth - 1 else depth
    if byte = 41 ∧ deeper = 0 then ([byte], rest)
    else
      let (group, after) := takeGroup deeper rest
      (byte :: group, after)

def positional : Nat → Bytes → List Bytes
  | 0, _ => []
  | rounds + 1, text =>
    match text.dropWhile (· = 32) with
    | [] => []
    | first :: rest =>
      let (token, after) :=
        if first = 40 then takeGroup 0 (first :: rest)
        else ((first :: rest).takeWhile (· ≠ 32), (first :: rest).dropWhile (· ≠ 32))
      token :: positional rounds after

/-- `strings.Trim(token, "()")`. -/
def trimParens (token : Bytes) : Bytes :=
  dropTrailing (fun byte => byte = 40 || byte = 41) (token.dropWhile fun byte => byte = 40 || byte = 41)

def knownOf (token : Bytes) : Option NumSet :=
  if trimParens token = [] then none else parseNumSetString (trimParens token)

structure QresyncArgs where
  clientUIDValidity : Nat
  clientModSeq : Nat
  knownUIDs : Option NumSet

def parseQresyncArgs (raw : Bytes) : QresyncArgs :=
  let text := trimSpace raw
  let inner := if text.head? = some 40 ∧ text.getLast? = some 41 then (text.drop 1).dropLast else text
  let tokens := positional (inner.length + 1) inner
  { clientUIDValidity := (tokens[0]?.bind parseUint32).getD 0
    clientModSeq := (tokens[1]?.bind parseUint64).getD 0
    knownUIDs := tokens[2]?.bind knownOf }

/-- `for i := lo; i <= hi; i++` on 32-bit numbers: what the loop visits, if it ends
within the rounds given. -/
def countUp : Nat → Nat → Nat → Option (List Nat)
  | 0, _, _ => none
  | fuel + 1, i, hi =>
    if i ≤ hi then (countUp fuel ((i + 1) % 2 ^ 32) hi).map fun later => i :: later
    else some []

/-- `*` is the highest UID given out, `UIDNext - 1` in 32 bits. -/
def uidEnds (uidNext : Nat) (range : NumRange) : Nat × Nat :=
  (range.start, if range.stop = maxNumber then (uidNext + maxNumber) % 2 ^ 32 else range.stop)

def maxPerLine : Nat := 1024

def enoughRounds : Nat := 2 ^ 32 + 1

/-- The runs of adjacent UIDs, from inside the run `start` to `prev` on. -/
def uidRuns (start prev : Nat) : List Nat → List (Nat × Nat)
  | [] => [(start, prev)]
  | uid :: uids =>
    if uid = prev + 1 then uidRuns start uid uids else (start, prev) :: uidRuns uid uid uids

def runText (run : Nat × Nat) : Bytes :=
  if run.1 = run.2 then decimal run.1 else decimal run.1 ++ 58 :: decimal run.2

def formatUIDList : List Nat → Bytes
  | [] => []
  | uid :: uids => List.intercalate [44] ((uidRuns uid uid uids).map runText)

def flagNamesFromMask (flags : MessageFlags) (keywords : List Bytes) : List Bytes :=
  (if flags &&& .seen ≠ 0 then [ascii "\\Seen"] else []) ++
    (if flags &&& .answered ≠ 0 then [ascii "\\Answered"] else []) ++
    (if flags &&& .flagged ≠ 0 then [ascii "\\Flagged"] else []) ++
    (if flags &&& .deleted ≠ 0 then [ascii "\\Deleted"] else []) ++
    (if flags &&& .draft ≠ 0 then [ascii "\\Draft"] else []) ++ keywords

def shown (row : Membership) : List Bytes := flagNamesFromMask row.flags (splitKeywords row.keywordsCSV)

inductive Untagged where
  | vanishedEarlier (uidSet : Bytes)
  | fetch (seq uid : Nat) (flags : List Bytes) (modSeq : Nat)
  deriving DecidableEq

/-- The known UIDs that are not in the mailbox; none where a loop does not end. -/
def vanishedOf (fuel : Nat) (uidNext : Nat) (msgs : List Membership) : Option NumSet → Option (List Nat)
  | none => some []
  | some known =>
    (known.mapM fun range => countUp fuel (uidEnds uidNext range).1 (uidEnds uidNext range).2).map
      fun visited => visited.flatten.filter fun uid => !(msgs.map Membership.uid).contains uid

def linesOf : Nat → List Nat → List (List Nat)
  | 0, _ => []
  | rounds + 1, uids =>
    if uids = [] then [] else uids.take maxPerLine :: linesOf rounds (uids.drop maxPerLine)

def vanishedLines (vanished : List Nat) : List Untagged :=
  (linesOf vanished.length (vanished.insertionSort (· ≤ ·))).map fun line =>
    .vanishedEarlier (formatUIDList line)

def fetchLines (since : Nat) : Nat → List Membership → List Untagged
  | _, [] => []
  | seq, row :: rows =>
    if row.modSeq ≤ since then fetchLines since (seq + 1) rows
    else .fetch seq row.uid (shown row) row.modSeq :: fetchLines since (seq + 1) rows

def emitQresyncSelectResponses (fuel : Nat) (mailbox : Mailbox) (msgs : List Membership)
    (args : QresyncArgs) : Option (List Untagged) :=
  if args.clientUIDValidity ≠ mailbox.uidValidity then some []
  else if args.clientModSeq = 0 then some []
  else do
    let vanished ← vanishedOf fuel mailbox.uidNext msgs args.knownUIDs
    some (vanishedLines vanished ++ fetchLines args.clientModSeq 1 msgs)

/-- `listAllMessages`: the rows of a mailbox in the order of their UIDs. -/
def listed (tables : Tables) (mailbox : MailboxID) : List Membership :=
  (tables.members.filter fun row => row.mailboxID = mailbox).insertionSort
    fun left right => left.uid ≤ right.uid

abbrev FlagMap := Nat → Option (List Bytes)

def flagMap (tables : Tables) (mailbox : MailboxID) : FlagMap := fun uid =>
  (tables.members.find? fun row => row.mailboxID = mailbox ∧ row.uid = uid).map shown

def names (uidSet : Bytes) (uid : Nat) : Bool :=
  (parseNumSetString uidSet).any fun set => set.any fun range => range.start ≤ uid && uid ≤ range.stop

def hear (map : FlagMap) : Untagged → FlagMap
  | .vanishedEarlier uidSet => fun uid => if names uidSet uid then none else map uid
  | .fetch _ uid flags _ => Function.update map uid (some flags)

/-- What it takes to be brought up to date: a checkpoint other than zero, unless
nothing has changed, and for every UID that is gone a range of `known-uids` that is
written upwards and contains it. -/
structure Resumable (known : Option NumSet) (since : Nat) (before after : FlagMap) : Prop where
  checkpoint : since ≠ 0 ∨ after = before
  reported : ∀ uid, before uid ≠ none → after uid = none →
    ∃ set, known = some set ∧ ∃ range ∈ set, range.start ≤ uid ∧ uid ≤ range.stop

theorem mem_uid_runs (start prev : Nat) (uids : List Nat) (grown : start ≤ prev) (uid : Nat) :
    (∃ run ∈ uidRuns start prev uids, run.1 ≤ uid ∧ uid ≤ run.2) ↔
      start ≤ uid ∧ uid ≤ prev ∨ uid ∈ uids := by
  induction uids generalizing start prev with
  | nil => simp [uidRuns]
  | cons next uids ih =>
    rw [uidRuns, List.mem_cons]
    split
    case isTrue adjacent =>
      rw [ih start next (by omega)]
      constructor
      · rintro (inside | later)
        · omega
        · exact Or.inr (Or.inr later)
      · rintro (inside | rfl | later)
        · exact Or.inl (by omega)
        · exact Or.inl (by omega)
        · exact Or.inr later
    case isFalse apart =>
      simp only [List.mem_cons, or_and_right, exists_or, exists_eq_left]
      rw [ih next next (Nat.le_refl next)]
      refine or_congr_right ⟨?_, ?_⟩
      · rintro (inside | later)
        · exact Or.inl (by omega)
        · exact Or.inr later
      · rintro (rfl | later)
        · exact Or.inl ⟨Nat.le_refl _, Nat.le_refl _⟩
        · exact Or.inr later

theorem uid_runs_word (start prev : Nat) (uids : List Nat) (first : start ≤ maxNumber)
    (last : prev ≤ maxNumber)
    (words : ∀ uid ∈ uids, uid ≤ maxNumber) :
    ∀ run ∈ uidRuns start prev uids, run.1 ≤ maxNumber ∧ run.2 ≤ maxNumber := by
  induction uids generalizing start prev with
  | nil =>
    intro run member
    rw [uidRuns, List.mem_singleton] at member
    rw [member]
    exact ⟨first, last⟩
  | cons next uids ih =>
    have nextWord := words next List.mem_cons_self
    have later := fun uid member => words uid (List.mem_cons_of_mem next member)
    rw [uidRuns]
    split
    · exact ih start next first nextWord later
    · intro run member
      rcases List.mem_cons.mp member with rfl | further
      · exact ⟨first, last⟩
      · exact ih next next nextWord nextWord later run further

theorem decimal_free (value : Nat) (byte : UInt8) (other : isDigit byte = false) :
    byte ∉ decimal value := by
  intro member
  have digit := List.all_eq_true.mp (Json.decimal_digits value).2 byte member
  rw [other] at digit
  cases digit

theorem parse_term_decimal (value : Nat) (word : value ≤ maxNumber) :
    parseRangeTerm (decimal value) = some value := by
  obtain ⟨filled, digits⟩ := Json.decimal_digits value
  have notStar : decimal value ≠ ascii "*" := by
    intro star
    rw [star] at digits
    exact absurd digits (by decide)
  rw [parseRangeTerm, if_neg notStar, parseUint32, if_neg (by simp [filled, digits]),
    decimal_value_decimal, if_pos word]

theorem parse_run_text (run : Nat × Nat) (words : run.1 ≤ maxNumber ∧ run.2 ≤ maxNumber) :
    parseRangeLoHi (runText run) = some ⟨run.1, run.2⟩ := by
  have free : 58 ∉ decimal run.1 := decimal_free run.1 58 (by decide)
  unfold runText parseRangeLoHi
  split_ifs with single
  · rw [splitN, (cut_first_byte_none 58 (decimal run.1)).mpr free]
    simp only
    rw [parse_term_decimal run.1 words.1, ← single]
    rfl
  · rw [splitN, cut_first_byte_append 58 (decimal run.1) _ free]
    simp only [splitN]
    rw [parse_term_decimal run.1 words.1, parse_term_decimal run.2 words.2]
    rfl

theorem parse_run_texts (runs : List (Nat × Nat)) (words : ∀ run ∈ runs, run.1 ≤ maxNumber ∧
    run.2 ≤ maxNumber) :
    (runs.map runText).mapM parseRangeLoHi = some (runs.map fun run => ⟨run.1, run.2⟩) := by
  induction runs with
  | nil => rfl
  | cons run runs ih =>
    rw [List.map_cons, List.mapM_cons, parse_run_text run (words run List.mem_cons_self),
      ih fun other member => words other (List.mem_cons_of_mem run member)]
    rfl

theorem names_format (uids : List Nat) (filled : uids ≠ [])
    (words : ∀ uid ∈ uids, uid ≤ maxNumber) (uid : Nat) :
    names (formatUIDList uids) uid = true ↔ uid ∈ uids := by
  cases uids with
  | nil => exact absurd rfl filled
  | cons first rest =>
    have firstWord := words first List.mem_cons_self
    have bounded := uid_runs_word first first rest firstWord firstWord
      fun uid member => words uid (List.mem_cons_of_mem first member)
    have someRun : (uidRuns first first rest).map runText ≠ [] := by
      have inside := (mem_uid_runs first first rest (Nat.le_refl first) first).mpr
        (Or.inl ⟨Nat.le_refl _, Nat.le_refl _⟩)
      obtain ⟨run, member, _⟩ := inside
      exact List.ne_nil_of_mem (List.mem_map_of_mem member)
    have free : ∀ part ∈ (uidRuns first first rest).map runText, 44 ∉ part := by
      intro part member
      obtain ⟨run, _, rfl⟩ := List.mem_map.mp member
      have plain := fun value => decimal_free value 44 (by decide)
      unfold runText
      split_ifs
      · exact plain run.1
      · simp only [List.mem_append, List.mem_cons, not_or]
        exact ⟨plain run.1, by decide, plain run.2⟩
    have read : parseNumSetString (formatUIDList (first :: rest)) =
        some ((uidRuns first first rest).map fun run => ⟨run.1, run.2⟩) := by
      rw [parseNumSetString, formatUIDList, splitByte,
        split_intercalate 44 _ _ someRun free (Nat.lt_succ_self _)]
      exact parse_run_texts _ bounded
    rw [names, read, Option.any_some, List.any_map, List.any_eq_true]
    simp only [Function.comp_apply, Bool.and_eq_true, decide_eq_true_eq]
    rw [mem_uid_runs first first rest (Nat.le_refl first), List.mem_cons]
    refine or_congr_left ?_
    omega

theorem parsed_range_word (text : Bytes) (range : NumRange) (read : parseRangeLoHi text = some range) :
    range.start ≤ maxNumber ∧ range.stop ≤ maxNumber := by
  have term : ∀ part number, parseRangeTerm part = some number → number ≤ maxNumber := by
    intro part number found
    unfold parseRangeTerm parseUint32 at found
    split_ifs at found with star empty fits
    · cases found
      exact Nat.le_refl _
    · cases found
      exact fits
  unfold parseRangeLoHi at read
  split at read
  · obtain ⟨number, found, rfl⟩ := Option.map_eq_some_iff.mp read
    exact ⟨term _ number found, term _ number found⟩
  · simp only [Option.bind_eq_bind, Option.bind_eq_some_iff, Option.some.injEq] at read
    obtain ⟨start, first, stop, last, rfl⟩ := read
    exact ⟨term _ start first, term _ stop last⟩
  · simp at read

theorem parsed_set (text : Bytes) (set : NumSet) (read : parseNumSetString text = some set) :
    ∀ range ∈ set, range.start ≤ maxNumber ∧ range.stop ≤ maxNumber := by
  unfold parseNumSetString at read
  generalize splitByte 44 text = parts at read
  induction parts generalizing set with
  | nil =>
    cases read
    simp
  | cons part parts ih =>
    simp only [List.mapM_cons, Option.bind_eq_bind, Option.bind_eq_some_iff, Option.pure_def,
      Option.some.injEq] at read
    obtain ⟨range, first, ranges, later, rfl⟩ := read
    intro other listed
    rcases List.mem_cons.mp listed with rfl | inside
    · exact parsed_range_word part other first
    · exact ih ranges later other inside

theorem count_up_run (hi : Nat) (below : hi < maxNumber) (fuel i : Nat) (enough : hi + 1 - i < fuel)
    (word : i ≤ maxNumber) : ∃ visited, countUp fuel i hi = some visited ∧
      ∀ uid, uid ∈ visited ↔ i ≤ uid ∧ uid ≤ hi := by
  induction fuel generalizing i with
  | zero => omega
  | succ fuel ih =>
    unfold countUp
    split_ifs with inside
    · have next : (i + 1) % 2 ^ 32 = i + 1 := by
        unfold maxNumber at below
        omega
      obtain ⟨visited, came, members⟩ := ih (i + 1) (by omega) (by omega)
      refine ⟨i :: visited, by rw [next, came]; rfl, fun uid => ?_⟩
      rw [List.mem_cons, members]
      omega
    · refine ⟨[], rfl, fun uid => ?_⟩
      simp only [List.not_mem_nil, false_iff]
      omega

/-- The end of a range of UIDs stays below the largest number, so its loop ends. -/
theorem uid_ends_below (uidNext : Nat) (range : NumRange) (given : 0 < uidNext ∧ uidNext ≤ maxNumber)
    (word : range.stop ≤ maxNumber) : (uidEnds uidNext range).2 < maxNumber := by
  unfold uidEnds maxNumber at *
  dsimp only
  split <;> omega

theorem visited_ranges (uidNext : Nat) (given : 0 < uidNext ∧ uidNext ≤ maxNumber) (known : NumSet)
    (words : ∀ range ∈ known, range.start ≤ maxNumber ∧ range.stop ≤ maxNumber) :
    ∃ visited, (known.mapM fun range =>
        countUp enoughRounds (uidEnds uidNext range).1 (uidEnds uidNext range).2) = some visited ∧
      ∀ uid, uid ∈ visited.flatten ↔ ∃ range ∈ known, range.start ≤ uid ∧
      uid ≤ (uidEnds uidNext range).2 := by
  induction known with
  | nil => exact ⟨[], rfl, by simp⟩
  | cons range known ih =>
    obtain ⟨start, stop⟩ := words range List.mem_cons_self
    have below := uid_ends_below uidNext range given stop
    obtain ⟨here, came, inside⟩ := count_up_run (uidEnds uidNext range).2 below enoughRounds
      (uidEnds uidNext range).1 (by unfold enoughRounds maxNumber at *; omega) start
    obtain ⟨later, rest, further⟩ :=
      ih fun other member => words other (List.mem_cons_of_mem range member)
    refine ⟨here :: later, by rw [List.mapM_cons, came, rest]; rfl, fun uid => ?_⟩
    rw [List.flatten_cons, List.mem_append, inside, further]
    simp only [List.mem_cons, or_and_right, exists_or, exists_eq_left]
    rfl

theorem lines_of_flatten (rounds : Nat) (uids : List Nat) (enough : uids.length ≤ rounds) :
    (linesOf rounds uids).flatten = uids ∧ ∀ line ∈ linesOf rounds uids, line ≠ [] := by
  induction rounds generalizing uids with
  | zero =>
    rw [List.length_eq_zero_iff.mp (Nat.le_zero.mp enough)]
    exact ⟨rfl, nofun⟩
  | succ rounds ih =>
    rw [linesOf]
    split
    case isTrue empty =>
      rw [empty]
      exact ⟨rfl, nofun⟩
    case isFalse filled =>
      have positive : 0 < uids.length := List.length_pos_iff.mpr filled
      obtain ⟨whole, lines⟩ := ih (uids.drop maxPerLine) (by
        rw [List.length_drop]
        unfold maxPerLine
        omega)
      constructor
      · rw [List.flatten_cons, whole, List.take_append_drop]
      · intro line member
        rcases List.mem_cons.mp member with rfl | later
        · intro empty
          rw [List.take_eq_nil_iff] at empty
          rcases empty with none_ | empty
          · exact absurd none_ (by decide)
          · exact filled empty
        · exact lines line later

theorem hear_lines (lines : List (List Nat)) (filled : ∀ line ∈ lines, line ≠ [])
    (words : ∀ uid ∈ lines.flatten, uid ≤ maxNumber) (map : FlagMap) (uid : Nat) :
    (lines.map fun line => Untagged.vanishedEarlier (formatUIDList line)).foldl hear map uid =
      if uid ∈ lines.flatten then none else map uid := by
  induction lines generalizing map with
  | nil => simp
  | cons line lines ih =>
    have lineWords := fun uid member => words uid (List.mem_append_left _ member)
    have named := names_format line (filled line List.mem_cons_self) lineWords uid
    rw [List.map_cons, List.foldl_cons, ih (fun other member =>
      filled other (List.mem_cons_of_mem line member))
      fun uid member => words uid (List.mem_append_right _ member)]
    simp only [List.flatten_cons, List.mem_append, hear]
    by_cases here : uid ∈ line
    · simp [here, named.mpr here]
    · simp [here, mt named.mp here]

theorem hear_vanished (vanished : List Nat) (words : ∀ uid ∈ vanished, uid ≤ maxNumber) (map : FlagMap)
    (uid : Nat) :
    (vanishedLines vanished).foldl hear map uid = if uid ∈ vanished then none else map uid := by
  have sorted := List.perm_insertionSort (· ≤ ·) vanished
  obtain ⟨whole, filled⟩ := lines_of_flatten vanished.length (vanished.insertionSort (· ≤ ·))
    (Nat.le_of_eq sorted.length_eq)
  rw [vanishedLines, hear_lines _ filled, whole]
  · simp only [sorted.mem_iff]
  · intro other member
    rw [whole] at member
    exact words other (sorted.mem_iff.mp member)

theorem hear_fetches (since seq : Nat) (rows : List Membership)
    (distinct : rows.Pairwise fun left right => left.uid ≠ right.uid) (map : FlagMap) (uid : Nat) :
    (fetchLines since seq rows).foldl hear map uid =
      ((rows.find? fun row => since < row.modSeq ∧ row.uid = uid).map shown).or (map uid) := by
  induction rows generalizing seq map with
  | nil => simp [fetchLines]
  | cons row rows ih =>
    obtain ⟨apart, distinct⟩ := List.pairwise_cons.mp distinct
    rw [fetchLines]
    split
    case isTrue old =>
      rw [ih (seq + 1) distinct map, List.find?_cons_of_neg (by simp; omega)]
    case isFalse changed =>
      rw [List.foldl_cons, ih (seq + 1) distinct]
      by_cases here : row.uid = uid
      · have others : rows.find? (fun row => since < row.modSeq ∧ row.uid = uid) = none := by
          rw [List.find?_eq_none]
          intro other member
          have differs := apart other member
          simp only [decide_eq_true_eq, not_and]
          exact fun _ same => differs (here.trans same.symm)
        rw [others, List.find?_cons_of_pos (by simp [here]; omega)]
        simp [hear, here]
      · rw [List.find?_cons_of_neg (by simp [here])]
        simp [hear, Function.update_of_ne (Ne.symm here)]

section Rows

variable {tables : Tables} {mailbox : MailboxID}

theorem row_unique (numbered : Tables.Numbered tables) {left right : Membership}
    (first : left ∈ tables.members)
    (second : right ∈ tables.members) (place : left.mailboxID = right.mailboxID)
    (same : left.uid = right.uid) :
    left = right := by
  have distinct : (tables.members.map fun row => (row.mailboxID, row.uid)).Nodup := by
    rw [List.Nodup, List.pairwise_map]
    refine numbered.uids.imp fun apart equal => ?_
    exact apart (congrArg Prod.fst equal) (congrArg Prod.snd equal)
  exact List.inj_on_of_nodup_map distinct first second (Prod.ext place same)

theorem flag_map_row (numbered : Tables.Numbered tables) {row : Membership}
    (member : row ∈ tables.members)
    (place : row.mailboxID = mailbox) : flagMap tables mailbox row.uid = some (shown row) := by
  unfold flagMap
  cases found : tables.members.find? fun other => other.mailboxID = mailbox ∧ other.uid = row.uid with
  | none =>
    rw [List.find?_eq_none] at found
    exact absurd (by simpa using place) (found row member)
  | some other =>
    have same : other.mailboxID = mailbox ∧ other.uid = row.uid := by simpa using List.find?_some found
    rw [row_unique numbered (List.mem_of_find?_eq_some found) member (same.1.trans place.symm) same.2]
    rfl

theorem flag_map_none {uid : Nat}
    (absent : ∀ row ∈ tables.members, row.mailboxID = mailbox → row.uid ≠ uid) :
    flagMap tables mailbox uid = none := by
  unfold flagMap
  rw [Option.map_eq_none_iff, List.find?_eq_none]
  intro row member
  simpa using absent row member

theorem flag_map_held {uid : Nat} (held : flagMap tables mailbox uid ≠ none) :
    ∃ row ∈ tables.members, row.mailboxID = mailbox ∧ row.uid = uid := by
  by_contra absent
  exact held (flag_map_none fun row member place same => absent ⟨row, member, place, same⟩)

theorem mem_listed (row : Membership) :
    row ∈ listed tables mailbox ↔ row ∈ tables.members ∧ row.mailboxID = mailbox := by
  rw [listed, List.mem_insertionSort, List.mem_filter, decide_eq_true_eq]

theorem listed_distinct (numbered : Tables.Numbered tables) :
    (listed tables mailbox).Pairwise fun left right => left.uid ≠ right.uid := by
  rw [listed, (List.perm_insertionSort _ _).pairwise_iff Ne.symm]
  refine (numbered.uids.filter _).imp_of_mem ?_
  intro left right first second apart
  have leftPlace : left.mailboxID = mailbox := by simpa using (List.mem_filter.mp first).2
  have rightPlace : right.mailboxID = mailbox := by simpa using (List.mem_filter.mp second).2
  exact apart (leftPlace.trans rightPlace.symm)

end Rows

theorem vanished_members (uidNext : Nat) (given : 0 < uidNext ∧ uidNext ≤ maxNumber)
    (msgs : List Membership)
    (known : Option NumSet)
    (words : ∀ set, known = some set → ∀ range ∈ set, range.start ≤ maxNumber ∧
      range.stop ≤ maxNumber) :
    ∃ vanished, vanishedOf enoughRounds uidNext msgs known = some vanished ∧
      ∀ uid, uid ∈ vanished ↔ (∃ set, known = some set ∧ ∃ range ∈ set, range.start ≤ uid ∧
        uid ≤ (uidEnds uidNext range).2) ∧ ∀ row ∈ msgs, row.uid ≠ uid := by
  cases known with
  | none => exact ⟨[], rfl, by simp⟩
  | some known =>
    obtain ⟨visited, came, inside⟩ := visited_ranges uidNext given known (words known rfl)
    refine ⟨_, by rw [vanishedOf, came]; rfl, fun uid => ?_⟩
    rw [List.mem_filter, inside]
    simp

theorem known_words (raw : Bytes) (set : NumSet) (read : (parseQresyncArgs raw).knownUIDs = some set) :
    ∀ range ∈ set, range.start ≤ maxNumber ∧ range.stop ≤ maxNumber := by
  obtain ⟨token, _, known⟩ := Option.bind_eq_some_iff.mp read
  unfold knownOf at known
  split at known
  · cases known
  · exact parsed_set _ set known

/-- Where the checkpoint is in order: a held UID that is gone is in the client's map
until a `VANISHED` line names it, and every other difference is fetched. -/
theorem resynchronised_iff {early now : Tables} {held : Mailbox} (earlyNumbered : Tables.Numbered early)
    (nowNumbered : Tables.Numbered now) (since : Tables.Advances early now)
    (was : held ∈ early.mailboxes)
    (vanished : List Nat) (words : ∀ uid ∈ vanished, uid ≤ maxNumber)
    (gone : ∀ uid ∈ vanished, ∀ row ∈ listed now held.id, row.uid ≠ uid) :
    (vanishedLines vanished ++ fetchLines held.highestModSeq 1 (listed now held.id)).foldl hear
        (flagMap early held.id) = flagMap now held.id ↔
      ∀ uid, flagMap early held.id uid ≠ none → flagMap now held.id uid = none → uid ∈ vanished := by
  have heard : ∀ uid, (vanishedLines vanished ++ fetchLines held.highestModSeq 1
      (listed now held.id)).foldl hear (flagMap early held.id) uid =
      (((listed now held.id).find? fun row => held.highestModSeq < row.modSeq ∧ row.uid = uid).map
        shown).or
        (if uid ∈ vanished then none else flagMap early held.id uid) := by
    intro uid
    rw [List.foldl_append, hear_fetches _ _ _ (listed_distinct nowNumbered),
      hear_vanished vanished words]
  constructor
  · intro resumed uid kept lost
    by_contra silent
    have here := heard uid
    rw [resumed, lost, if_neg silent] at here
    have both := Option.or_eq_none_iff.mp here.symm
    exact kept both.2
  · intro reported
    funext uid
    rw [heard uid]
    cases found : (listed now held.id).find? fun row => held.highestModSeq < row.modSeq ∧
      row.uid = uid with
    | some row =>
      obtain ⟨member, place⟩ := (mem_listed row).mp (List.mem_of_find?_eq_some found)
      have stamped : held.highestModSeq < row.modSeq ∧ row.uid = uid := by
        simpa using List.find?_some found
      rw [← stamped.2, flag_map_row nowNumbered member place]
      rfl
    | none =>
      rw [List.find?_eq_none] at found
      rw [Option.map_none, Option.none_or]
      by_cases present : ∃ row ∈ listed now held.id, row.uid = uid
      · -- the row is as it was
        obtain ⟨row, inside, rfl⟩ := present
        obtain ⟨member, place⟩ := (mem_listed row).mp inside
        have silent : row.uid ∉ vanished := fun member => gone row.uid member row inside rfl
        have unchanged : row ∈ early.members := by
          refine (since.rows row member).resolve_right fun above => ?_
          exact found row inside (by simpa using above held was place.symm)
        rw [if_neg silent, flag_map_row earlyNumbered unchanged place,
          flag_map_row nowNumbered member place]
      · have lost : flagMap now held.id uid = none := by
          refine flag_map_none fun row member place equal => present ?_
          exact ⟨row, (mem_listed row).mpr ⟨member, place⟩, equal⟩
        rw [lost]
        split
        · rfl
        case isFalse silent =>
          by_contra kept
          exact silent (reported uid kept lost)

/-- The responses bring the client up to date just where it is resumable. -/
theorem qresync_resynchronises_iff (start early now : Tables) (first second : List Write)
    (numbered : Tables.Numbered start)
    (ranFirst : Write.machine.execute start first = some early)
    (ranSecond : Write.machine.execute early second = some now)
    (mailbox : MailboxID) (held current : Mailbox) (was : early.mailbox? mailbox = some held)
    (is : now.mailbox? mailbox = some current)
    (given : 0 < current.uidNext ∧ current.uidNext ≤ maxNumber) (raw : Bytes)
    (valid : (parseQresyncArgs raw).clientUIDValidity = current.uidValidity)
    (checkpoint : (parseQresyncArgs raw).clientModSeq = held.highestModSeq) :
    ∃ responses, emitQresyncSelectResponses enoughRounds current (listed now mailbox)
      (parseQresyncArgs raw) =
        some responses ∧
      (responses.foldl hear (flagMap early mailbox) = flagMap now mailbox ↔
        Resumable (parseQresyncArgs raw).knownUIDs held.highestModSeq (flagMap early mailbox)
          (flagMap now mailbox)) := by
  obtain ⟨heldMember, rfl⟩ := Tables.mailbox_found was
  obtain ⟨earlyNumbered, _⟩ := Tables.run_progress ranFirst numbered
  obtain ⟨nowNumbered, since⟩ := Tables.run_progress ranSecond earlyNumbered
  by_cases unset : held.highestModSeq = 0
  · refine ⟨[], by simp [emitQresyncSelectResponses, valid, checkpoint, unset], ?_⟩
    rw [List.foldl_nil]
    constructor
    · intro unchanged
      refine ⟨Or.inr unchanged.symm, fun uid kept lost => ?_⟩
      rw [unchanged] at kept
      exact absurd lost kept
    · intro resumable
      exact (resumable.checkpoint.resolve_left fun positive => positive unset).symm
  · obtain ⟨vanished, came, inside⟩ := vanished_members current.uidNext given (listed now held.id)
      (parseQresyncArgs raw).knownUIDs (known_words raw)
    refine ⟨_, by
      rw [emitQresyncSelectResponses, if_neg (by simpa using valid), if_neg (by rwa [checkpoint]), came]
      rfl, ?_⟩
    have words : ∀ uid ∈ vanished, uid ≤ maxNumber := by
      intro uid member
      obtain ⟨⟨set, read, range, listed, _, high⟩, _⟩ := (inside uid).mp member
      have below := uid_ends_below current.uidNext range given (known_words raw set read range listed).2
      omega
    rw [checkpoint, resynchronised_iff earlyNumbered nowNumbered since heldMember vanished words
      fun uid member => ((inside uid).mp member).2]
    constructor
    · intro told
      refine ⟨Or.inl unset, fun uid kept lost => ?_⟩
      obtain ⟨⟨set, read, range, member, low, high⟩, _⟩ := (inside uid).mp (told uid kept lost)
      refine ⟨set, read, range, member, low, ?_⟩
      have stop := (known_words raw set read range member).2
      unfold uidEnds at high
      dsimp only at high
      unfold maxNumber at *
      split at high <;> omega
    · intro resumable uid kept lost
      obtain ⟨set, read, range, member, low, high⟩ := resumable.reported uid kept lost
      refine (inside uid).mpr ⟨⟨set, read, range, member, low, ?_⟩, ?_⟩
      · -- the UID was given out before, so it is below `UIDNEXT`
        obtain ⟨row, rowMember, place, rfl⟩ := flag_map_held kept
        have issued := earlyNumbered.issued row rowMember held heldMember place.symm
        obtain ⟨new, newMember, newSame, uidNext, _⟩ := since.boxes held heldMember
        have only : new.uidNext = current.uidNext := by
          rw [nowNumbered.only is newMember newSame]
        unfold uidEnds
        dsimp only
        unfold maxNumber at *
        split <;> omega
      · intro row rowMember equal
        obtain ⟨rowMember, place⟩ := (mem_listed row).mp rowMember
        rw [← equal, flag_map_row nowNumbered rowMember place] at lost
        cases lost

def freshTables : Tables where
  principals := [{ id := 1 }]
  mailboxes := [{ id := 1, principalID := 1, name := [97] }]

def oneMessage : Tables.NewMessage where
  principalID := 1
  blob := byteBlob 1
  size := 1
  targets := [{ mailboxID := 1 }]

def filedTables : Tables := committed freshTables (Write.apply freshTables (.insert [oneMessage]))

def expungedTables : Tables := committed filedTables (Write.apply filedTables (.expunge 1 [1]))

def boxAt (uidNext highestModSeq : Nat) : Mailbox :=
    { id := 1, principalID := 1, name := [97], uidNext, highestModSeq }

theorem fresh_numbered : Tables.Numbered freshTables := by
  refine ⟨List.pairwise_singleton _ _, List.Pairwise.nil, ?_, ?_⟩
  · intro row member
    cases member
  · intro row member
    cases member

/-- A client that lists the UID it holds learns that the message is gone. -/
theorem listed_uid_resynchronised :
    ∃ responses, emitQresyncSelectResponses enoughRounds (boxAt 2 2) (listed expungedTables 1)
        (parseQresyncArgs (ascii "(1 1 1)")) = some responses ∧
      responses.foldl hear (flagMap filedTables 1) = flagMap expungedTables 1 := by
  have known : (parseQresyncArgs (ascii "(1 1 1)")).knownUIDs = some [⟨1, 1⟩] := by decide +kernel
  obtain ⟨responses, came, iff⟩ := qresync_resynchronises_iff freshTables filedTables expungedTables
    [.insert [oneMessage]] [.expunge 1 [1]] fresh_numbered rfl rfl 1 (boxAt 2 1) (boxAt 2 2)
    (by decide +kernel) (by decide +kernel) (by decide) (ascii "(1 1 1)") (by decide +kernel)
      (by decide +kernel)
  refine ⟨responses, came, iff.mpr ⟨Or.inl (by decide), fun uid kept _ => ?_⟩⟩
  obtain ⟨row, member, _, rfl⟩ := flag_map_held kept
  have only : ∀ row ∈ filedTables.members, row.uid = 1 := by decide +kernel
  exact ⟨_, known, _, List.mem_singleton.mpr rfl, Nat.le_of_eq (only row member).symm,
    Nat.le_of_eq (only row member)⟩

/-- A client that holds the message and does not list its UID is told nothing. -/
theorem omitted_uids_keep_expunged :
    (parseQresyncArgs (ascii "(1 1)")).knownUIDs = none ∧
      emitQresyncSelectResponses enoughRounds (boxAt 2 2) (listed expungedTables 1)
        (parseQresyncArgs (ascii "(1 1)")) = some [] ∧
      flagMap filedTables 1 1 = some [] ∧ flagMap expungedTables 1 1 = none := by
  decide +kernel

end Herold.Qresync

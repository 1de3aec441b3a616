import Herold.Imap.CommandLine

/-!
# Reading commands off a connection

`readCommand` reads a line, and as long as the line ends in the announcement of a
literal it reads the octets announced and a further line. The announcement is
replaced by a NUL byte. What the client sends is one stream; whether writes to the
client and file operations fail is given with the connection.
-/

namespace Herold.Imap

open Herold.Go

inductive ReadError where
  | eof
  | unexpectedEOF
  | lineTooLong
  | write
  | spill
  | parse (failure : ParseError)
  | starved
  deriving DecidableEq

structure Connection where
  stream : Bytes
  /-- Whether each coming write to the client fails; beyond the list none does. -/
  writes : List Bool := []
  disk : List Bool := []
  deriving DecidableEq

abbrev Receive := StateT Connection (Except ReadError)

def maxLineLength : Nat := 64 * 1024

def maxAppendLiteral : Nat := 50 * 1024 * 1024

def appendSpillThreshold : Nat := 64 * 1024

/-- The loop of `readLine`, with the length of what it has kept. A carriage return
that is not followed by a line feed is kept with the byte behind it. -/
def readLineFrom : Nat → Bytes → Except ReadError (Bytes × Bytes)
  | kept, [] =>
    if maxLineLength ≤ kept then .error .lineTooLong
    else if 0 < kept then .error .unexpectedEOF
    else .error .eof
  | kept, [byte] =>
    if maxLineLength ≤ kept then .error .lineTooLong
    else if byte = 13 then .error .eof
    else if byte = 10 then .ok ([], [])
    else (readLineFrom (kept + 1) []).map fun found => (byte :: found.1, found.2)
  | kept, byte :: next :: rest =>
    if maxLineLength ≤ kept then .error .lineTooLong
    else if byte = 13 then
      if next = 10 then .ok ([], rest)
      else (readLineFrom (kept + 2) rest).map fun found => (byte :: next :: found.1, found.2)
    else if byte = 10 then .ok ([], next :: rest)
    else (readLineFrom (kept + 1) (next :: rest)).map fun found => (byte :: found.1, found.2)

def readLine : Receive Bytes := fun connection =>
  match readLineFrom 0 connection.stream with
  | .ok (line, rest) => .ok (line, { connection with stream := rest })
  | .error failure => .error failure

/-- The text between the last brace and the one that ends the line, without a final
plus, and what stands before it. -/
def sizeText (line : Bytes) : Option (Bytes × Bytes × Bool) :=
  if line.getLast? = some 125 then
    match cutLastByte 123 line with
    | some (before, after) =>
      let spec := after.dropLast
      if spec.getLast? = some 43 then some (before, spec.dropLast, true)
      else some (before, spec, false)
    | none => none
  else none

def lastLiteral (line : Bytes) : Option (Bytes × Nat × Bool) :=
  match sizeText line with
  | some (before, spec, nonSync) =>
    match parseInt64 spec with
    | some size =>
      if size < 0 then none
      else if (maxAppendLiteral : Int) < size then none
      else some (before, size.toNat, nonSync)
    | none => none
  | none => none

def continuation (nonSync : Bool) : Receive Unit := fun connection =>
  if nonSync then .ok ((), connection)
  else
    match connection.writes with
    | true :: _ => .error .write
    | false :: writes => .ok ((), { connection with writes := writes })
    | [] => .ok ((), connection)

def useSpill : Receive Unit := fun connection =>
  match connection.disk with
  | true :: _ => .error .spill
  | false :: disk => .ok ((), { connection with disk := disk })
  | [] => .ok ((), connection)

def takeOctets (size : Nat) (short : Bytes → ReadError) : Receive Bytes := fun connection =>
  if connection.stream.length < size then .error (short connection.stream)
  else .ok (connection.stream.take size, { connection with stream := connection.stream.drop size })

def readFull (size : Nat) : Receive Bytes :=
  takeOctets size fun read => if read.isEmpty then .eof else .unexpectedEOF

/-- `io.CopyN` into the spill file. -/
def copyN (size : Nat) : Receive Bytes := do
  useSpill
  takeOctets size fun _ => .eof

def readLiteral (size : Nat) (nonSync : Bool) : Receive Literal := do
  continuation nonSync
  if appendSpillThreshold ≤ size then do
    useSpill
    let data ← copyN size
    pure { data := data, spilled := true }
  else do
    let data ← readFull size
    pure { data := data, spilled := false }

/-- The loop of `readCommand`: the flattened line and its literals. -/
def flatten : Nat → Bytes → List Literal → Receive (Bytes × List Literal)
  | 0, _, _ => throw .starved
  | fuel + 1, line, lits =>
    match lastLiteral line with
    | some (before, size, nonSync) => do
        let literal ← readLiteral size nonSync
        let cont ← readLine
        flatten fuel (before ++ 0 :: cont) (lits ++ [literal])
    | none => pure (line, lits)

def parseFlattened (line : Bytes) (lits : List Literal) : Receive ClientCommand := fun connection =>
  match parseCommand line { src := line, lits := lits, disk := connection.disk } with
  | .ok (command, p) => .ok (command, { connection with disk := p.disk })
  | .error failure => .error (.parse failure)

def streamRounds : Receive Nat := fun connection => .ok (connection.stream.length + 1, connection)

def readCommand : Receive ClientCommand := do
  let first ← readLine
  if first = [] then pure {}
  else do
    let flattened ← flatten (← streamRounds) first []
    parseFlattened flattened.1 flattened.2

structure Request where
  tag : Bytes
  op : Bytes
  isUID : Bool
  deriving DecidableEq

def ClientCommand.request (command : ClientCommand) : Request :=
  { tag := command.tag, op := command.op, isUID := command.isUID }

def readCommands : Nat → Connection → List Request × ReadError
  | 0, _ => ([], .starved)
  | fuel + 1, connection =>
    match readCommand connection with
    | .ok (command, connection) =>
      let later := readCommands fuel connection
      (command.request :: later.1, later.2)
    | .error failure => ([], failure)

def readStream (connection : Connection) : List Request × ReadError :=
  readCommands (connection.stream.length + 1) connection

theorem cut_last_byte_after (byte : UInt8) (before text left right : Bytes)
    (found : cutLastByte byte text = some (left, right)) :
    cutLastByte byte (before ++ text) = some (before ++ left, right) := by
  induction before with
  | nil => exact found
  | cons first before ih => simp [cutLastByte, ih]

theorem cut_last_byte_before (byte : UInt8) (before text : Bytes)
    (absent : cutLastByte byte text = none) :
    cutLastByte byte (before ++ text) =
      (cutLastByte byte before).map fun found => (found.1, found.2 ++ text) := by
  induction before with
  | nil => simpa [cutLastByte] using absent
  | cons first before ih =>
    rw [List.cons_append, cutLastByte, ih]
    cases inside : cutLastByte byte before with
    | some found => simp [cutLastByte, inside]
    | none =>
      by_cases here : first = byte
      · simp [cutLastByte, inside, here]
      · simp [cutLastByte, inside, here]

theorem parse_int64_no_mark (text : Bytes) (marked : 0 ∈ text) : parseInt64 text = none := by
  have notDigits : ∀ digits : Bytes, 0 ∈ digits → (digits = [] ∨ !digits.all isDigit) := by
    intro digits inside
    right
    simp only [Bool.not_eq_true', List.all_eq_false]
    exact ⟨0, inside, by decide⟩
  unfold parseInt64
  split
  next negative digits heq =>
    have inside : 0 ∈ digits := by
      split at heq <;> cases heq <;> simpa using marked
    rw [if_pos (notDigits digits inside)]

theorem marked_no_size (before text : Bytes) (ends : text.getLast? = some 125) :
    0 ∈ (before ++ 0 :: text).dropLast ∧
      ((before ++ 0 :: text).dropLast.getLast? = some 43 →
        0 ∈ (before ++ 0 :: text).dropLast.dropLast) := by
  have filled : text ≠ [] := by
    rintro rfl
    simp at ends
  have shorter : (before ++ 0 :: text).dropLast = before ++ 0 :: text.dropLast := by
    rw [List.dropLast_append_of_ne_nil (by simp), List.dropLast_cons_of_ne_nil filled]
  rw [shorter]
  refine ⟨by simp, ?_⟩
  intro plus
  have longer : text.dropLast ≠ [] := by
    intro empty
    simp [empty] at plus
  rw [List.dropLast_append_of_ne_nil (by simp), List.dropLast_cons_of_ne_nil longer]
  simp

/-- The mark of an earlier literal hides what stands before it: the announcement is
the one of the last line read. -/
theorem last_literal_append (before line : Bytes) :
    lastLiteral (before ++ 0 :: line) =
      (lastLiteral line).map fun found => (before ++ 0 :: found.1, found.2) := by
  have joined : before ++ 0 :: line = (before ++ [0]) ++ line := by simp
  by_cases closed : line.getLast? = some 125
  · have ends : (before ++ 0 :: line).getLast? = some 125 := by
      rw [joined, List.getLast?_append, closed]
      rfl
    cases inside : cutLastByte 123 line with
    | some found =>
      have whole := cut_last_byte_after 123 (before ++ [0]) line found.1 found.2 inside
      rw [← joined] at whole
      have same : sizeText (before ++ 0 :: line) =
          (sizeText line).map fun text => (before ++ 0 :: text.1, text.2) := by
        unfold sizeText
        rw [if_pos ends, if_pos closed, whole, inside]
        by_cases plus : found.2.dropLast.getLast? = some 43
        · simp [plus]
        · simp [plus]
      unfold lastLiteral
      rw [same]
      cases sizeText line with
      | none => rfl
      | some text =>
        simp only [Option.map_some]
        cases parseInt64 text.2.1 with
        | none => rfl
        | some size =>
          simp only
          split_ifs <;> rfl
    | none =>
      have noneThere : lastLiteral line = none := by
        unfold lastLiteral sizeText
        simp [closed, inside]
      have whole := cut_last_byte_before 123 (before ++ [0]) line inside
      rw [← joined] at whole
      rw [noneThere, Option.map_none]
      unfold lastLiteral sizeText
      rw [if_pos ends, whole]
      cases earlier : cutLastByte 123 (before ++ [0]) with
      | none => rfl
      | some found =>
        -- the mark lies between the brace and the end
        obtain ⟨left, right⟩ := found
        have split := cut_last_byte_splits 123 (before ++ [0]) left right earlier
        have marked : ∃ middle, right = middle ++ [0] := by
          rcases List.eq_nil_or_concat right with rfl | ⟨middle, last, rfl⟩
          · have lasts := congrArg List.getLast? split
            simp at lasts
          · rw [List.concat_eq_append, ← List.cons_append, ← List.append_assoc] at split
            obtain ⟨_, same⟩ := List.append_inj' split rfl
            rw [List.cons.injEq] at same
            exact ⟨middle, by rw [List.concat_eq_append, same.1]⟩
        obtain ⟨middle, rfl⟩ := marked
        have size := marked_no_size middle line closed
        rw [List.append_cons] at size
        rw [Option.map_some]
        dsimp only
        by_cases plus : ((middle ++ [0]) ++ line).dropLast.getLast? = some 43
        · rw [if_pos plus]
          dsimp only
          rw [parse_int64_no_mark _ (size.2 plus)]
        · rw [if_neg plus]
          dsimp only
          rw [parse_int64_no_mark _ size.1]
  · have open_ : (before ++ 0 :: line).getLast? ≠ some 125 := by
      cases line with
      | nil => simp
      | cons first rest =>
        rw [joined, List.getLast?_append]
        cases last : (first :: rest).getLast? with
        | none => simp at last
        | some byte => simpa [last] using closed
    unfold lastLiteral sizeText
    rw [if_neg closed, if_neg open_]
    rfl

/-- The first line of a stream, however long, and what follows it. It ends with a line
feed, and a carriage return before that is not part of it. -/
def splitLine : Bytes → Option (Bytes × Bytes)
  | [] => none
  | [byte] => if byte = 10 then some ([], []) else none
  | byte :: next :: rest =>
    if byte = 13 then
      if next = 10 then some ([], rest)
      else (splitLine rest).map fun found => (byte :: next :: found.1, found.2)
    else if byte = 10 then some ([], next :: rest)
    else (splitLine (next :: rest)).map fun found => (byte :: found.1, found.2)

theorem split_line_append (text line left rest : Bytes) (found : splitLine text = some (line, left)) :
    splitLine (text ++ rest) = some (line, left ++ rest) := by
  induction text using splitLine.induct generalizing line with
  | case1 => simp [splitLine] at found
  | case2 =>
    simp only [splitLine, if_true, Option.some.injEq, Prod.mk.injEq] at found
    obtain ⟨rfl, rfl⟩ := found
    cases rest with
    | nil => simp [splitLine]
    | cons first rest => simp [splitLine]
  | case3 byte other => simp [splitLine, other] at found
  | case4 later =>
    simp only [splitLine, if_true, Option.some.injEq, Prod.mk.injEq] at found
    obtain ⟨rfl, rfl⟩ := found
    simp [splitLine]
  | case5 next later notFeed ih =>
    simp only [splitLine, notFeed, if_true, if_false, Option.map_eq_some_iff, Prod.mk.injEq] at found
    obtain ⟨⟨inner, tail⟩, inside, rfl, rfl⟩ := found
    have come := ih inner inside
    simp [splitLine, notFeed, come]
  | case6 next later notReturn =>
    have feed : ¬ (10 : UInt8) = 13 := by decide
    simp only [splitLine, feed, if_true, if_false, Option.some.injEq, Prod.mk.injEq] at found
    obtain ⟨rfl, rfl⟩ := found
    simp [splitLine]
  | case7 byte next later notReturn notFeed ih =>
    simp only [splitLine, notReturn, notFeed, if_false, Option.map_eq_some_iff, Prod.mk.injEq] at found
    obtain ⟨⟨inner, tail⟩, inside, rfl, rfl⟩ := found
    have come := ih inner inside
    rw [List.cons_append] at come
    simp [splitLine, notReturn, notFeed, come]

theorem split_line_takes (text line rest : Bytes) (found : splitLine text = some (line, rest)) :
    rest <:+ text ∧ rest.length + 1 ≤ text.length := by
  induction text using splitLine.induct generalizing line with
  | case1 => simp [splitLine] at found
  | case2 =>
    simp only [splitLine, if_true, Option.some.injEq, Prod.mk.injEq] at found
    simp [← found.2]
  | case3 byte other => simp [splitLine, other] at found
  | case4 later =>
    simp only [splitLine, if_true, Option.some.injEq, Prod.mk.injEq] at found
    rw [← found.2]
    exact ⟨(List.suffix_cons _ _).trans (List.suffix_cons _ _), by simp⟩
  | case5 next later notFeed ih =>
    simp only [splitLine, notFeed, if_true, if_false, Option.map_eq_some_iff, Prod.mk.injEq] at found
    obtain ⟨⟨inner, tail⟩, inside, _, same⟩ := found
    obtain ⟨ends, shorter⟩ := ih inner (same ▸ inside)
    refine ⟨ends.trans ((List.suffix_cons _ _).trans (List.suffix_cons _ _)), ?_⟩
    simp only [List.length_cons]
    omega
  | case6 next later notReturn =>
    have feed : ¬ (10 : UInt8) = 13 := by decide
    simp only [splitLine, feed, if_true, if_false, Option.some.injEq, Prod.mk.injEq] at found
    rw [← found.2]
    exact ⟨List.suffix_cons _ _, by simp⟩
  | case7 byte next later notReturn notFeed ih =>
    simp only [splitLine, notReturn, notFeed, if_false, Option.map_eq_some_iff, Prod.mk.injEq] at found
    obtain ⟨⟨inner, tail⟩, inside, _, same⟩ := found
    obtain ⟨ends, shorter⟩ := ih inner (same ▸ inside)
    refine ⟨ends.trans (List.suffix_cons _ _), ?_⟩
    simp only [List.length_cons] at shorter ⊢
    omega

/-- `readLine` reads the first line, if it is not too long. -/
theorem read_line_from_split (kept : Nat) (text line rest : Bytes)
    (found : splitLine text = some (line, rest)) :
    readLineFrom kept text =
      if kept + line.length < maxLineLength then .ok (line, rest) else .error .lineTooLong := by
  induction text using splitLine.induct generalizing kept line with
  | case1 => simp [splitLine] at found
  | case2 =>
    simp only [splitLine, if_true, Option.some.injEq, Prod.mk.injEq] at found
    obtain ⟨rfl, rfl⟩ := found
    simp only [readLineFrom, List.length_nil]
    split_ifs <;> first | omega | simp_all
  | case3 byte other => simp [splitLine, other] at found
  | case4 later =>
    simp only [splitLine, if_true, Option.some.injEq, Prod.mk.injEq] at found
    obtain ⟨rfl, rfl⟩ := found
    simp only [readLineFrom, List.length_nil]
    split_ifs <;> first | omega | simp_all
  | case5 next later notFeed ih =>
    simp only [splitLine, notFeed, if_true, if_false, Option.map_eq_some_iff, Prod.mk.injEq] at found
    obtain ⟨⟨inner, tail⟩, inside, rfl, rfl⟩ := found
    have come := ih (kept + 2) inner inside
    simp only [readLineFrom, notFeed, if_true, if_false, come, List.length_cons]
    split_ifs <;> first | omega | rfl
  | case6 next later notReturn =>
    have feed : ¬ (10 : UInt8) = 13 := by decide
    simp only [splitLine, feed, if_true, if_false, Option.some.injEq, Prod.mk.injEq] at found
    obtain ⟨rfl, rfl⟩ := found
    simp only [readLineFrom, feed, if_true, if_false, List.length_nil]
    split_ifs <;> first | omega | rfl
  | case7 byte next later notReturn notFeed ih =>
    simp only [splitLine, notReturn, notFeed, if_false, Option.map_eq_some_iff, Prod.mk.injEq] at found
    obtain ⟨⟨inner, tail⟩, inside, rfl, rfl⟩ := found
    have come := ih (kept + 1) inner inside
    simp only [readLineFrom, notReturn, notFeed, if_false, come, List.length_cons]
    split_ifs <;> first | omega | rfl

theorem read_line_from_open (kept : Nat) (text : Bytes) (open_ : splitLine text = none) :
    ∃ failure, failure ≠ .starved ∧ readLineFrom kept text = .error failure := by
  induction text using splitLine.induct generalizing kept with
  | case1 =>
    unfold readLineFrom
    split_ifs
    · exact ⟨_, by simp, rfl⟩
    · exact ⟨_, by simp, rfl⟩
    · exact ⟨_, by simp, rfl⟩
  | case2 => simp [splitLine] at open_
  | case3 byte notFeed =>
    simp only [readLineFrom, notFeed, if_false, Nat.succ_pos, if_true]
    split_ifs
    · exact ⟨_, by simp, rfl⟩
    · exact ⟨_, by simp, rfl⟩
    · exact ⟨_, by simp, rfl⟩
    · exact ⟨_, by simp, rfl⟩
  | case4 later => simp [splitLine] at open_
  | case5 next later notFeed ih =>
    simp only [splitLine, notFeed, if_true, if_false, Option.map_eq_none_iff] at open_
    obtain ⟨failure, settled, failed⟩ := ih (kept + 2) open_
    simp only [readLineFrom, notFeed, if_true, if_false, failed]
    split_ifs
    · exact ⟨_, by simp, rfl⟩
    · exact ⟨failure, settled, rfl⟩
  | case6 next later notReturn => simp [splitLine] at open_
  | case7 byte next later notReturn notFeed ih =>
    simp only [splitLine, notReturn, notFeed, if_false, Option.map_eq_none_iff] at open_
    obtain ⟨failure, settled, failed⟩ := ih (kept + 1) open_
    simp only [readLineFrom, notReturn, notFeed, if_false, failed]
    split_ifs
    · exact ⟨_, by simp, rfl⟩
    · exact ⟨failure, settled, rfl⟩

end Herold.Imap

import Herold.Imap.TwinCommands
import Herold.Imap.Framing

/-!
# Streams that differ in their literals

Two streams have the same lines when they differ only in the octets of literals
that the lines announce. As long as every size announced is within the limit of
`lastLiteral`, and nothing with a sign is taken for one, `readCommand` takes the
announced octets as a literal in both and reads the same requests from them. An
announcement above the limit is not taken as one, and what follows it is read as
commands.
-/

namespace Herold.Imap

open Herold.Go Herold.Machine

/-- The size a line announces at its end as `{n}` or `{n+}`, however large. -/
def announced (line : Bytes) : Option Nat :=
  match sizeText line with
  | some (_, spec, _) => if spec = [] ∨ !spec.all isDigit then none else some (decimalValue spec)
  | none => none

/-- What the line announces does not exceed the limit, and what stands there with a sign
is not read as a size within the limit. -/
structure Plain (line : Bytes) : Prop where
  unsigned : ∀ before sign digits nonSync, sizeText line = some (before, sign :: digits, nonSync) →
    digits ≠ [] → digits.all isDigit = true →
      (sign = 43 → maxAppendLiteral < decimalValue digits) ∧ (sign = 45 → decimalValue digits ≠ 0)
  within : ∀ size, announced line = some size → size ≤ maxAppendLiteral

theorem parse_int64_digits {text : Bytes} (digits : ¬(text = [] ∨ !text.all isDigit)) :
    parseInt64 text = if decimalValue text < 2 ^ 63 then some (decimalValue text : Int) else none := by
  obtain ⟨filled, all⟩ : text ≠ [] ∧ text.all isDigit = true := by simpa using digits
  unfold parseInt64
  split
  next negative rest heq =>
    split at heq
    · cases all
    · cases all
    · cases heq
      simp [filled, all]

/-- What is no announcement is no size for `lastLiteral` either on a plain line. -/
theorem signed_size_refused {line before spec : Bytes} {nonSync : Bool} (plain : Plain line)
    (text : sizeText line = some (before, spec, nonSync)) (silent : spec = [] ∨ !spec.all isDigit)
    (size : Int) (read : parseInt64 spec = some size) : size < 0 ∨ (maxAppendLiteral : Int) < size := by
  unfold parseInt64 at read
  split at read
  next negative digits heq =>
    simp only [Option.ite_none_left_eq_some] at read
    obtain ⟨isSize, read⟩ := read
    obtain ⟨filled, all⟩ : digits ≠ [] ∧ digits.all isDigit = true := by simpa using isSize
    split at heq
    · cases heq
      have positive := (plain.unsigned _ _ _ _ text filled all).2 rfl
      simp only [if_true, Option.ite_none_right_eq_some, Option.some.injEq] at read
      omega
    · cases heq
      have large := (plain.unsigned _ _ _ _ text filled all).1 rfl
      simp only [Bool.false_eq_true, if_false, Option.ite_none_right_eq_some, Option.some.injEq] at read
      omega
    · cases heq
      exact absurd silent isSize

/-- On a plain line `lastLiteral` finds what the line announces. -/
theorem last_literal_none (line : Bytes) (plain : Plain line) (silent : announced line = none) :
    lastLiteral line = none := by
  unfold lastLiteral
  unfold announced at silent
  cases text : sizeText line with
  | none => rfl
  | some found =>
    obtain ⟨before, spec, nonSync⟩ := found
    simp only [text, ite_eq_left_iff, reduceCtorEq, imp_false, not_not] at silent
    cases read : parseInt64 spec with
    | none => simp only [read]
    | some size =>
      simp only [read]
      rcases signed_size_refused plain text silent size read with negative | large
      · rw [if_pos negative]
      · rw [if_neg (by omega), if_pos large]

theorem last_literal_some (line : Bytes) (plain : Plain line) (size : Nat)
    (announces : announced line = some size) :
    ∃ before nonSync, lastLiteral line = some (before, size, nonSync) := by
  have within := plain.within size announces
  unfold lastLiteral
  unfold announced at announces
  cases text : sizeText line with
  | none => simp [text] at announces
  | some found =>
    obtain ⟨before, spec, nonSync⟩ := found
    simp only [text, Option.ite_none_left_eq_some, Option.some.injEq] at announces
    obtain ⟨digits, rfl⟩ := announces
    have fits : decimalValue spec < 2 ^ 63 := by
      unfold maxAppendLiteral at within
      omega
    refine ⟨before, nonSync, ?_⟩
    simp only [parse_int64_digits digits, if_pos fits]
    rw [if_neg (by omega), if_neg (by omega)]
    simp

/-- The streams consist of these lines, and the same octets except within the literals
the lines announce. Both may break off in the middle of a line or of a literal. -/
inductive SameLines : List Bytes → Bytes → Bytes → Prop
  | tail {rest : Bytes} (open_ : splitLine rest = none) : SameLines [] rest rest
  | line {text line left right : Bytes} {lines : List Bytes} (reads : splitLine text = some (line, []))
      (silent : announced line = none) (later : SameLines lines left right) :
      SameLines (line :: lines) (text ++ left) (text ++ right)
  | literal {text line data other left right : Bytes} {size : Nat} {lines : List Bytes}
      (reads : splitLine text = some (line, [])) (announces : announced line = some size)
      (length : data.length = size) (otherLength : other.length = size)
      (later : SameLines lines left right) :
      SameLines (line :: lines) (text ++ (data ++ left)) (text ++ (other ++ right))
  | cut {text line data other : Bytes} {size : Nat} (reads : splitLine text = some (line, []))
      (announces : announced line = some size) (length : data.length < size)
      (otherLength : other.length = data.length) : SameLines [line] (text ++ data) (text ++ other)

structure Alike (left right : Connection) : Prop where
  streams : ∃ lines, (∀ line ∈ lines, Plain line) ∧ SameLines lines left.stream right.stream
  writes : left.writes = right.writes
  disk : left.disk = right.disk

structure Pending (size : Nat) (left right : Connection) : Prop where
  streams :
    (∃ data other rest twin lines, left.stream = data ++ rest ∧ right.stream = other ++ twin ∧
      data.length = size ∧ other.length = size ∧ (∀ line ∈ lines, Plain line) ∧
        SameLines lines rest twin) ∨
    (left.stream.length < size ∧ right.stream.length = left.stream.length)
  writes : left.writes = right.writes
  disk : left.disk = right.disk

/-- What holds after a line: its literal comes next, if it announces one. -/
def Follows (line : Bytes) (left right : Connection) : Prop :=
  (announced line = none → Alike left right) ∧
    ∀ size, announced line = some size → Pending size left right

def Readable (failure : ReadError) : Prop := failure ≠ .starved

theorem same_lines_length {lines : List Bytes} {left right : Bytes}
    (same : SameLines lines left right) :
    left.length = right.length := by
  induction same with
  | tail => rfl
  | line reads silent later ih => simp [ih]
  | literal reads announces length otherLength later ih => simp [ih, length, otherLength]
  | cut reads announces length otherLength => simp [otherLength]

theorem read_line_twice {text line rest twin : Bytes} {left right : Connection}
    (reads : splitLine text = some (line, [])) (stream : left.stream = text ++ rest)
    (other : right.stream = text ++ twin) :
    (readLine left = .error .lineTooLong ∧ readLine right = .error .lineTooLong) ∨
      (readLine left = .ok (line, { left with stream := rest }) ∧
        readLine right = .ok (line, { right with stream := twin })) := by
  unfold readLine
  rw [stream, other, read_line_from_split 0 _ line rest (split_line_append text line [] rest reads),
    read_line_from_split 0 _ line twin (split_line_append text line [] twin reads)]
  by_cases fits : 0 + line.length < maxLineLength
  · rw [if_pos fits, if_pos fits]
    exact .inr ⟨rfl, rfl⟩
  · rw [if_neg fits, if_neg fits]
    exact .inl ⟨rfl, rfl⟩

def ReadsAlike (left right : Connection) : Prop :=
  (∃ failure, Readable failure ∧ readLine left = .error failure ∧ readLine right = .error failure) ∨
    ∃ line after twin, Plain line ∧ readLine left = .ok (line, after) ∧
      readLine right = .ok (line, twin) ∧ Follows line after twin ∧
      after.stream.length + 1 ≤ left.stream.length

theorem reads_alike_of {text line rest twin : Bytes} {left right : Connection}
    (reads : splitLine text = some (line, [])) (stream : left.stream = text ++ rest)
    (other : right.stream = text ++ twin) (plain : Plain line)
    (follows : Follows line { left with stream := rest } { right with stream := twin }) :
    ReadsAlike left right := by
  rcases read_line_twice reads stream other with ⟨failed, failedToo⟩ | ⟨read, readToo⟩
  · exact .inl ⟨.lineTooLong, by simp [Readable], failed, failedToo⟩
  · right
    refine ⟨line, _, _, plain, read, readToo, follows, ?_⟩
    have shorter := (split_line_takes text line [] reads).2
    simp only [stream, List.length_append, List.length_nil] at shorter ⊢
    omega

theorem read_line_cases {left right : Connection} (alike : Alike left right) :
    ReadsAlike left right := by
  obtain ⟨⟨lines, plain, same⟩, writes, disk⟩ := alike
  generalize stream : left.stream = text at same
  generalize twinStream : right.stream = other at same
  cases same with
  | tail open_ =>
    left
    obtain ⟨failure, settled, failed⟩ := read_line_from_open 0 _ open_
    refine ⟨failure, settled, ?_, ?_⟩
    · unfold readLine
      rw [stream, failed]
    · unfold readLine
      rw [twinStream, failed]
  | line reads silent later =>
    refine reads_alike_of reads stream twinStream (plain _ (by simp)) ⟨?_, ?_⟩
    · intro _
      exact ⟨⟨_, fun line inside => plain line (by simp [inside]), later⟩, writes, disk⟩
    · intro size announces
      simp [silent] at announces
  | literal reads announces length otherLength later =>
    refine reads_alike_of reads stream twinStream (plain _ (by simp)) ⟨?_, ?_⟩
    · intro silent
      simp [silent] at announces
    · intro size again
      rw [announces, Option.some.injEq] at again
      subst again
      exact ⟨.inl ⟨_, _, _, _, _, rfl, rfl, length, otherLength,
        fun line inside => plain line (by simp [inside]), later⟩, writes, disk⟩
  | cut reads announces length otherLength =>
    refine reads_alike_of reads stream twinStream (plain _ (by simp)) ⟨?_, ?_⟩
    · intro silent
      simp [silent] at announces
    · intro size again
      rw [announces, Option.some.injEq] at again
      subst again
      exact ⟨.inr ⟨length, otherLength⟩, writes, disk⟩

variable {Value : Type} {size : Nat}

/-- Both computations return, with connections that are related and no longer than
before, or both fail. -/
def Receives (related : Connection → Connection → Prop) (values : Value → Value → Prop)
    (work other : Receive Value) (left right : Connection) : Prop :=
  Agree Readable (fun after twin => related after twin ∧ after.stream.length ≤ left.stream.length)
    values
    (work left) (other right)

theorem continuation_agrees (nonSync : Bool) {left right : Connection}
    (pending : Pending size left right) :
    Receives (Pending size) Eq (continuation nonSync) (continuation nonSync) left right := by
  unfold Receives continuation
  rw [← pending.writes]
  cases nonSync with
  | true => exact Agree.returned rfl ⟨pending, Nat.le_refl _⟩
  | false =>
    simp only [Bool.false_eq_true, if_false]
    split
    · exact Agree.failed (by simp [Readable])
    · exact Agree.returned rfl ⟨⟨pending.streams, rfl, pending.disk⟩, Nat.le_refl _⟩
    · exact Agree.returned rfl ⟨pending, Nat.le_refl _⟩

theorem use_spill_agrees {left right : Connection} (pending : Pending size left right) :
    Receives (Pending size) Eq useSpill useSpill left right := by
  unfold Receives useSpill
  rw [← pending.disk]
  split
  · exact Agree.failed (by simp [Readable])
  · exact Agree.returned rfl ⟨⟨pending.streams, pending.writes, rfl⟩, Nat.le_refl _⟩
  · exact Agree.returned rfl ⟨pending, Nat.le_refl _⟩

theorem take_octets_agrees (short : Bytes → ReadError)
    (settled : ∀ read, Readable (short read))
    (sized : ∀ read other : Bytes, read.length = other.length → short read = short other)
    {left right : Connection} (pending : Pending size left right) :
    Receives Alike Loose (takeOctets size short) (takeOctets size short) left right := by
  unfold Receives takeOctets
  rcases pending.streams with
    ⟨data, other, rest, twin, lines, stream, twinStream, length, otherLength, plain, same⟩ |
      ⟨tooFew, sameLength⟩
  · have enough : ¬ left.stream.length < size := by
      rw [stream, List.length_append]
      omega
    have enoughToo : ¬ right.stream.length < size := by
      rw [twinStream, List.length_append]
      omega
    rw [if_neg enough, if_neg enoughToo]
    refine Agree.returned trivial ⟨⟨⟨lines, plain, ?_⟩, pending.writes, pending.disk⟩, by simp⟩
    simp only [stream, twinStream]
    rw [← length, List.drop_left, length, ← otherLength, List.drop_left]
    exact same
  · rw [if_pos tooFew, if_pos (by omega), sized left.stream right.stream sameLength.symm]
    exact Agree.failed (settled _)

variable {Other Result : Type} {related later : Connection → Connection → Prop}

theorem receives_bind {values : Value → Value → Prop} {results : Result → Result → Prop}
    {work other : Receive Value} {next after : Value → Receive Result} {left right : Connection}
    (first : Receives related values work other left right)
    (continues : ∀ value twin reached reachedTwin, values value twin → related reached reachedTwin →
      reached.stream.length ≤ left.stream.length →
        Receives later results (next value) (after twin) reached reachedTwin) :
    Receives later results (work >>= next) (other >>= after) left right := by
  refine agree_bind first ?_
  rintro value twin reached reachedTwin corresponds ⟨still, shorter⟩
  refine agree_weaken (continues value twin reached reachedTwin corresponds still shorter) ?_
    fun _ _ h => h
  rintro final finalTwin ⟨holds, length⟩
  exact ⟨holds, by omega⟩

theorem receives_pure {values : Value → Value → Prop} {value twin : Value} {left right : Connection}
    (holds : related left right) (corresponds : values value twin) :
    Receives related values (pure value) (pure twin) left right :=
  Agree.returned corresponds ⟨holds, Nat.le_refl _⟩

theorem read_literal_agrees (nonSync : Bool) {left right : Connection}
    (pending : Pending size left right) :
    Receives Alike (fun one two => one.spilled = two.spilled) (readLiteral size nonSync)
      (readLiteral size nonSync) left right := by
  unfold readLiteral
  apply receives_bind (continuation_agrees nonSync pending)
  intro _ _ left right _ pending _
  split
  · apply receives_bind (use_spill_agrees pending)
    intro _ _ left right _ pending _
    have copied : Receives Alike Loose (copyN size) (copyN size) left right := by
      apply receives_bind (use_spill_agrees pending)
      intro _ _ left right _ pending _
      exact take_octets_agrees _ (fun _ => by simp [Readable]) (fun _ _ _ => rfl) pending
    apply receives_bind copied
    intro _ _ left right _ alike _
    exact receives_pure alike rfl
  · have filled : Receives Alike Loose (readFull size) (readFull size) left right := by
      refine take_octets_agrees _ ?_ ?_ pending
      · intro read
        split <;> simp [Readable]
      · intro read other length
        cases read with
        | nil => simp [List.length_eq_zero_iff.mp length.symm]
        | cons first rest =>
          cases other with
          | nil => simp at length
          | cons second others => rfl
    apply receives_bind filled
    intro _ _ left right _ alike _
    exact receives_pure alike rfl

theorem follows_length {line : Bytes} {left right : Connection} (follows : Follows line left right) :
    right.stream.length = left.stream.length := by
  cases announces : announced line with
  | none =>
    obtain ⟨lines, _, same⟩ := (follows.1 announces).streams
    exact (same_lines_length same).symm
  | some size =>
    rcases (follows.2 size announces).streams with
      ⟨data, other, rest, twin, lines, stream, twinStream, length, otherLength, _,
        same⟩ | ⟨_, sameLength⟩
    · rw [stream, twinStream, List.length_append, List.length_append, length, otherLength,
        same_lines_length same]
    · exact sameLength

theorem line_then_agrees (later : Connection → Connection → Prop) {results : Result → Result → Prop}
    {next after : Bytes → Receive Result}
    {left right : Connection} (alike : Alike left right)
    (continues : ∀ line reached twin, Plain line → Follows line reached twin →
      reached.stream.length + 1 ≤ left.stream.length →
        Receives later results (next line) (after line) reached twin) :
    Agree Readable (fun final twin => later final twin ∧ final.stream.length + 1 ≤ left.stream.length)
      results ((readLine >>= next) left) ((readLine >>= after) right) := by
  simp only [bind, StateT.bind]
  rcases read_line_cases alike with
    ⟨failure, settled, failed, failedToo⟩ | ⟨line, reached, twin, plain, read, readToo,
      follows, shorter⟩
  · rw [failed, failedToo]
    exact Agree.failed settled
  · rw [read, readToo]
    refine agree_weaken (continues line reached twin plain follows shorter) ?_ fun _ _ h => h
    rintro final finalTwin ⟨holds, length⟩
    exact ⟨holds, by omega⟩

def SameShape (one two : Bytes × List Literal) : Prop :=
  one.1 = two.1 ∧ one.2.map Literal.spilled = two.2.map Literal.spilled

/-- The loop over the literals of one command. The induction is on its rounds; the
line it holds announces what the last line read announces. -/
theorem flatten_agrees (fuel : Nat) (line cont : Bytes) (make : Bytes → Bytes)
    (lits others : List Literal)
    (left right : Connection) (plain : Plain cont) (follows : Follows cont left right)
    (last : lastLiteral line = (lastLiteral cont).map fun found => (make found.1, found.2))
    (shapes : lits.map Literal.spilled = others.map Literal.spilled)
    (enough : left.stream.length < fuel) :
    Receives Alike SameShape (flatten fuel line lits) (flatten fuel line others) left right := by
  induction fuel generalizing line cont make lits others left right with
  | zero => omega
  | succ fuel ih =>
    unfold flatten
    cases announces : announced cont with
    | none =>
      rw [last_literal_none cont plain announces] at last
      rw [last]
      exact receives_pure (follows.1 announces) ⟨rfl, shapes⟩
    | some size =>
      obtain ⟨before, nonSync, found⟩ := last_literal_some cont plain size announces
      rw [found] at last
      rw [last]
      apply receives_bind (read_literal_agrees nonSync (follows.2 size announces))
      intro literal other left right alike connected shorter
      refine agree_weaken (line_then_agrees Alike connected ?_) ?_ fun _ _ h => h
      · intro next reached twin plain follows taken
        refine ih _ next (fun text => make before ++ 0 :: text) _ _ reached twin plain follows
          (last_literal_append _ next) ?_ (by omega)
        simp [shapes, alike]
      · rintro final twin ⟨holds, length⟩
        exact ⟨holds, by omega⟩

theorem parse_flattened_agrees (line : Bytes) (lits others : List Literal) (left right : Connection)
    (alike : Alike left right) (shapes : lits.map Literal.spilled = others.map Literal.spilled) :
    Receives Alike SameRequest (parseFlattened line lits) (parseFlattened line others) left right := by
  have parsed := parse_command_twins line { src := line, lits := lits, disk := left.disk }
    { src := line, lits := others, disk := right.disk } ⟨rfl, shapes, alike.disk⟩
  unfold Receives parseFlattened
  unfold Tame at parsed
  generalize parseCommand line { src := line, lits := lits, disk := left.disk } = one at parsed
  generalize parseCommand line { src := line, lits := others, disk := right.disk } = two at parsed
  cases parsed with
  | failed admitted => exact Agree.failed (by simp [Readable])
  | returned corresponds still =>
    exact Agree.returned corresponds ⟨⟨alike.streams, alike.writes, still.1.disk⟩, Nat.le_refl _⟩

theorem read_command_agrees (left right : Connection) (alike : Alike left right) :
    Agree Readable (fun after twin => Alike after twin ∧ after.stream.length + 1 ≤ left.stream.length)
      SameRequest (readCommand left) (readCommand right) := by
  apply line_then_agrees Alike alike
  intro first left right plain follows _
  by_cases empty : first = []
  · subst empty
    exact receives_pure (follows.1 rfl) ⟨rfl, rfl, rfl⟩
  · rw [if_neg empty, ← bind_assoc]
    have flattened : Receives Alike SameShape (streamRounds >>= fun rounds => flatten rounds first [])
        (streamRounds >>= fun rounds => flatten rounds first []) left right := by
      unfold Receives
      simp only [bind, StateT.bind, streamRounds, Except.bind, follows_length follows]
      exact flatten_agrees (left.stream.length + 1) first first id [] [] left right plain follows
        (by cases lastLiteral first <;> rfl) rfl (Nat.lt_succ_self _)
    apply receives_bind flattened
    rintro ⟨line, lits⟩ ⟨_, others⟩ left right ⟨rfl, shapes⟩ alike _
    exact parse_flattened_agrees line lits others left right alike shapes

theorem read_commands_agree (fuel : Nat) (left right : Connection) (alike : Alike left right)
    (enough : left.stream.length < fuel) :
    readCommands fuel left = readCommands fuel right ∧ (readCommands fuel left).2 ≠ .starved := by
  induction fuel generalizing left right with
  | zero => omega
  | succ fuel ih =>
    have agree := read_command_agrees left right alike
    unfold readCommands
    generalize readCommand left = one at agree
    generalize readCommand right = two at agree
    cases agree with
    | failed admitted => exact ⟨rfl, admitted⟩
    | returned corresponds still =>
      rename_i command other after twin
      obtain ⟨same, settled⟩ := ih after twin still.1 (by omega)
      have request : command.request = other.request := by
        obtain ⟨tag, op, isUID⟩ := corresponds
        simp [ClientCommand.request, tag, op, isUID]
      simp only [same, request]
      exact ⟨trivial, same ▸ settled⟩

/-- Two clients that write the same lines, with sizes that are plain and within the
limit, are read the same requests up to the same end, whatever their literals hold. -/
theorem literals_never_commands (lines : List Bytes) (stream twin : Bytes) (writes disk : List Bool)
    (plain : ∀ line ∈ lines, Plain line) (same : SameLines lines stream twin) :
    readStream ⟨stream, writes, disk⟩ = readStream ⟨twin, writes, disk⟩ ∧
      (readStream ⟨stream, writes, disk⟩).2 ≠ .starved := by
  unfold readStream
  simp only [← same_lines_length same]
  exact read_commands_agree (stream.length + 1) ⟨stream, writes, disk⟩ ⟨twin, writes, disk⟩
    ⟨⟨lines, plain, same⟩, rfl, rfl⟩ (Nat.lt_succ_self _)

theorem plain_of_none (line : Bytes) (text : sizeText line = none) : Plain line where
  unsigned := by
    intro before sign digits nonSync found
    simp [text] at found
  within := by
    intro size announces
    simp [announced, text] at announces

theorem plain_of_size (line before spec : Bytes) (nonSync : Bool)
    (text : sizeText line = some (before, spec, nonSync)) (digits : spec.all isDigit = true)
    (within : decimalValue spec ≤ maxAppendLiteral) : Plain line where
  unsigned := by
    intro left sign rest right found
    rw [text, Option.some.injEq, Prod.mk.injEq, Prod.mk.injEq] at found
    rw [found.2.1, List.all_cons, Bool.and_eq_true] at digits
    intro _ _
    constructor
    · rintro rfl
      exact absurd digits.1 (by decide)
    · rintro rfl
      exact absurd digits.1 (by decide)
  within := by
    intro size announces
    simp only [announced, text, Option.ite_none_left_eq_some, Option.some.injEq] at announces
    exact announces.2 ▸ within

theorem login_literals_alike :
    (∀ line ∈ [ascii "a LOGIN joe \x7b6+\x7d", []], Plain line) ∧
      SameLines [ascii "a LOGIN joe \x7b6+\x7d", []]
        (ascii "a LOGIN joe \x7b6+\x7d\r\n" ++ (ascii "secret" ++ (ascii "\r\n" ++ [])))
        (ascii "a LOGIN joe \x7b6+\x7d\r\n" ++ (ascii "x LIST" ++ (ascii "\r\n" ++ []))) ∧
      readStream ⟨ascii "a LOGIN joe \x7b6+\x7d\r\n" ++
        (ascii "secret" ++ (ascii "\r\n" ++ [])), [], []⟩ =
        readStream ⟨ascii "a LOGIN joe \x7b6+\x7d\r\n" ++ (ascii "x LIST" ++ (ascii "\r\n" ++ [])),
          [], []⟩ := by
  have plain : ∀ line ∈ [ascii "a LOGIN joe \x7b6+\x7d", []], Plain line := by
    intro line listed
    rcases List.mem_pair.mp listed with rfl | rfl
    · exact plain_of_size _ (ascii "a LOGIN joe ") (ascii "6") true (by decide) (by decide) (by decide)
    · exact plain_of_none [] rfl
  have same : SameLines [ascii "a LOGIN joe \x7b6+\x7d", []]
      (ascii "a LOGIN joe \x7b6+\x7d\r\n" ++ (ascii "secret" ++ (ascii "\r\n" ++ [])))
      (ascii "a LOGIN joe \x7b6+\x7d\r\n" ++ (ascii "x LIST" ++ (ascii "\r\n" ++ []))) := by
    have announces : announced (ascii "a LOGIN joe \x7b6+\x7d") = some 6 := by decide
    refine SameLines.literal (by decide) announces rfl rfl ?_
    exact SameLines.line (by decide) rfl (SameLines.tail rfl)
  exact ⟨plain, same, (literals_never_commands _ _ _ [] [] plain same).1⟩

/-- After an announcement above the limit the octets of the literal are read as
commands. -/
theorem oversized_literal_read_as_commands :
    ¬ ∀ (lines : List Bytes) (stream twin : Bytes) (writes disk : List Bool),
      SameLines lines stream twin →
      readStream ⟨stream, writes, disk⟩ = readStream ⟨twin, writes, disk⟩ := by
  intro alike
  have announces : announced (ascii "a NOOP \x7b60000000+\x7d") = some 60000000 := by decide
  have same : SameLines [ascii "a NOOP \x7b60000000+\x7d"]
      (ascii "a NOOP \x7b60000000+\x7d\r\n" ++ ascii "b LOGOUT\r\n")
      (ascii "a NOOP \x7b60000000+\x7d\r\n" ++ ascii "c UNKNOW\r\n") := by
    exact SameLines.cut (by decide) announces (by decide) (by decide)
  have equal := alike _ _ _ [] [] same
  revert equal
  decide +kernel

end Herold.Imap

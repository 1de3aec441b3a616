import Herold.Go.Strings

/-!
# Message data on the wire

`readDotStream` is the server's side: it reads the client's lines up to the one
that holds a single dot, takes one leading dot off every other line and writes
each line with a CRLF to the spill file. `writeDotStuffed` is the client's side:
it puts a dot before every line that begins with one.
-/

namespace Herold.Smtp

open Herold.Go

def crlf : Bytes := [13, 10]

/-- The lines of a stream as `ReadBytes` returns them, each with its line feed,
and the bytes after the last line feed. -/
def streamLines : Bytes → List Bytes × Bytes
  | [] => ([], [])
  | first :: rest =>
    match streamLines rest with
    | (lines, tail) =>
      if first = 10 then ([10] :: lines, tail)
      else match lines with
        | [] => ([], first :: tail)
        | line :: lines => ((first :: line) :: lines, tail)

theorem stream_lines_tail (tail : Bytes) (unbroken : 10 ∉ tail) : streamLines tail = ([], tail) := by
  induction tail with
  | nil => rfl
  | cons first rest ih =>
    rw [List.mem_cons, not_or] at unbroken
    simp [streamLines, ih unbroken.2, Ne.symm unbroken.1]

def stripLineEnd (line : Bytes) : Bytes :=
  if crlf.isSuffixOf line then line.take (line.length - 2)
  else if [10].isSuffixOf line then line.take (line.length - 1)
  else line

def dropDot (line : Bytes) : Bytes := if hasPrefix line [46] then line.drop 1 else line

def drainsAt (line : Bytes) : Bool :=
  match line with
  | 46 :: next :: _ => (3 ≤ line.length && (next = 13 || next = 10)) || line = [46, 10]
  | _ => false

/-- What the drain loop leaves unread: the stream after the line it stops at,
or nothing when it reaches the end of the stream. -/
def drain (tail : Bytes) (lines : List Bytes) : Bytes :=
  match lines.dropWhile fun line => !drainsAt line with
  | [] => []
  | _ :: lines => lines.flatten ++ tail

/-- How `readDotStream` ends, with what is left unread for the next command. -/
inductive DotResult where
  | complete (content rest : Bytes)
  | tooLarge (rest : Bytes)
  | cutShort
  | writeFailed (rest : Bytes)
  deriving DecidableEq

/-- The loop of `readDotStream` over the lines to come, with what is already
written. The room is what the disk takes in all. -/
def readDotLines (maxSize : Int) (room : Nat) (tail written : Bytes) : List Bytes → DotResult
  | [] => .cutShort
  | line :: lines =>
    let stripped := stripLineEnd line
    if stripped = [46] then .complete written (lines.flatten ++ tail)
    else
      let content := dropDot stripped
      if maxSize < (written.length : Int) + content.length + 2 then .tooLarge (drain tail lines)
      else if room < written.length + content.length + 2 then
        .writeFailed (lines.flatten ++ tail)
      else readDotLines maxSize room tail (written ++ content ++ crlf) lines

def readDotStream (maxSize : Int) (room : Nat) (stream : Bytes) : DotResult :=
  readDotLines maxSize room (streamLines stream).2 [] (streamLines stream).1

/-- The bytes `writeDotStuffed` makes of a piece of the body, and whether the
next byte begins a line. A line ends at each line feed. -/
def stuff (atLineStart : Bool) : Bytes → Bytes × Bool
  | [] => ([], atLineStart)
  | byte :: rest =>
    let (out, ended) := stuff (byte = 10) rest
    (if atLineStart && byte = 46 then 46 :: byte :: out else byte :: out, ended)

/-- What a call of `writeDotStuffed` leaves behind: the bytes it wrote, the reads
the body still has to offer, and where the body ended unless a write failed. -/
structure BodyWrite where
  written : Bytes
  rest : List Bytes
  endedAtLineStart : Option Bool
  deriving DecidableEq

/-- The loop of `writeDotStuffed` over the reads of the body. The connection may
break while one of them is written; that read is then lost. -/
def writeDotStuffed (breaksAt : Option Nat) (atLineStart : Bool) : List Bytes → BodyWrite
  | [] => ⟨[], [], some atLineStart⟩
  | chunk :: chunks =>
    if breaksAt = some 0 ∧ chunk ≠ [] then ⟨[], chunks, none⟩
    else
      let (out, ended) := stuff atLineStart chunk
      let body := writeDotStuffed (breaksAt.map Nat.pred) ended chunks
      { body with written := out ++ body.written }

def dataEnd (endedAtLineStart : Bool) : Bytes :=
  (if endedAtLineStart then [] else crlf) ++ [46] ++ crlf

/-- A receiver of the data that ends lines where the client does: it stops at a
line that holds a single dot and takes one dot off every other line that begins
with one. -/
def unstuff : Bool → Bytes → Option Bytes
  | _, [] => none
  | atLineStart, byte :: rest =>
    if atLineStart && byte = 46 then
      if hasPrefix rest crlf then some [] else unstuff false rest
    else (unstuff (byte = 10) rest).map fun content => byte :: content

theorem stuff_append (atLineStart : Bool) (left right : Bytes) :
    stuff atLineStart (left ++ right) =
      ((stuff atLineStart left).1 ++ (stuff (stuff atLineStart left).2 right).1,
        (stuff (stuff atLineStart left).2 right).2) := by
  induction left generalizing atLineStart with
  | nil => rfl
  | cons byte left ih =>
    simp only [List.cons_append, stuff, ih]
    split <;> rfl

theorem stuff_ended (atLineStart : Bool) (body : Bytes) (last : UInt8) :
    (stuff atLineStart (body ++ [last])).2 = decide (last = 10) := by
  rw [stuff_append]
  rfl

theorem write_dot_stuffed_whole (breaksAt : Option Nat) (atLineStart ended : Bool)
    (chunks : List Bytes)
    (wrote : (writeDotStuffed breaksAt atLineStart chunks).endedAtLineStart = some ended) :
    (writeDotStuffed breaksAt atLineStart chunks).written = (stuff atLineStart chunks.flatten).1 ∧
      (writeDotStuffed breaksAt atLineStart chunks).rest = [] ∧
        ended = (stuff atLineStart chunks.flatten).2 := by
  induction chunks generalizing breaksAt atLineStart with
  | nil =>
    simp only [writeDotStuffed, Option.some.injEq] at wrote
    exact ⟨rfl, rfl, wrote.symm⟩
  | cons chunk chunks ih =>
    unfold writeDotStuffed at wrote ⊢
    split at wrote
    case isTrue => cases wrote
    case isFalse goes =>
      obtain ⟨written, rest, same⟩ := ih _ _ wrote
      rw [if_neg goes, List.flatten_cons, stuff_append]
      exact ⟨congrArg _ written, rest, same⟩

theorem write_dot_stuffed_takes (breaksAt : Option Nat) (atLineStart : Bool)
    (chunks : List Bytes) :
    ∃ taken, chunks.flatten = taken ++ (writeDotStuffed breaksAt atLineStart chunks).rest.flatten ∧
      (chunks.flatten ≠ [] → taken ≠ []) := by
  induction chunks generalizing breaksAt atLineStart with
  | nil => exact ⟨[], rfl, fun present => present⟩
  | cons chunk chunks ih =>
    unfold writeDotStuffed
    split
    case isTrue breaks =>
      exact ⟨chunk, rfl, fun _ => breaks.2⟩
    case isFalse =>
      obtain ⟨taken, split, some⟩ := ih (breaksAt.map Nat.pred) (stuff atLineStart chunk).2
      refine ⟨chunk ++ taken, ?_, ?_⟩
      · rw [List.flatten_cons, split, List.append_assoc]
      · intro present empty
        obtain ⟨rfl, rfl⟩ := List.append_eq_nil_iff.mp empty
        exact some present rfl

/-- The receiver gets the body back, with a CRLF behind a last line that had no
end of its own. -/
theorem unstuff_data (atLineStart : Bool) (body : Bytes) :
    unstuff atLineStart ((stuff atLineStart body).1 ++ dataEnd (stuff atLineStart body).2) =
      some (body ++ if (stuff atLineStart body).2 then [] else crlf) := by
  induction body generalizing atLineStart with
  | nil => cases atLineStart <;> rfl
  | cons byte body ih =>
    have rest := ih (decide (byte = 10))
    simp only [stuff]
    split
    case isTrue dot =>
      simp only [Bool.and_eq_true, decide_eq_true_eq] at dot
      obtain ⟨rfl, rfl⟩ := dot
      simpa [unstuff, hasPrefix, crlf] using rest
    case isFalse plain =>
      rw [List.cons_append, unstuff, if_neg plain, rest]
      rfl

end Herold.Smtp

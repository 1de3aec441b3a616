import Herold.Go.Json
import Herold.Imap.FetchItems

/-!
# Windows of a body section

`emitFetch` cuts the window a section asks for out of the section's bytes. Offset
and size are whatever 64-bit integers the client writes; their sum is taken in 64
bits and used as a slice bound, and a size of zero or less counts as no size.
-/

namespace Herold.Imap

open Herold.Go Herold.Go.Json

/-- Addition of `int64` values. -/
def addInt64 (left right : Int) : Int := (left + right).bmod (2 ^ 64)

/-- `data[low:high]`; bounds out of order or out of range panic. -/
def sliceBytes (data : Bytes) (low high : Int) : Option Bytes :=
  if 0 ≤ low ∧ low ≤ high ∧ high ≤ data.length then
    some ((data.drop low.toNat).take (high - low).toNat)
  else none

def cutWindow (data : Bytes) : Option Window → Option Bytes
  | none => some data
  | some window =>
    if data.length ≤ window.offset then some []
    else
      let stop := addInt64 window.offset window.size
      sliceBytes data window.offset
        (if 0 < window.size ∧ stop < data.length then stop else data.length)

def specifierText (wanted : BodySection) : Bytes :=
  let fields (names : List Bytes) := [32].intercalate names
  match wanted.specifier with
  | .whole => []
  | .header =>
    if !wanted.headerFields.isEmpty then
      ascii "HEADER.FIELDS (" ++ fields wanted.headerFields ++ ascii ")"
    else if !wanted.headerFieldsNot.isEmpty then
      ascii "HEADER.FIELDS.NOT (" ++ fields wanted.headerFieldsNot ++ ascii ")"
    else ascii "HEADER"
  | .text => ascii "TEXT"
  | .mime => ascii "MIME"

def formatBodySectionHeader (wanted : BodySection) : Bytes :=
  let number := [46].intercalate (wanted.part.map formatInt)
  let dot := if wanted.part ≠ [] ∧ wanted.specifier ≠ .whole then [46] else []
  ascii "BODY[" ++ number ++ dot ++ specifierText wanted ++ ascii "]"

def sectionHeader (wanted : BodySection) : Bytes :=
  match wanted.window with
  | none => formatBodySectionHeader wanted
  | some window => formatBodySectionHeader wanted ++ ascii "<" ++ formatInt window.offset ++ ascii ">"

/-- The header and the bytes of each section; `extract` is `extractSection` on the
message. -/
def bodyChunks (extract : BodySection → Bytes) (sections : List BodySection) :
    Option (List (Bytes × Bytes)) :=
  sections.mapM fun wanted =>
    (cutWindow (extract wanted) wanted.window).map fun data => (sectionHeader wanted, data)

def fetchWrites (pending : Bytes) : List (Bytes × Bytes) → List Bytes
  | [] => [pending ++ ascii ")\r\n"]
  | (header, data) :: chunks =>
    let space := if pending ≠ [] ∧ pending.getLast? ≠ some 40 then [32] else []
    (pending ++ space ++ header ++ ascii " \x7b" ++ decimal data.length ++ ascii "\x7d\r\n") ::
      data :: fetchWrites [] chunks

/-- `emitFetch` for a message whose other items are given as texts, or nothing
where it panics. -/
def emitFetch (seq : Nat) (parts : List Bytes) (extract : BodySection → Bytes)
    (sections : List BodySection) : Option (List Bytes) :=
  (bodyChunks extract sections).map
    (fetchWrites (ascii "* " ++ decimal seq ++ ascii " FETCH (" ++ [32].intercalate parts))

def windowOf (data : Bytes) (window : Window) : Bytes :=
  if data.length ≤ window.offset ∨ window.size = 0 then []
  else (data.drop window.offset.toNat).take
    (min (window.offset + window.size) data.length - window.offset).toNat

/-- The window starts behind the data, or its start and its size are proper and
their sum is an integer of 64 bits. -/
def Window.Proper (window : Window) (length : Nat) : Prop :=
  length ≤ window.offset ∨
    (0 ≤ window.offset ∧ 0 < window.size ∧ window.offset + window.size < 2 ^ 63)

theorem add_int64_small (left right : Int) (low : 0 ≤ left + right) (small : left + right < 2 ^ 63) :
    addInt64 left right = left + right := by
  unfold addInt64
  rw [Int.bmod_eq_of_le]
  · omega
  · omega

theorem add_int64_wraps (left right : Int) (large : 2 ^ 63 ≤ left + right)
    (leftSmall : left < 2 ^ 63) (rightSmall : right < 2 ^ 63) : addInt64 left right < 0 := by
  have wrapped : addInt64 left right = left + right - 2 ^ 64 := by
    unfold addInt64
    rw [Int.bmod_def]
    split <;> omega
  omega

theorem cut_window_iff (data : Bytes) (window : Window) (offsetSmall : window.offset < 2 ^ 63)
    (sizeSmall : window.size < 2 ^ 63) :
    cutWindow data (some window) = some (windowOf data window) ↔ window.Proper data.length := by
  obtain ⟨offset, size⟩ := window
  simp only [cutWindow, windowOf, Window.Proper] at offsetSmall sizeSmall ⊢
  by_cases behind : data.length ≤ offset
  · simp [behind]
  rw [if_neg behind]
  by_cases negative : offset < 0
  · have panics : ∀ high, sliceBytes data offset high = none := by
      intro high
      rw [sliceBytes, if_neg (by omega)]
    rw [panics]
    constructor
    · intro same
      simp at same
    · rintro (late | ⟨low, _⟩)
      · exact absurd late behind
      · omega
  by_cases positive : 0 < size
  · rw [if_neg (show ¬(data.length ≤ offset ∨ size = 0) by omega)]
    by_cases fits : offset + size < 2 ^ 63
    · rw [add_int64_small offset size (by omega) fits]
      have stop : (if 0 < size ∧ offset + size < data.length then offset + size else
          (data.length : Int)) = min (offset + size) data.length := by
        split <;> omega
      rw [stop, sliceBytes, if_pos (by omega)]
      simp only [true_iff]
      exact Or.inr ⟨by omega, positive, fits⟩
    · have wraps := add_int64_wraps offset size (by omega) offsetSmall sizeSmall
      rw [if_pos ⟨positive, by omega⟩, sliceBytes, if_neg (by omega)]
      constructor
      · intro same
        simp at same
      · rintro (late | ⟨_, _, small⟩)
        · exact absurd late behind
        · exact absurd small fits
  · -- without a positive size everything from the offset on is sent
    have sent : sliceBytes data offset data.length = some (data.drop offset.toNat) := by
      rw [sliceBytes, if_pos (by omega), Option.some.injEq]
      apply List.take_of_length_le
      rw [List.length_drop]
      omega
    rw [if_neg (fun both => positive both.1), sent]
    have nothing : (if data.length ≤ offset ∨ size = 0 then []
        else (data.drop offset.toNat).take (min (offset + size) data.length - offset).toNat) = [] := by
      split
      · rfl
      · rw [show (min (offset + size) (data.length : Int) - offset).toNat = 0 by omega, List.take_zero]
    rw [nothing]
    constructor
    · intro same
      rw [Option.some.injEq, List.drop_eq_nil_iff] at same
      omega
    · rintro (late | ⟨_, low, _⟩)
      · exact absurd late behind
      · exact absurd low positive

theorem parse_window_bounds (spec : Bytes) (window : Window) (parsed : parseWindow spec = .ok window) :
    window.offset < 2 ^ 63 ∧ window.size < 2 ^ 63 := by
  unfold parseWindow at parsed
  split at parsed
  · split at parsed
    case h_1 offset read =>
      simp only [Except.ok.injEq] at parsed
      subst parsed
      refine ⟨(parse_int_bounds _ _ read).2, ?_⟩
      show (-1 : Int) < 2 ^ 63
      decide
    case h_2 => simp at parsed
  · split at parsed
    case h_1 offset read =>
      split at parsed
      case h_1 size readSize =>
        simp only [Except.ok.injEq] at parsed
        subst parsed
        exact ⟨(parse_int_bounds _ _ read).2, (parse_int_bounds _ _ readSize).2⟩
      case h_2 => simp at parsed
    case h_2 => simp at parsed
  · simp at parsed

/-- For a section with a window `<offset.size>`, `emitFetch` sends the bytes of the
window exactly when the window is proper. -/
theorem emit_fetch_window_iff (seq : Nat) (parts : List Bytes) (extract : BodySection → Bytes)
    (wanted : BodySection) (spec : Bytes) (window : Window)
    (parsed : parseWindow spec = .ok window)
    (asked : wanted.window = some window) :
    emitFetch seq parts extract [wanted] =
        some (fetchWrites (ascii "* " ++ decimal seq ++ ascii " FETCH (" ++ [32].intercalate parts)
          [(sectionHeader wanted, windowOf (extract wanted) window)]) ↔
      window.Proper (extract wanted).length := by
  obtain ⟨offsetSmall, sizeSmall⟩ := parse_window_bounds spec window parsed
  rw [← cut_window_iff (extract wanted) window offsetSmall sizeSmall]
  unfold emitFetch bodyChunks
  rw [List.mapM_cons, List.mapM_nil, asked]
  cases sent : cutWindow (extract wanted) (some window) with
  | none => simp
  | some data =>
    simp only [fetchWrites, Option.map_some, Option.bind_eq_bind, Option.bind_some, Option.pure_def,
      Option.some.injEq, List.cons.injEq, and_true]
    constructor
    · exact fun same => same.2
    · rintro rfl
      exact ⟨rfl, rfl⟩

theorem window_past_the_end_is_cut :
    emitFetch 1 [] (fun _ => ascii "hello") [{ window := some ⟨2, 100⟩ }] =
      some [ascii "* 1 FETCH (BODY[]<2> \x7b3\x7d\r\n", ascii "llo", ascii ")\r\n"] := by
  have writes := (emit_fetch_window_iff 1 [] (fun _ => ascii "hello") { window := some ⟨2, 100⟩ }
    (ascii "2.100") ⟨2, 100⟩ (by decide) rfl).mpr
      (Or.inr (by decide))
  rw [writes]
  decide

/-- An offset below zero and a sum past 64 bits panic, and a size of zero sends
everything. -/
theorem improper_windows :
    (parseWindow (ascii "-1.5") = .ok ⟨-1, 5⟩ ∧
      emitFetch 1 [] (fun _ => ascii "hello") [{ window := some ⟨-1, 5⟩ }] = none) ∧
    (parseWindow (ascii "1.9223372036854775807") = .ok ⟨1, 9223372036854775807⟩ ∧
      emitFetch 1 [] (fun _ => ascii "hello") [{ window := some ⟨1, 9223372036854775807⟩ }] = none) ∧
    (parseWindow (ascii "0.0") = .ok ⟨0, 0⟩ ∧ windowOf (ascii "hello") ⟨0, 0⟩ = [] ∧
      emitFetch 1 [] (fun _ => ascii "hello") [{ window := some ⟨0, 0⟩ }] =
        some [ascii "* 1 FETCH (BODY[]<0> \x7b5\x7d\r\n", ascii "hello", ascii ")\r\n"]) := by
  decide +kernel

end Herold.Imap

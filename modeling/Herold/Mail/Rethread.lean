import Herold.Go.Fields
import Herold.Machine.Pointers
import Mathlib.Algebra.Ring.Int.Defs
import Mathlib.Data.Fintype.Basic
import Mathlib.Data.Finset.Card

/-!
# Rethreading

`ComputeRethread` gives every row at most one parent and then resolves the rows by
walks up the parents, each of which gives its result to all the rows it passed. The
references may be anything, so a walk may come back to its own path.
-/

namespace Herold.Rethread

open Herold.Go Herold.Machine

def foldWhitespace (text : Bytes) : Bytes := joinFields (fields text)

theorem fold_whitespace_again (text : Bytes) :
    foldWhitespace (foldWhitespace text) = foldWhitespace text := by
  unfold foldWhitespace
  rw [fields_of_joined_fields]

def isPatternSpace (item : Rune × Bytes) : Bool :=
  item.1 = 9 || item.1 = 10 || item.1 = 12 || item.1 = 13 || item.1 = 32

/-- `re`, `res`, `aw`, `fwd`, `fw` and `wg`, in the order in which they are tried. -/
def markerWords : List (List Rune) :=
  [[114, 101], [114, 101, 115], [97, 119], [102, 119, 100], [102, 119], [119, 103]]

def matchWord : List Rune → List (Rune × Bytes) → Option (List (Rune × Bytes))
  | [], items => some items
  | _ :: _, [] => none
  | letter :: word, item :: items => if foldRune item.1 = letter then matchWord word items else none

def matchColon (items : List (Rune × Bytes)) : Option (List (Rune × Bytes)) :=
  match items.dropWhile isPatternSpace with
  | [] => none
  | item :: rest => if item.1 = 58 then some (rest.dropWhile isPatternSpace) else none

/-- `baseSubjectPrefixRe.ReplaceAllString(s, "")`. -/
def stripMarker (text : Bytes) : Bytes :=
  match markerWords.findSome? fun word =>
      (matchWord word ((runes text).dropWhile isPatternSpace)).bind matchColon with
  | some rest => bytesOf rest
  | none => text

theorem match_word_suffix {word : List Rune} {items rest : List (Rune × Bytes)}
    (matched : matchWord word items = some rest) : rest <:+ items := by
  induction word generalizing items with
  | nil =>
    cases matched
    exact List.suffix_rfl
  | cons letter word ih =>
    cases items with
    | nil => cases matched
    | cons item items =>
      rw [matchWord] at matched
      split_ifs at matched
      exact (ih matched).trans (List.suffix_cons item items)

theorem bytes_of_suffix {items rest : List (Rune × Bytes)} (within : rest <:+ items) :
    (bytesOf rest).length ≤ (bytesOf items).length := by
  obtain ⟨front, rfl⟩ := within
  rw [bytes_of_append, List.length_append]
  exact Nat.le_add_left _ _

theorem match_colon_shorter {items rest : List (Rune × Bytes)} (nonempty : ∀ item ∈ items, item.2 ≠ [])
    (matched : matchColon items = some rest) : (bytesOf rest).length < (bytesOf items).length := by
  unfold matchColon at matched
  have within := List.dropWhile_suffix (l := items) isPatternSpace
  cases left : items.dropWhile isPatternSpace with
  | nil => simp [left] at matched
  | cons item behind =>
    rw [left] at within
    simp only [left] at matched
    split_ifs at matched
    cases matched
    have shorter := bytes_of_suffix (List.dropWhile_suffix (l := behind) isPatternSpace)
    have pos := List.length_pos_of_ne_nil (nonempty item (within.subset (List.mem_cons_self ..)))
    have whole := bytes_of_suffix within
    rw [bytes_of_cons, List.length_append] at whole
    omega

theorem strip_marker_shorter (text : Bytes) :
    stripMarker text = text ∨ (stripMarker text).length < text.length := by
  unfold stripMarker
  split
  case h_2 => exact Or.inl rfl
  case h_1 rest found =>
      right
      obtain ⟨word, _, matched⟩ := List.exists_of_findSome?_eq_some found
      obtain ⟨items, isWord, colon⟩ := Option.bind_eq_some_iff.mp matched
      have suffix := (match_word_suffix isWord).trans (List.dropWhile_suffix isPatternSpace)
      have shorter := match_colon_shorter
        (fun item member => rune_bytes 0 text item (suffix.subset member)) colon
      have within := bytes_of_suffix suffix
      rw [bytes_of_runes] at within
      exact Nat.lt_of_lt_of_le shorter within

/-- The loop of `NormalizeBaseSubject`, over text whose white space is folded. -/
def stripMarkers (text : Bytes) (_folded : foldWhitespace text = text) : Bytes :=
  if foldWhitespace (stripMarker text) = text then text
  else stripMarkers (foldWhitespace (stripMarker text)) (fold_whitespace_again _)
termination_by text.length
decreasing_by
  rename_i changed
  rcases strip_marker_shorter text with same | shorter
  · rw [same] at changed
    exact absurd _folded changed
  · exact Nat.lt_of_le_of_lt (join_fields_of_length _) shorter

def normalizeBaseSubject (subject : Bytes) : Bytes :=
  toLower (stripMarkers (foldWhitespace subject) (fold_whitespace_again subject))

def subjectsThreadTogether (childSubject ancestorSubject : Bytes) : Bool :=
  let child := normalizeBaseSubject childSubject
  let ancestor := normalizeBaseSubject ancestorSubject
  if child = [] || ancestor = [] then true else child = ancestor

def isMsgIDEdge (item : Rune × Bytes) : Bool := isSpaceRune item.1 || item.1 = 60 || item.1 = 62

def normalizeMessageID (id : Bytes) : Bytes :=
  toLower (bytesOf (dropTrailing isMsgIDEdge ((runes id).dropWhile isMsgIDEdge)))

/-- The variables of the loop of `ParseReferences`. -/
structure Scan where
  out : List Bytes := []
  cur : Bytes := []
  inAngle : Bool := false

def Scan.next (scan : Scan) (item : Rune × Bytes) : Scan :=
  if item.1 = 60 then { scan with inAngle := true, cur := [] }
  else if item.1 = 62 then
    if scan.inAngle then
      let value := normalizeMessageID scan.cur
      { out := if value = [] then scan.out else scan.out ++ [value], cur := [], inAngle := false }
    else scan
  else if scan.inAngle then { scan with cur := scan.cur ++ encodeRune item.1 }
  else scan

def parseReferences (text : Bytes) : List Bytes := ((runes text).foldl Scan.next {}).out

structure RethreadRow where
  id : Int
  messageID : Bytes := []
  inReplyTo : Bytes := []
  references : Bytes := []
  subject : Bytes := []
  threadID : Int := 0
  deriving DecidableEq

/-- The references of a row, those of `In-Reply-To` first, none of the others twice. -/
def allReferences (row : RethreadRow) : List Bytes :=
  (parseReferences row.references).foldl (fun all ref => if all.contains ref then all else all ++ [ref])
    (parseReferences row.inReplyTo)

section Parents

variable (rows : List RethreadRow)

/-- `byID`: the first row that carries a Message-ID. -/
def byID (id : Bytes) : Option (Fin rows.length) :=
  if id = [] then none
  else (List.finRange rows.length).find? fun index => (rows.get index).messageID = id

/-- An entry of `parent`: `parentNone`, `parentFixed` or an index. -/
inductive Parent (Index : Type) where
  | none
  | fixed
  | row (index : Index)
  deriving DecidableEq

def firstReference (index : Fin rows.length) : Option (Fin rows.length) :=
  (allReferences (rows.get index)).findSome? fun ref => (byID rows ref).filter (· ≠ index)

def parentOf (force : Bool) (index : Fin rows.length) : Parent (Fin rows.length) :=
  let row := rows.get index
  if !force && row.threadID ≠ 0 then .fixed
  else match (byID rows row.messageID).filter (· ≠ index) with
    | some first => .row first
    | none =>
      match firstReference rows index with
      | some other =>
        if subjectsThreadTogether row.subject (rows.get other).subject then .row other else .none
      | none => .none

structure Walk where
  resolved : Fin rows.length → Int
  onStack : Fin rows.length → Bool
  stack : List (Fin rows.length) := []
  cur : Fin rows.length

def Walk.left {rows : List RethreadRow} (walk : Walk rows) : Nat :=
  (Finset.univ.filter fun index => walk.onStack index = false).card

theorem left_after_push {rows : List RethreadRow} (walk next : Walk rows)
    (free : walk.onStack walk.cur = false)
    (pushed : next.onStack = Function.update walk.onStack walk.cur true) : next.left < walk.left := by
  refine Finset.card_lt_card (Finset.ssubset_iff_of_subset ?_ |>.mpr ⟨walk.cur, ?_, ?_⟩)
  · intro index member
    rw [Finset.mem_filter] at member ⊢
    refine ⟨Finset.mem_univ _, ?_⟩
    by_cases same : index = walk.cur
    · rw [same]
      exact free
    · have kept := member.2
      rwa [pushed, Function.update_of_ne same] at kept
  · exact Finset.mem_filter.mpr ⟨Finset.mem_univ _, free⟩
  · rw [Finset.mem_filter, pushed, Function.update_self]
    simp

def climb (force : Bool) (walk : Walk rows) : Walk rows :=
  if walk.resolved walk.cur ≠ 0 then walk
  else if _free : walk.onStack walk.cur = true then
    { walk with resolved := Function.update walk.resolved walk.cur (rows.get walk.cur).id }
  else
    match parentOf rows force walk.cur with
    | .fixed =>
      { walk with
        onStack := Function.update walk.onStack walk.cur true
        stack := walk.stack ++ [walk.cur]
        resolved := Function.update walk.resolved walk.cur (rows.get walk.cur).threadID }
    | .none =>
      { walk with
        onStack := Function.update walk.onStack walk.cur true
        stack := walk.stack ++ [walk.cur]
        resolved := Function.update walk.resolved walk.cur (rows.get walk.cur).id }
    | .row index =>
      climb force
        { walk with
          onStack := Function.update walk.onStack walk.cur true
          stack := walk.stack ++ [walk.cur]
          cur := index }
termination_by walk.left
decreasing_by exact left_after_push walk _ (by simpa using _free) rfl

def settle (value : Int) : List (Fin rows.length) → (Fin rows.length → Int) → (Fin rows.length → Bool) →
    (Fin rows.length → Int) × (Fin rows.length → Bool)
  | [], resolved, onStack => (resolved, onStack)
  | index :: stack, resolved, onStack =>
    settle value stack
      (if resolved index = 0 then Function.update resolved index value else resolved)
      (Function.update onStack index false)

def resolveFrom (force : Bool) (state : (Fin rows.length → Int) × (Fin rows.length → Bool))
    (start : Fin rows.length) : (Fin rows.length → Int) × (Fin rows.length → Bool) :=
  if state.1 start ≠ 0 then state
  else
    let walk := climb rows force { resolved := state.1, onStack := state.2, cur := start }
    settle rows (walk.resolved walk.cur) walk.stack walk.resolved walk.onStack

/-- `ComputeRethread`, as a function of the position of a row. -/
def computeRethread (force : Bool) : Fin rows.length → Int :=
  ((List.finRange rows.length).foldl (resolveFrom rows force) (fun _ => 0, fun _ => false)).1

end Parents

section Walks

variable {rows : List RethreadRow}

def pointer (rows : List RethreadRow) (index : Fin rows.length) : Option (Fin rows.length) :=
  match parentOf rows true index with
  | .row parent => some parent
  | _ => none

theorem parent_not_fixed (index : Fin rows.length) : parentOf rows true index ≠ .fixed := by
  unfold parentOf
  simp only [Bool.not_true, Bool.false_and, Bool.false_eq_true, if_false]
  split
  · simp
  · split
    · split_ifs <;> simp
    · simp

def nameOf (rows : List RethreadRow) (index : Fin rows.length) : Int := (rows.get index).id

/-- The rows on the stack have no result, each points at another one of them or at the
current row, and all of them are linked to it. -/
structure OnPath (walk : Walk rows) : Prop where
  labelling : Labelling (pointer rows) (nameOf rows) walk.resolved
  marked : ∀ index, walk.onStack index = true ↔ index ∈ walk.stack
  unresolved : ∀ index ∈ walk.stack, walk.resolved index = 0
  inward : ∀ index ∈ walk.stack, ∃ target, pointer rows index = some target ∧
    (target ∈ walk.stack ∨ target = walk.cur)
  linked : ∀ index ∈ walk.stack, Linked (pointer rows) index walk.cur

/-- What a walk leaves behind: results for all rows of its path, those of the others as
they were, and no marks. -/
structure Settled (walk : Walk rows)
    (after : (Fin rows.length → Int) × (Fin rows.length → Bool)) : Prop where
  labelling : Labelling (pointer rows) (nameOf rows) after.1
  kept : ∀ index, walk.resolved index ≠ 0 → after.1 index = walk.resolved index
  unmarked : ∀ index, after.2 index = false
  reached : ∀ index, index ∈ walk.stack ∨ index = walk.cur → after.1 index ≠ 0

theorem settle_spec (value : Int) (stack : List (Fin rows.length)) (resolved : Fin rows.length → Int)
    (onStack : Fin rows.length → Bool) :
    (∀ index, (settle rows value stack resolved onStack).1 index =
        if resolved index = 0 ∧ index ∈ stack then value else resolved index) ∧
      ∀ index, (settle rows value stack resolved onStack).2 index =
        (onStack index && !stack.contains index) := by
  induction stack generalizing resolved onStack with
  | nil => simp [settle]
  | cons head stack ih =>
    obtain ⟨labels, marks⟩ := ih
      (if resolved head = 0 then Function.update resolved head value else resolved)
      (Function.update onStack head false)
    refine ⟨?_, ?_⟩
    · intro index
      rw [settle, labels]
      by_cases same : index = head
      · subst same
        by_cases unset : resolved index = 0
        · simp [unset]
        · simp [unset]
      · by_cases unset : resolved head = 0
        · simp [unset, same]
        · simp [unset, same]
    · intro index
      rw [settle, marks]
      by_cases same : index = head
      · subst same
        simp
      · simp [same]

theorem settled_at_end {walk : Walk rows} (path : OnPath walk) (ended : Walk rows)
    (atCur : ended.resolved ended.cur ≠ 0)
    (elsewhere : ∀ index, index ∉ ended.stack → ended.resolved index = walk.resolved index)
    (inside : ∀ index ∈ ended.stack, walk.resolved index = 0 ∧
      (ended.resolved index = 0 ∨ ended.resolved index = ended.resolved ended.cur))
    (marks : ∀ index, ended.onStack index = true → index ∈ ended.stack)
    (inward : ∀ index ∈ ended.stack, ∀ target, pointer rows index = some target →
      target ∈ ended.stack ∨ target = ended.cur)
    (named : ∀ index ∈ ended.stack, ∃ root, Linked (pointer rows) index root ∧
      ended.resolved ended.cur = nameOf rows root)
    (walked : ∀ index, index ∈ walk.stack ∨ index = walk.cur → index ∈ ended.stack ∨
      index = ended.cur) :
    Settled walk (settle rows (ended.resolved ended.cur) ended.stack ended.resolved ended.onStack) := by
  obtain ⟨labels, marked⟩ :=
    settle_spec (ended.resolved ended.cur) ended.stack ended.resolved ended.onStack
  have onPath : ∀ index ∈ ended.stack,
      (settle rows (ended.resolved ended.cur) ended.stack ended.resolved ended.onStack).1 index =
        ended.resolved ended.cur := by
    intro index member
    rw [labels]
    rcases (inside index member).2 with unset | same
    · rw [if_pos ⟨unset, member⟩]
    · rw [if_neg (fun both => atCur (same.symm.trans both.1)), same]
  have atEnd : (settle rows (ended.resolved ended.cur) ended.stack ended.resolved ended.onStack).1
    ended.cur =
      ended.resolved ended.cur := by
    rw [labels, if_neg fun both => atCur both.1]
  have offPath : ∀ index, index ∉ ended.stack →
      (settle rows (ended.resolved ended.cur) ended.stack ended.resolved ended.onStack).1 index =
        walk.resolved index := by
    intro index absent
    rw [labels, if_neg fun both => absent both.2, elsewhere index absent]
  refine ⟨path.labelling.extended (· ∈ ended.stack) (fun index member => (inside index member).1)
    onPath offPath
    ?_ named, ?_, ?_, ?_⟩
  · intro index target member link
    rcases inward index member target link with among | isCur
    · exact onPath target among
    · rw [isCur, atEnd]
  · intro index labelled
    refine offPath index fun member => labelled (inside index member).1
  · intro index
    rw [marked]
    by_cases mark : ended.onStack index = true
    · simp [marks index mark]
    · simp [mark]
  · intro index onWalk
    rcases walked index onWalk with among | isCur
    · rw [onPath _ among]
      exact atCur
    · rw [isCur, atEnd]
      exact atCur

theorem OnPath.pushed {walk : Walk rows} (path : OnPath walk) (unset : walk.resolved walk.cur = 0)
    {target : Fin rows.length} (link : pointer rows walk.cur = some target) :
    OnPath
      { walk with
        onStack := Function.update walk.onStack walk.cur true
        stack := walk.stack ++ [walk.cur]
        cur := target } := by
  refine ⟨path.labelling, ?_, ?_, ?_, ?_⟩
  · intro index
    rw [List.mem_append, List.mem_singleton, ← path.marked]
    by_cases same : index = walk.cur
    · simp [same]
    · simp [same]
  · intro index member
    rcases List.mem_append.mp member with old | new
    · exact path.unresolved index old
    · rw [List.mem_singleton.mp new]
      exact unset
  · intro index member
    rcases List.mem_append.mp member with old | new
    · obtain ⟨next, points, inside | isCur⟩ := path.inward index old
      · exact ⟨next, points, Or.inl (List.mem_append_left _ inside)⟩
      · exact ⟨next, points, Or.inl (List.mem_append_right _ (List.mem_singleton.mpr isCur))⟩
    · rw [List.mem_singleton.mp new]
      exact ⟨target, link, Or.inr rfl⟩
  · intro index member
    rcases List.mem_append.mp member with old | new
    · exact (path.linked index old).trans (Linked.point link)
    · rw [List.mem_singleton.mp new]
      exact Linked.point link

theorem climb_settles (positive : ∀ index, nameOf rows index ≠ 0) (walk : Walk rows)
    (path : OnPath walk) :
    Settled walk (settle rows ((climb rows true walk).resolved (climb rows true walk).cur)
      (climb rows true walk).stack (climb rows true walk).resolved (climb rows true walk).onStack) := by
  induction walk using climb.induct rows true with
  | case1 walk known =>
    rw [climb, if_pos known]
    obtain ⟨root, toRoot, isName⟩ := path.labelling.named walk.cur known
    refine settled_at_end path walk known (fun _ _ => rfl) ?_
      (fun index => (path.marked index).mp) ?_ ?_
      fun _ onWalk => onWalk
    · exact fun index member => ⟨path.unresolved index member, Or.inl (path.unresolved index member)⟩
    · intro index member target link
      obtain ⟨next, points, inside⟩ := path.inward index member
      rw [link] at points
      cases points
      exact inside
    · exact fun index member => ⟨root, (path.linked index member).trans toRoot, isName⟩
  | case2 walk unset again =>
    rw [climb, if_neg unset, dif_pos again]
    have isUnset : walk.resolved walk.cur = 0 := by simpa using unset
    have inStack := (path.marked walk.cur).mp again
    have atCur : Function.update walk.resolved walk.cur (rows.get walk.cur).id walk.cur =
      nameOf rows walk.cur :=
      Function.update_self ..
    refine settled_at_end path _ (ne_of_eq_of_ne atCur (positive _)) ?_ ?_
      (fun index => (path.marked index).mp)
      ?_ ?_ fun _ onWalk => onWalk
    · intro index absent
      exact Function.update_of_ne (fun same => absent (by rw [same]; exact inStack)) ..
    · intro index member
      refine ⟨path.unresolved index member, ?_⟩
      by_cases same : index = walk.cur
      · rw [same]
        exact Or.inr rfl
      · exact Or.inl ((Function.update_of_ne same ..).trans (path.unresolved index member))
    · intro index member target link
      obtain ⟨next, points, inside⟩ := path.inward index member
      rw [link] at points
      cases points
      exact inside
    · exact fun index member => ⟨walk.cur, path.linked index member, atCur⟩
  | case3 walk unset free isFixed => exact absurd isFixed (parent_not_fixed walk.cur)
  | case4 walk unset free isNone =>
    rw [climb, if_neg unset, dif_neg free, isNone]
    dsimp only
    have isUnset : walk.resolved walk.cur = 0 := by simpa using unset
    have atCur : Function.update walk.resolved walk.cur (rows.get walk.cur).id walk.cur =
      nameOf rows walk.cur :=
      Function.update_self ..
    have noPointer : pointer rows walk.cur = none := by simp only [pointer, isNone]
    refine settled_at_end path
      { walk with
        onStack := Function.update walk.onStack walk.cur true
        stack := walk.stack ++ [walk.cur]
        resolved := Function.update walk.resolved walk.cur (rows.get walk.cur).id } ?_ ?_ ?_ ?_ ?_ ?_ ?_
    · exact ne_of_eq_of_ne atCur (positive _)
    · intro index absent
      exact Function.update_of_ne (fun same => absent (by rw [same]; simp)) ..
    · intro index member
      by_cases same : index = walk.cur
      · rw [same]
        exact ⟨isUnset, Or.inr rfl⟩
      · have old : index ∈ walk.stack := by
          rcases List.mem_append.mp member with old | new
          · exact old
          · exact absurd (List.mem_singleton.mp new) same
        refine ⟨path.unresolved index old, Or.inl ?_⟩
        exact (Function.update_of_ne same ..).trans (path.unresolved index old)
    · intro index mark
      by_cases same : index = walk.cur
      · rw [same]
        simp
      · refine List.mem_append_left _ ((path.marked index).mp ?_)
        exact (Function.update_of_ne same ..).symm.trans mark
    · intro index member target link
      rcases List.mem_append.mp member with old | new
      · obtain ⟨next, points, inside⟩ := path.inward index old
        rw [link] at points
        cases points
        exact inside.imp_left (List.mem_append_left _)
      · rw [List.mem_singleton.mp new, noPointer] at link
        cases link
    · intro index member
      refine ⟨walk.cur, ?_, atCur⟩
      rcases List.mem_append.mp member with old | new
      · exact path.linked index old
      · rw [List.mem_singleton.mp new]
        exact Linked.refl _
    · intro index onWalk
      exact onWalk.imp_left (List.mem_append_left _)
  | case5 walk unset free parent isRow ih =>
    rw [climb, if_neg unset, dif_neg free, isRow]
    have isUnset : walk.resolved walk.cur = 0 := by simpa using unset
    have link : pointer rows walk.cur = some parent := by simp only [pointer, isRow]
    have later := ih (path.pushed isUnset link)
    refine ⟨later.labelling, later.kept, later.unmarked, fun index onWalk =>
      later.reached index (Or.inl ?_)⟩
    exact List.mem_append.mpr (onWalk.imp_right List.mem_singleton.mpr)

structure Between (state : (Fin rows.length → Int) × (Fin rows.length → Bool)) : Prop where
  labelling : Labelling (pointer rows) (nameOf rows) state.1
  unmarked : ∀ index, state.2 index = false

theorem resolve_from_settles (positive : ∀ index, nameOf rows index ≠ 0)
    {state : (Fin rows.length → Int) × (Fin rows.length → Bool)} (between : Between state)
    (start : Fin rows.length) :
    Between (resolveFrom rows true state start) ∧
      (∀ index, state.1 index ≠ 0 → (resolveFrom rows true state start).1 index ≠ 0) ∧
      (resolveFrom rows true state start).1 start ≠ 0 := by
  unfold resolveFrom
  by_cases known : state.1 start ≠ 0
  · rw [if_pos known]
    exact ⟨between, fun _ labelled => labelled, known⟩
  · rw [if_neg known]
    have path : OnPath { resolved := state.1, onStack := state.2, cur := start } := by
      refine ⟨between.labelling, ?_, ?_, ?_, ?_⟩
      · intro index
        simp [between.unmarked index]
      · intro index member
        cases member
      · intro index member
        cases member
      · intro index member
        cases member
    have settled := climb_settles positive _ path
    refine ⟨⟨settled.labelling, settled.unmarked⟩, ?_, settled.reached start (Or.inr rfl)⟩
    intro index labelled
    rw [settled.kept index labelled]
    exact labelled

theorem resolve_all (positive : ∀ index, nameOf rows index ≠ 0) (starts : List (Fin rows.length))
    (state : (Fin rows.length → Int) × (Fin rows.length → Bool)) (between : Between state) :
    Labelling (pointer rows) (nameOf rows) (starts.foldl (resolveFrom rows true) state).1 ∧
      ∀ index, state.1 index ≠ 0 ∨ index ∈ starts →
        (starts.foldl (resolveFrom rows true) state).1 index ≠ 0 := by
  induction starts generalizing state with
  | nil => exact ⟨between.labelling, fun index known => known.resolve_right List.not_mem_nil⟩
  | cons start starts ih =>
    obtain ⟨next, kept, reached⟩ := resolve_from_settles positive between start
    obtain ⟨labelling, complete⟩ := ih _ next
    refine ⟨labelling, fun index known => complete index ?_⟩
    rcases known with labelled | member
    · exact Or.inl (kept index labelled)
    · rcases List.mem_cons.mp member with rfl | later
      · exact Or.inl reached
      · exact Or.inr later

theorem compute_rethread_labels (positive : ∀ index, nameOf rows index ≠ 0) :
    Labelling (pointer rows) (nameOf rows) (computeRethread rows true) ∧
      ∀ index, computeRethread rows true index ≠ 0 := by
  obtain ⟨labelling, complete⟩ :=
    resolve_all positive (List.finRange rows.length) (fun _ => 0, fun _ => false)
    ⟨Labelling.empty, fun _ => rfl⟩
  exact ⟨labelling, fun index => complete index (Or.inr (List.mem_finRange index))⟩

end Walks

section Graph

variable {rows : List RethreadRow}

def IsFirst (rows : List RethreadRow) (id : Bytes) (index : Fin rows.length) : Prop :=
  id ≠ [] ∧ (rows.get index).messageID = id ∧ ∀ earlier < index, (rows.get earlier).messageID ≠ id

def headerReferences (row : RethreadRow) : List Bytes :=
  parseReferences row.inReplyTo ++ parseReferences row.references

def FirstReferred (rows : List RethreadRow) (index target : Fin rows.length) : Prop :=
  ∃ before ref after, headerReferences (rows.get index) = before ++ ref :: after ∧
    (∀ earlier ∈ before, ∀ other, IsFirst rows earlier other → other = index) ∧
    IsFirst rows ref target ∧ target ≠ index

/-- The parent of a row: the first row with the same Message-ID, else the first other row
its references name, if the base subjects thread together. -/
def IsParent (rows : List RethreadRow) (index parent : Fin rows.length) : Prop :=
  (IsFirst rows (rows.get index).messageID parent ∧ parent ≠ index) ∨
    ((∀ first, IsFirst rows (rows.get index).messageID first → first = index) ∧
      FirstReferred rows index parent ∧
      subjectsThreadTogether (rows.get index).subject (rows.get parent).subject = true)

theorem by_id_iff (id : Bytes) (index : Fin rows.length) :
    byID rows id = some index ↔ IsFirst rows id index := by
  unfold byID IsFirst
  by_cases empty : id = []
  · simp [empty]
  · rw [if_neg empty, List.find?_eq_some_iff_append]
    constructor
    · rintro ⟨carries, front, back, split, none⟩
      refine ⟨empty, by simpa using carries, fun earlier before same => ?_⟩
      have sorted : (List.finRange rows.length).Pairwise (· < ·) := List.pairwise_lt_finRange _
      have listed : earlier ∈ front ++ index :: back := by
        rw [← split]
        exact List.mem_finRange earlier
      rw [split] at sorted
      rcases List.mem_append.mp listed with inFront | behind
      · exact absurd same (by simpa using none earlier inFront)
      · rcases List.mem_cons.mp behind with rfl | later
        · exact lt_irrefl _ before
        · have above := (List.pairwise_cons.mp (List.pairwise_append.mp sorted).2.1).1 earlier later
          exact lt_irrefl _ (before.trans above)
    · rintro ⟨_, carries, first⟩
      obtain ⟨front, back, split⟩ := List.append_of_mem (List.mem_finRange index)
      refine ⟨by simpa using carries, front, back, split, fun earlier member => ?_⟩
      have sorted : (List.finRange rows.length).Pairwise (· < ·) := List.pairwise_lt_finRange _
      rw [split] at sorted
      have before := (List.pairwise_append.mp sorted).2.2 earlier member index (List.mem_cons_self ..)
      simpa using first earlier before

theorem find_some_without_repeats {Item Found : Type} [BEq Item] [LawfulBEq Item]
    (find : Item → Option Found)
    (more all : List Item) :
    (more.foldl (fun all item => if all.contains item then all else all ++ [item]) all).findSome? find =
      (all ++ more).findSome? find := by
  induction more generalizing all with
  | nil => simp
  | cons item more ih =>
    rw [List.foldl_cons, ih]
    by_cases repeated : all.contains item = true
    · rw [if_pos repeated, List.findSome?_append, List.findSome?_append, List.findSome?_cons]
      cases found : find item with
      | none => rfl
      | some result =>
        have early : (all.findSome? find).isSome := by
          rw [List.findSome?_isSome_iff]
          exact ⟨item, List.contains_iff_mem.mp repeated, by rw [found]; rfl⟩
        obtain ⟨first, isFirst⟩ := Option.isSome_iff_exists.mp early
        simp [isFirst]
    · rw [if_neg repeated, List.append_assoc, List.singleton_append]

theorem first_reference_iff (index target : Fin rows.length) :
    firstReference rows index = some target ↔ FirstReferred rows index target := by
  unfold firstReference allReferences FirstReferred
  rw [find_some_without_repeats]
  change (headerReferences (rows.get index)).findSome? _ = _ ↔ _
  rw [List.findSome?_eq_some_iff]
  constructor
  · rintro ⟨before, ref, after, split, found, none⟩
    obtain ⟨names, differs⟩ := Option.filter_eq_some_iff.mp found
    refine ⟨before, ref, after, split, ?_, (by_id_iff ref target).mp names, by simpa using differs⟩
    intro earlier member other isFirst
    have nothing := none earlier member
    rw [(by_id_iff earlier other).mpr isFirst] at nothing
    by_contra differs
    simp [Option.filter, differs] at nothing
  · rintro ⟨before, ref, after, split, none, names, differs⟩
    refine ⟨before, ref, after, split, ?_, ?_⟩
    · rw [(by_id_iff ref target).mpr names]
      simp [Option.filter, differs]
    · intro earlier member
      rw [Option.filter_eq_none_iff]
      intro other names
      have same := none earlier member other ((by_id_iff earlier other).mp names)
      simp [same]

theorem pointer_iff (index parent : Fin rows.length) :
    pointer rows index = some parent ↔ IsParent rows index parent := by
  unfold pointer parentOf IsParent
  simp only [Bool.not_true, Bool.false_and, Bool.false_eq_true, if_false]
  cases twin : (byID rows (rows.get index).messageID).filter (· ≠ index) with
  | some first =>
    obtain ⟨names, differs⟩ := Option.filter_eq_some_iff.mp twin
    have isFirst := (by_id_iff _ first).mp names
    have other : first ≠ index := by simpa using differs
    simp only [Option.some.injEq]
    constructor
    · rintro rfl
      exact Or.inl ⟨isFirst, other⟩
    · rintro (⟨alsoFirst, _⟩ | ⟨only, _⟩)
      · have same := (by_id_iff _ parent).mpr alsoFirst
        rw [names] at same
        exact Option.some.inj same
      · exact absurd (only first isFirst) other
  | none =>
    have only : ∀ first, IsFirst rows (rows.get index).messageID first → first = index := by
      intro first isFirst
      have names := (by_id_iff _ first).mpr isFirst
      have kept := Option.filter_eq_none_iff.mp twin first names
      simpa using kept
    dsimp only
    cases found : firstReference rows index with
    | none =>
      simp only [reduceCtorEq, false_iff]
      rintro (⟨isFirst, differs⟩ | ⟨_, referred, _⟩)
      · exact differs (only parent isFirst)
      · rw [(first_reference_iff index parent).mpr referred] at found
        cases found
    | some other =>
      have referred := (first_reference_iff index other).mp found
      dsimp only
      by_cases together : subjectsThreadTogether (rows.get index).subject
        (rows.get other).subject = true
      · simp only [together, if_true, Option.some.injEq]
        constructor
        · rintro rfl
          exact Or.inr ⟨only, referred, together⟩
        · rintro (⟨isFirst, differs⟩ | ⟨_, alsoReferred, _⟩)
          · exact absurd (only parent isFirst) differs
          · rw [(first_reference_iff index parent).mpr alsoReferred] at found
            exact (Option.some.inj found).symm
      · simp only [together, Bool.false_eq_true, if_false, reduceCtorEq, false_iff]
        rintro (⟨isFirst, differs⟩ | ⟨_, alsoReferred, matching⟩)
        · exact differs (only parent isFirst)
        · rw [(first_reference_iff index parent).mpr alsoReferred] at found
          cases found
          exact together matching

theorem linked_iff (left right : Fin rows.length) :
    Linked (pointer rows) left right ↔ Relation.EqvGen (IsParent rows) left right := by
  unfold Linked
  simp only [pointer_iff]

end Graph

section Components

variable {rows other : List RethreadRow}

def DistinctMessageIDs (rows : List RethreadRow) : Prop :=
  ∀ left right : Fin rows.length, (rows.get left).messageID = (rows.get right).messageID →
    (rows.get left).messageID ≠ [] → left = right

theorem get_injective (distinct : (rows.map RethreadRow.id).Nodup) {left right : Fin rows.length}
    (same : (rows.get left).id = (rows.get right).id) : left = right := by
  have nodup := List.nodup_iff_injective_get.mp distinct
  have lengths : (rows.map RethreadRow.id).length = rows.length := List.length_map _
  have equal : (left.cast lengths.symm) = right.cast lengths.symm := by
    apply nodup
    simpa using same
  simpa [Fin.ext_iff] using equal

theorem is_first_of_distinct (distinct : DistinctMessageIDs rows) {id : Bytes} {index : Fin rows.length}
    (nonempty : id ≠ []) (carries : (rows.get index).messageID = id) : IsFirst rows id index := by
  refine ⟨nonempty, carries, fun earlier before same => ?_⟩
  have equal := distinct earlier index (same.trans carries.symm) (by rw [same]; exact nonempty)
  rw [equal] at before
  exact lt_irrefl _ before

def SameRow (rows other : List RethreadRow) (left : Fin rows.length)
    (right : Fin other.length) : Prop :=
  rows.get left = other.get right

theorem same_row_exists (order : rows.Perm other) (index : Fin rows.length) :
    ∃ there, SameRow rows other index there := by
  have listed : rows.get index ∈ other := order.subset (List.get_mem rows index)
  obtain ⟨there, same⟩ := List.get_of_mem listed
  exact ⟨there, same.symm⟩

theorem distinct_message_ids_perm (order : rows.Perm other) (ids : (rows.map RethreadRow.id).Nodup)
    (distinct : DistinctMessageIDs rows) : DistinctMessageIDs other := by
  intro left right same nonempty
  obtain ⟨here, isLeft⟩ := same_row_exists order.symm left
  obtain ⟨there, isRight⟩ := same_row_exists order.symm right
  unfold SameRow at isLeft isRight
  rw [isLeft, isRight] at same
  rw [isLeft] at nonempty
  have equal := distinct here there same nonempty
  have otherIds : (other.map RethreadRow.id).Nodup := (order.map RethreadRow.id).nodup_iff.mp ids
  refine get_injective otherIds ?_
  rw [isLeft, isRight, equal]

theorem parent_of_reordered (order : rows.Perm other) (ids : (rows.map RethreadRow.id).Nodup)
    (distinct : DistinctMessageIDs rows) {index parent : Fin rows.length} {there : Fin other.length}
    (isParent : IsParent rows index parent) (same : SameRow rows other index there) :
    ∃ target, IsParent other there target ∧ SameRow rows other parent target := by
  have otherDistinct := distinct_message_ids_perm order ids distinct
  have otherIds : (other.map RethreadRow.id).Nodup := (order.map RethreadRow.id).nodup_iff.mp ids
  unfold SameRow at same
  rcases isParent with ⟨⟨nonempty, carries, _⟩, differs⟩ | ⟨_, referred, together⟩
  · exact absurd (distinct parent index carries (by rw [carries]; exact nonempty)) differs
  · obtain ⟨before, ref, after, split, none, names, differs⟩ := referred
    obtain ⟨target, sameTarget⟩ := same_row_exists order parent
    have sameRow := sameTarget
    unfold SameRow at sameRow
    refine ⟨target, Or.inr ⟨?_, ⟨before, ref, after, ?_, ?_, ?_, ?_⟩, ?_⟩, sameTarget⟩
    · intro first isFirst
      exact otherDistinct first there isFirst.2.1 (by rw [isFirst.2.1]; exact isFirst.1)
    · rw [← same]
      exact split
    · intro earlier member named isFirst
      obtain ⟨back, isBack⟩ := same_row_exists order.symm named
      unfold SameRow at isBack
      have first : IsFirst rows earlier back :=
        is_first_of_distinct distinct isFirst.1 (by rw [← isBack]; exact isFirst.2.1)
      refine get_injective otherIds ?_
      rw [isBack, none earlier member back first, same]
    · exact is_first_of_distinct otherDistinct names.1 (by rw [← sameRow]; exact names.2.1)
    · intro equal
      refine differs (get_injective ids ?_)
      rw [sameRow, same, equal]
    · rw [← same, ← sameRow]
      exact together

theorem linked_reordered (order : rows.Perm other) (ids : (rows.map RethreadRow.id).Nodup)
    (distinct : DistinctMessageIDs rows) {left right : Fin rows.length}
    {thereLeft thereRight : Fin other.length}
    (sameLeft : SameRow rows other left thereLeft) (sameRight : SameRow rows other right thereRight)
    (linked : Linked (pointer rows) left right) : Linked (pointer other) thereLeft thereRight := by
  have otherIds : (other.map RethreadRow.id).Nodup := (order.map RethreadRow.id).nodup_iff.mp ids
  refine Linked.carried (SameRow rows other) (same_row_exists order) ?_ ?_ linked _ _ sameLeft sameRight
  · intro vertex first second isFirst isSecond
    unfold SameRow at isFirst isSecond
    exact get_injective otherIds (by rw [← isFirst, ← isSecond])
  · intro source target there link same
    obtain ⟨next, isParent, sameNext⟩ :=
      parent_of_reordered order ids distinct ((pointer_iff source target).mp link) same
    exact ⟨next, (pointer_iff there next).mpr isParent, sameNext⟩

theorem names_nonzero (positive : ∀ row ∈ rows, 0 < row.id) (index : Fin rows.length) :
    nameOf rows index ≠ 0 := by
  have above := positive (rows.get index) (List.get_mem rows index)
  unfold nameOf
  omega

theorem same_thread_iff (distinct : (rows.map RethreadRow.id).Nodup)
    (positive : ∀ row ∈ rows, 0 < row.id)
    (left right : Fin rows.length) :
    computeRethread rows true left = computeRethread rows true right ↔
    Linked (pointer rows) left right := by
  obtain ⟨labelling, complete⟩ := compute_rethread_labels (names_nonzero positive)
  exact labelling.same_label_iff complete (fun _ _ same => get_injective distinct same) left right

/-- Threads are the components of the parent graph, each named after one of its rows, and
without equal Message-IDs they do not depend on the order of the rows. -/
theorem rethread_components (rows : List RethreadRow) (distinct : (rows.map RethreadRow.id).Nodup)
    (positive : ∀ row ∈ rows, 0 < row.id) :
    (∀ left right, computeRethread rows true left = computeRethread rows true right ↔
        Relation.EqvGen (IsParent rows) left right) ∧
      (∀ index, ∃ member, Relation.EqvGen (IsParent rows) index member ∧
        computeRethread rows true index = (rows.get member).id) ∧
      (DistinctMessageIDs rows → ∀ other, rows.Perm other →
        ∀ (left right : Fin rows.length) (thereLeft thereRight : Fin other.length),
          rows.get left = other.get thereLeft → rows.get right = other.get thereRight →
          (computeRethread rows true left = computeRethread rows true right ↔
            computeRethread other true thereLeft = computeRethread other true thereRight)) := by
  refine ⟨?_, ?_, ?_⟩
  · intro left right
    rw [same_thread_iff distinct positive, linked_iff]
  · intro index
    obtain ⟨labelling, complete⟩ := compute_rethread_labels (names_nonzero positive)
    obtain ⟨root, linked, isName⟩ := labelling.named index (complete index)
    exact ⟨root, (linked_iff index root).mp linked, isName⟩
  · intro messageIDs other order left right thereLeft thereRight sameLeft sameRight
    have otherDistinct : (other.map RethreadRow.id).Nodup :=
      (order.map RethreadRow.id).nodup_iff.mp distinct
    have otherPositive : ∀ row ∈ other, 0 < row.id :=
      fun row member => positive row (order.symm.subset member)
    rw [same_thread_iff distinct positive, same_thread_iff otherDistinct otherPositive]
    constructor
    · exact linked_reordered order distinct messageIDs sameLeft sameRight
    · exact linked_reordered order.symm otherDistinct
        (distinct_message_ids_perm order distinct messageIDs)
        sameLeft.symm sameRight.symm

def crossedRows : List RethreadRow :=
  [{ id := 7, messageID := [97], inReplyTo := [60, 98, 62] },
    { id := 9, messageID := [98], references := [60, 97, 62] }]

theorem crossed_rows_components :
    computeRethread crossedRows true ⟨0, by decide⟩ = computeRethread crossedRows true ⟨1, by decide⟩ ∧
      Relation.EqvGen (IsParent crossedRows) ⟨0, by decide⟩ ⟨1, by decide⟩ := by
  have same : computeRethread crossedRows true ⟨0, by decide⟩ =
    computeRethread crossedRows true ⟨1, by decide⟩ := by
    decide +kernel
  exact ⟨same, ((rethread_components crossedRows (by decide) (by decide)).1 _ _).mp same⟩

end Components

end Herold.Rethread

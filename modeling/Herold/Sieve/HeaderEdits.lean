import Herold.Sieve.Mutations

/-!
# Editing the header

What `addheader` and `deleteheader` are to do, line by line and field by field, and when
the rewrite does it. A line of the message ends in a line feed, with a carriage return
before it or not; `applyDeleteHeader` ends its lines at CRLF alone.
-/

namespace Herold.Sieve

open Herold.Go Herold.Mail

def isNamed (name line : Bytes) : Bool :=
    (cutFirstByte 58 line).any fun halves => matchesName halves.1 name

/-- A deletion takes the fields of the header as it stands by then. -/
def editLines (lines : List Bytes) : Action → List Bytes
  | .addHeader name value => linesWithFeed (name ++ ascii ": " ++ value ++ crlf) ++ lines
  | .deleteHeader name =>
    ((gatherFields lines).filter fun field => !fieldNamed (isNamed name) field).flatten
  | _ => lines

/-- The message with its header edited: the lines of the fields, the blank line as it was,
and the body as it was. -/
def editedText (block body : Bytes) (actions : List Action) : Bytes :=
  (actions.foldl editLines (linesWithFeed block).dropLast).flatten ++
    (linesWithFeed block).getLastD [] ++ body

def editFields (fields : List (List Bytes)) : Action → List (List Bytes)
  | .addHeader name value => [name ++ ascii ": " ++ value ++ crlf] :: fields
  | .deleteHeader name => fields.filter fun field => !fieldNamed (isNamed name) field
  | _ => fields

/-- The same with each added field on its own: the original fields without those of a
deleted name, and the added ones on top. -/
def editedMessage (block body : Bytes) (actions : List Action) : Bytes :=
  (actions.foldl editFields (gatherFields (linesWithFeed block).dropLast)).flatten.flatten ++
    (linesWithFeed block).getLastD [] ++ body

def Action.adds : Action → Bool
  | addHeader .. => true
  | _ => false

def Action.deletes : Action → Bool
  | deleteHeader _ => true
  | _ => false

/-- A line with something on it, ended by CRLF and with no other line feed. -/
def IsLine (line : Bytes) : Prop := ∃ content, line = content ++ crlf ∧ content ≠ [] ∧ 10 ∉ content

/-- A header whose lines all end in CRLF. -/
def CrlfBlock (block : Bytes) : Prop :=
  ∃ lines : List Bytes, block = lines.flatten ++ crlf ∧ ∀ line ∈ lines, IsLine line

def AddsLines : Action → Prop
  | .addHeader name value => ∀ line ∈ linesWithFeed (name ++ ascii ": " ++ value ++ crlf), IsLine line
  | _ => True

/-- What the actions need of the block: where one deletes, the lines of the block end in CRLF,
and so do the lines of what is added before it. -/
def PlainEdits (block : Bytes) (actions : List Action) : Prop :=
  ∀ before name after, actions = before ++ .deleteHeader name :: after →
    CrlfBlock block ∧ ∀ action ∈ before, AddsLines action

def OneLine : Action → Prop
  | .addHeader name value => 10 ∉ name ∧ 10 ∉ value ∧ startsBlank name = false
  | _ => True

theorem last_line_apart (block : Bytes) :
    (linesWithFeed block).dropLast.flatten ++ (linesWithFeed block).getLastD [] = block := by
  cases lines : linesWithFeed block with
  | nil =>
    have whole := lines_with_feed_flatten block
    rw [lines] at whole
    exact whole
  | cons line more =>
    have whole := lines_with_feed_flatten block
    rw [lines] at whole
    have split : (line :: more).dropLast ++ [(line :: more).getLastD []] = line :: more := by
      rw [List.getLastD_eq_getLast?, List.getLast?_eq_some_getLast (List.cons_ne_nil line more),
        Option.getD_some]
      exact List.dropLast_append_getLast _
    have flat := congrArg List.flatten split
    rw [List.flatten_append] at flat
    rw [← whole, ← flat]
    simp

theorem cut_line (content rest : Bytes) (free : 10 ∉ content) :
    cutFirst crlf (content ++ crlf ++ rest) = some (content, rest) := by
  induction content with
  | nil =>
    have here : hasPrefix (13 :: 10 :: rest) crlf = true := by simp [hasPrefix, crlf, List.isPrefixOf]
    show cutFirst crlf (13 :: 10 :: rest) = some ([], rest)
    rw [cutFirst, if_pos here]
    rfl
  | cons byte content ih =>
    rw [List.mem_cons, not_or] at free
    have elsewhere : ¬hasPrefix (byte :: (content ++ crlf ++ rest)) crlf = true := by
      intro starts
      cases content with
      | nil => simp [hasPrefix, crlf, List.isPrefixOf] at starts
      | cons next content =>
        simp [hasPrefix, crlf, List.isPrefixOf] at starts
        exact free.2 (starts.2 ▸ List.mem_cons_self)
    rw [List.cons_append, List.cons_append, cutFirst, if_neg elsewhere, ih free.2]
    rfl

theorem slice_line (line rest : Bytes) (is : IsLine line) :
    sliceLine (line ++ rest) = some (line, rest) := by
  obtain ⟨content, rfl, -, free⟩ := is
  unfold sliceLine
  rw [cut_line content rest free]

theorem line_filled (line : Bytes) (is : IsLine line) : line ≠ [] ∧ line ≠ crlf := by
  obtain ⟨content, rfl, filled, -⟩ := is
  constructor
  · simp [crlf]
  · intro same
    have lengths := congrArg List.length same
    rw [List.length_append] at lengths
    have empty : content.length = 0 := by omega
    exact filled (List.length_eq_zero_iff.mp empty)

section Delete

variable (name : Bytes)

theorem delete_lines_strip (lines : List Bytes) (fuel : Nat) (skipping : Bool)
    (are : ∀ line ∈ lines, IsLine line) :
    deleteLines name (lines.length + (fuel + 1)) skipping (lines.flatten ++ crlf) =
      some ((stripLines (isNamed name) skipping lines).flatten ++ crlf) := by
  induction lines generalizing skipping with
  | nil =>
    have sliced : sliceLine crlf = some (crlf, []) := by decide
    change deleteLines name (0 + (fuel + 1)) skipping crlf = some crlf
    rw [Nat.zero_add, deleteLines, if_neg (by decide), sliced]
    dsimp only
    rw [if_neg (by decide), if_pos rfl]
  | cons line lines ih =>
    have is := are line List.mem_cons_self
    have later := fun skipping => ih skipping fun other member =>
      are other (List.mem_cons_of_mem _ member)
    have filled : ¬(line ++ (lines.flatten ++ crlf) = []) := by simp [(line_filled line is).1]
    rw [List.length_cons, Nat.add_right_comm, List.flatten_cons, List.append_assoc, deleteLines,
      if_neg filled, slice_line line _ is, stripLines]
    dsimp only
    by_cases blank : startsBlank line = true
    · rw [if_pos blank, if_pos blank, later]
      cases skipping <;> simp
    · rw [if_neg blank, if_neg blank, if_neg (line_filled line is).2, later, later, isNamed]
      cases cut : cutFirstByte 58 line with
      | none => simp
      | some halves =>
        simp only [Option.any_some]
        split <;> simp

theorem lines_short (lines : List Bytes) (are : ∀ line ∈ lines, IsLine line) :
    lines.length ≤ lines.flatten.length := by
  induction lines with
  | nil => exact Nat.le_refl _
  | cons line lines ih =>
    have first := List.length_pos_iff.mpr (line_filled line (are line List.mem_cons_self)).1
    have more := ih fun other member => are other (List.mem_cons_of_mem _ member)
    rw [List.flatten_cons, List.length_append, List.length_cons]
    omega

theorem apply_delete_header_lines (lines : List Bytes) (are : ∀ line ∈ lines, IsLine line) :
    applyDeleteHeader (lines.flatten ++ crlf) name =
      some ((editLines lines (.deleteHeader name)).flatten ++ crlf) := by
  have short := lines_short lines are
  have enough : (lines.flatten ++ crlf).length + 1 =
      lines.length + ((lines.flatten.length - lines.length + crlf.length) + 1) := by
    rw [List.length_append]
    omega
  rw [applyDeleteHeader, enough, delete_lines_strip name lines _ false are, strip_lines_top]
  rfl

theorem deleted_lines_among (lines : List Bytes) :
    ∀ line ∈ editLines lines (.deleteHeader name), line ∈ lines := by
  intro line member
  rw [editLines, ← strip_lines_top] at member
  exact strip_lines_subset (isNamed name) false lines line member

end Delete

theorem lines_of_crlf_block (lines : List Bytes) (are : ∀ line ∈ lines, IsLine line) :
    linesWithFeed (lines.flatten ++ crlf) = lines ++ [crlf] := by
  induction lines with
  | nil => decide
  | cons line lines ih =>
    obtain ⟨content, rfl, -, free⟩ := are _ List.mem_cons_self
    have single : 10 ∉ content ++ [13] := by
      rw [List.mem_append, not_or]
      exact ⟨free, by decide⟩
    have cut := lines_with_feed_line (content ++ [13]) (lines.flatten ++ crlf) single
    rw [List.flatten_cons, List.cons_append, ← ih fun other member =>
      are other (List.mem_cons_of_mem _ member)]
    simpa [crlf] using cut

theorem edit_headers_lines (actions : List Action) (lines : List Bytes) (separator : Bytes)
    (edits : ∀ action ∈ actions, (action.adds || action.deletes) = true)
    (plain : ∀ before name after, actions = before ++ .deleteHeader name :: after →
      separator = crlf ∧ (∀ line ∈ lines, IsLine line) ∧ ∀ action ∈ before, AddsLines action) :
    editHeaders actions (lines.flatten ++ separator) =
      some ((actions.foldl editLines lines).flatten ++ separator) := by
  induction actions generalizing lines with
  | nil => rfl
  | cons action actions ih =>
    have later := fun lines => ih lines fun other member => edits other (List.mem_cons_of_mem _ member)
    have own := edits action List.mem_cons_self
    cases action with
    | addHeader name value =>
      rw [List.foldl_cons, ← later (editLines lines (.addHeader name value))]
      · simp [editHeaders, editHeader, applyAddHeader, editLines, lines_with_feed_flatten]
      · intro before deleted after same
        obtain ⟨ends, are, added⟩ :=
          plain (.addHeader name value :: before) deleted after (by rw [same]; rfl)
        refine ⟨ends, fun line member => ?_, fun action member =>
          added action (List.mem_cons_of_mem _ member)⟩
        rcases List.mem_append.mp member with own | old
        · exact added _ List.mem_cons_self line own
        · exact are line old
    | deleteHeader name =>
      obtain ⟨rfl, are, -⟩ := plain [] name actions rfl
      rw [List.foldl_cons, ← later (editLines lines (.deleteHeader name)), editHeaders, editHeader,
        apply_delete_header_lines name lines are, Option.bind_some]
      intro before deleted after same
      obtain ⟨ends, _, added⟩ := plain (.deleteHeader name :: before) deleted after (by rw [same]; rfl)
      exact ⟨ends, fun line member => are line (deleted_lines_among name lines line member),
        fun action member => added action (List.mem_cons_of_mem _ member)⟩
    | _ => cases own

theorem add_fields_lines (actions : List Action) (lines : List Bytes) (fields : List (List Bytes))
    (same : lines.flatten = fields.flatten.flatten)
    (edits : ∀ action ∈ actions, (action.adds || action.deletes) = true)
    (keeps : ∀ action ∈ actions, action.deletes = false) :
    (actions.foldl editLines lines).flatten = (actions.foldl editFields fields).flatten.flatten := by
  induction actions generalizing lines fields with
  | nil => exact same
  | cons action actions ih =>
    have own := edits action List.mem_cons_self
    have stays := keeps action List.mem_cons_self
    refine ih _ _ ?_ (fun other member => edits other (List.mem_cons_of_mem _ member))
      fun other member => keeps other (List.mem_cons_of_mem _ member)
    cases action with
    | addHeader name value => simp [editLines, editFields, lines_with_feed_flatten, same]
    | deleteHeader name => cases stays
    | _ => cases own

/-- Where no line that begins a field or is added starts with white space, the fields of the
edited lines are the edited fields. -/
theorem edit_fields_lines (actions : List Action) (fields : List (List Bytes))
    (whole : ∀ field ∈ fields, IsWholeField field) (single : ∀ action ∈ actions, OneLine action) :
    actions.foldl editLines fields.flatten = (actions.foldl editFields fields).flatten := by
  induction actions generalizing fields with
  | nil => rfl
  | cons action actions ih =>
    have later := fun fields whole =>
      ih fields whole fun other member => single other (List.mem_cons_of_mem _ member)
    cases action with
    | addHeader name value =>
      obtain ⟨nameFree, valueFree, begins⟩ := single _ List.mem_cons_self
      have free : 10 ∉ name ++ ascii ": " ++ value ++ [13] := by
        simp only [List.mem_append, not_or]
        exact ⟨⟨⟨nameFree, by decide⟩, valueFree⟩, by decide⟩
      have line : linesWithFeed (name ++ ascii ": " ++ value ++ crlf) =
          [name ++ ascii ": " ++ value ++ crlf] := by
        simpa [crlf, linesWithFeed] using
          lines_with_feed_line (name ++ ascii ": " ++ value ++ [13]) [] free
      have added : editLines fields.flatten (.addHeader name value) =
          (editFields fields (.addHeader name value)).flatten := by
        rw [editLines, line]
        rfl
      rw [List.foldl_cons, List.foldl_cons, added]
      refine later _ fun field member => ?_
      rcases List.mem_cons.mp member with rfl | old
      · refine ⟨_, [], rfl, ?_, by simp⟩
        cases name with
        | nil => rfl
        | cons first name => exact begins
      · exact whole field old
    | deleteHeader name =>
      rw [List.foldl_cons, List.foldl_cons, editLines, gather_fields_of_whole fields whole]
      exact later _ fun field member => whole field (List.mem_of_mem_filter member)
    | _ => exact later fields whole

theorem read_header_block_whole (raw block body : Bytes)
    (found : readHeaderBlock raw = some (block, body)) :
    block ++ body = raw := by
  unfold readHeaderBlock at found
  obtain ⟨headerEnd, -, same⟩ := Option.map_eq_some_iff.mp found
  cases same
  exact List.take_append_drop _ _

theorem edit_headers_idle (actions : List Action) (block : Bytes)
    (idle : ∀ action ∈ actions, action.mutates = false) :
    editHeaders actions block = some block ∧ actions.filterMap Action.enclosure = [] := by
  induction actions with
  | nil => exact ⟨rfl, rfl⟩
  | cons action actions ih =>
    obtain ⟨kept, none⟩ := ih fun other member => idle other (List.mem_cons_of_mem _ member)
    have own := idle action List.mem_cons_self
    have same : editHeader block action = some block ∧ action.enclosure = Option.none := by
      cases action <;> first | exact ⟨rfl, rfl⟩ | cases own
    rw [editHeaders, same.1, Option.bind_some, List.filterMap_cons_none same.2]
    exact ⟨kept, none⟩

/-- Without a replacement the edited header and the body as it was read are written, in
the embeddings if there are any. -/
theorem apply_without_replace (boundaries : Nat → Bytes) (raw block body : Bytes) (outcome : Outcome)
    (found : readHeaderBlock raw = some (block, body))
    (noReplace : outcome.actions.any Action.isReplace = false) :
    applyMutationsBytes boundaries raw outcome =
      (editHeaders outcome.actions block).map fun headers =>
        if outcome.actions.filterMap Action.enclosure = [] then headers ++ body
        else encloseStreaming boundaries headers body 0
          (outcome.actions.filterMap Action.enclosure) := by
  cases mutates : hasMutations outcome with
  | false =>
    have idle : ∀ action ∈ outcome.actions, action.mutates = false := by
      intro action member
      exact Bool.eq_false_iff.mpr (List.any_eq_false.mp mutates action member)
    obtain ⟨kept, none⟩ := edit_headers_idle outcome.actions block idle
    rw [kept, none, Option.map_some, if_pos rfl, read_header_block_whole raw block body found]
    simp [applyMutationsBytes, applyMutations, mutates]
  | true =>
    simp only [applyMutationsBytes, applyMutations, mutates, found, noReplace]
    cases editHeaders outcome.actions block with
    | none => rfl
    | some headers =>
      by_cases none : outcome.actions.filterMap Action.enclosure = []
      · simp [none]
      · simp [none]

theorem apply_header_edits (boundaries : Nat → Bytes) (raw block body headers : Bytes)
    (outcome : Outcome)
    (found : readHeaderBlock raw = some (block, body))
    (edits : ∀ action ∈ outcome.actions, (action.adds || action.deletes) = true)
    (edited : editHeaders outcome.actions block = some headers) :
    applyMutationsBytes boundaries raw outcome = some (headers ++ body) := by
  have noReplace : outcome.actions.any Action.isReplace = false := by
    rw [List.any_eq_false]
    intro action member
    have own := edits action member
    cases action <;> first | exact Bool.false_ne_true | cases own
  have noEnclosure : outcome.actions.filterMap Action.enclosure = [] := by
    rw [List.filterMap_eq_nil_iff]
    intro action member
    have own := edits action member
    cases action <;> first | rfl | cases own
  rw [apply_without_replace boundaries raw block body outcome found noReplace, edited, noEnclosure,
    Option.map_some, if_pos rfl]

end Herold.Sieve

import Herold.Jmap.ChangeWalk

/-!
# Asking for changes until there are no more

A client that limits an answer asks again from the cutoff it was given. Its calls cut
the rows behind its state into windows, one window for each answer.
-/

namespace Herold.ChangeFeed

open Herold.Store Herold.Jmap

variable {Kind : Type}

theorem applied_answers {answers : List Walk} {windows : List (List (Entry Kind))}
    (folds : answers.map Walk.folded = windows.map (foldEntries · {})) (known : List Nat) :
    answers.foldl (fun held answer => applied held answer.folded) known = appliedAll known windows := by
  calc answers.foldl (fun held answer => applied held answer.folded) known
      = (answers.map Walk.folded).foldl applied known := by rw [List.foldl_map]
    _ = (windows.map (foldEntries · {})).foldl applied known := by rw [folds]
    _ = appliedAll known windows := by rw [List.foldl_map, appliedAll]

variable [DecidableEq Kind]

/-- The answers of the calls that start at a state and follow the cutoffs. -/
inductive Calls (call : Call Kind) (feed : Feed Kind) : Nat → List Walk → Prop where
  | last {since : Nat} (complete : (walkChanges { call with since := since } feed).hasMore = false) :
      Calls call feed since [walkChanges { call with since := since } feed]
  | more {since : Nat} {answers : List Walk}
      (trimmed : (walkChanges { call with since := since } feed).hasMore = true)
      (later : Calls call feed (walkChanges { call with since := since } feed).cutoff answers) :
      Calls call feed since (walkChanges { call with since := since } feed :: answers)

section Calls

variable (call : Call Kind) (feed : Feed Kind)

theorem trimmed_advances (trimmed : (walkChanges call feed).hasMore = true) :
    call.since < (walkChanges call feed).cutoff := by
  obtain ⟨taken, rest, walked⟩ := walk_changes_spec call feed
  exact (pending_after_cutoff walked (walked.started trimmed rfl)).1

/-- Each trimmed answer leaves fewer rows behind, so the calls come to an end, and
their answers are the folds of the windows they cut. -/
theorem calls_end (since : Nat) :
    ∃ (answers : List Walk) (windows : List (List (Entry Kind))), Calls call feed since answers ∧
      pending { call with since := since } feed = windows.flatten ∧
      answers.map Walk.folded = windows.map (foldEntries · {}) := by
  generalize left : (pending { call with since := since } feed).length = size
  induction size using Nat.strong_induction_on generalizing since with
  | _ size ih =>
    obtain ⟨taken, rest, walked⟩ := walk_changes_spec { call with since := since } feed
    by_cases trimmed : (walkChanges { call with since := since } feed).hasMore = true
    · have some := walked.started trimmed rfl
      have behind := (pending_after_cutoff walked some).2
      have fewer : rest.length < size := by
        have taking := List.length_pos_of_ne_nil some
        have lengths := congrArg List.length walked.split
        rw [List.length_append, left] at lengths
        omega
      obtain ⟨answers, windows, calls, split, folds⟩ :=
        ih rest.length fewer (walkChanges { call with since := since } feed).cutoff (by rw [← behind])
      refine ⟨_, taken :: windows, Calls.more trimmed calls, ?_, ?_⟩
      · rw [walked.split, List.flatten_cons, ← split, ← behind]
      · rw [List.map_cons, List.map_cons, folds, walked.folded]
    · have complete : (walkChanges { call with since := since } feed).hasMore = false := by
        simpa using trimmed
      refine ⟨_, [taken], Calls.last complete, ?_, ?_⟩
      · rw [walked.split, walked.ended complete]
        simp
      · rw [List.map_singleton, List.map_singleton, walked.folded]

theorem walk_without_limit (unlimited : call.maxChanges = 0) :
    (walkChanges call feed).folded = foldEntries (pending call feed) {} := by
  obtain ⟨taken, rest, walked⟩ := walk_changes_spec call feed
  have going : (walkChanges call feed).hasMore = false := by
    unfold walkChanges
    rw [walk_pages_eq call feed _ rfl]
    exact walk_batch_unlimited call unlimited _ _ rfl
  rw [walked.folded, walked.split, walked.ended going, List.append_nil]

end Calls

def callBySeq (principal : PrincipalID) (kind : Kind) (sinceSeq maxChanges : Nat) : Call Kind where
  principal := principal
  kind := kind
  encoding := .bySeq
  since := sinceSeq
  maxChanges := maxChanges

def walkChangesBySeq (feed : Feed Kind) (principal : PrincipalID) (kind : Kind)
    (sinceSeq maxChanges : Nat) : Walk :=
  walkChanges (callBySeq principal kind sinceSeq maxChanges) feed

def CallsBySeq (feed : Feed Kind) (principal : PrincipalID) (kind : Kind) (maxChanges : Nat) :
    Nat → List Walk → Prop :=
  Calls (callBySeq principal kind 0 maxChanges) feed

def rowsSince (feed : Feed Kind) (principal : PrincipalID) (kind : Kind) (sinceSeq : Nat) :
    List (Entry Kind) :=
  ofKind kind (entriesAfter feed principal true sinceSeq)

/-- Limiting the answers loses nothing: the calls come to an end, every trimmed one
moves the state forward and stays within the limit, and together they say what one
call without a limit says, which is all the rows say. -/
theorem paged_walk_loses_nothing (feed : Feed Kind) (principal : PrincipalID) (kind : Kind)
    (since maxChanges : Nat) (known : List Nat) (limited : 1 ≤ maxChanges)
    (once : OnceOnly (rowsSince feed principal kind since))
    (knownBefore : ∀ id ∈ known, ¬Says (rowsSince feed principal kind since) id .created) :
    (walkChangesBySeq feed principal kind since 0).folded =
        foldEntries (rowsSince feed principal kind since) {} ∧
      (∀ start, (walkChangesBySeq feed principal kind start maxChanges).hasMore = true →
        start < (walkChangesBySeq feed principal kind start maxChanges).cutoff) ∧
      (∀ start, (walkChangesBySeq feed principal kind start maxChanges).reported.card ≤ maxChanges) ∧
      ∃ answers, CallsBySeq feed principal kind maxChanges since answers ∧
        (∀ id, id ∈ answers.foldl (fun held answer => applied held answer.folded) known ↔
          id ∈ applied known (walkChangesBySeq feed principal kind since 0).folded) ∧
        ∀ id, id ∈ (walkChangesBySeq feed principal kind since 0).folded.created ∨
            id ∈ (walkChangesBySeq feed principal kind since 0).folded.updated →
          ¬Says (rowsSince feed principal kind since) id .destroyed →
          ∃ answer ∈ answers, id ∈ answer.folded.created ∨ id ∈ answer.folded.updated := by
  have whole : (walkChangesBySeq feed principal kind since 0).folded =
      foldEntries (rowsSince feed principal kind since) {} := walk_without_limit _ feed rfl
  refine ⟨whole, fun start trimmed => trimmed_advances _ feed trimmed,
    fun start => walk_changes_bounded (callBySeq principal kind start maxChanges) limited feed, ?_⟩
  obtain ⟨answers, windows, calls, split, folds⟩ := calls_end
    (callBySeq principal kind 0 maxChanges) feed since
  have cut : rowsSince feed principal kind since = windows.flatten := split
  refine ⟨answers, calls, ?_, ?_⟩
  · intro id
    rw [applied_answers folds, whole, cut]
    rw [cut] at once knownBefore
    have unknown : Says windows.flatten id .created → id ∉ known :=
      fun made held => knownBefore id held made
    rw [applied_windows once unknown, applied_window once unknown]
  · intro id told alive
    have about : ∃ op, Says (rowsSince feed principal kind since) id op := by
      rw [whole] at told
      exact says_of_reported told
    obtain ⟨op, about⟩ := about
    rw [cut] at about alive
    obtain ⟨window, among, reported⟩ := reported_in_window about alive
    have folded : foldEntries window {} ∈ answers.map Walk.folded := by
      rw [folds]
      exact List.mem_map_of_mem among
    obtain ⟨answer, listed, same⟩ := List.mem_map.mp folded
    exact ⟨answer, listed, by rw [same]; exact reported⟩

def mixedFeed : Feed Bool where
  rows :=
    [{ principalID := 1, seq := 1, kind := true, entityID := 4, op := .updated },
      { principalID := 1, seq := 2, kind := false, entityID := 4, op := .created },
      { principalID := 1, seq := 3, kind := true, entityID := 5, op := .created },
      { principalID := 1, seq := 4, kind := true, entityID := 4, op := .destroyed }]
  numbered := by decide

theorem mixed_feed_loses_nothing :
    ∃ answers, CallsBySeq mixedFeed 1 true 1 0 answers ∧
      ∀ id, id ∈ answers.foldl (fun held answer => applied held answer.folded) [4] ↔
        id ∈ applied [4] (walkChangesBySeq mixedFeed 1 true 0 0).folded := by
  have once : OnceOnly (rowsSince mixedFeed 1 true 0) := by
    unfold OnceOnly
    decide
  have before : ∀ id ∈ [4], ¬Says (rowsSince mixedFeed 1 true 0) id .created := by
    unfold Says
    decide
  obtain ⟨_, _, _, answers, calls, same, _⟩ :=
    paged_walk_loses_nothing mixedFeed 1 true 0 1 [4] (Nat.le_refl 1) once before
  exact ⟨answers, calls, same⟩

end Herold.ChangeFeed

import Herold.Sieve.Provenance
import Herold.Smtp.Forward

/-!
# Local delivery of one message to one recipient

`deliverOne` runs the recipient's filters and decides what becomes of the
message: which mailboxes it is filed into, which addresses it is redirected to,
or that it is dropped because the script says so. The model ends with that
decision. The body rewrites, the reaction shortcut and the insertion that follow
start from a list of mailboxes that is final.
-/

namespace Herold.Smtp

open Herold.Go Herold.Mail Herold.Store Herold.Queue Herold.Sieve

inductive Verdict where
  | unclassified
  | ham
  | spam
  | suspect
  deriving DecidableEq

def Verdict.token : Verdict → Bytes
  | ham => ascii "ham"
  | spam => ascii "spam"
  | suspect => ascii "suspect"
  | unclassified => ascii "unclassified"

structure TaggedFilterEffect where
  labelName : Bytes
  suppressImplicitKeep : Bool := false
  markSeen : Bool := false
  deriving DecidableEq

structure TaggedAddressFilter where
  labelName : Bytes
  action : Bytes
  deriving DecidableEq

/-- The effect of the row that the lookup found; a failed lookup found none. -/
def resolveTaggedAddress : Option TaggedAddressFilter → Option TaggedFilterEffect
  | none => none
  | some row =>
    if row.action = ascii "label" then some { labelName := row.labelName }
    else if row.action = ascii "label_archive" then
      some { labelName := row.labelName, suppressImplicitKeep := true }
    else if row.action = ascii "label_archive_read" then
      some { labelName := row.labelName, suppressImplicitKeep := true, markSeen := true }
    else none

def applyTaggedFilterPreSieve (effect : TaggedFilterEffect) (outcome : Outcome) : Outcome :=
  if effect.suppressImplicitKeep then { outcome with implicitKeep := false } else outcome

structure Arrival where
  recipient : Bytes
  /-- The row of the tagged-address filters that the recipient's suffix selects. -/
  taggedRow : Option TaggedAddressFilter
  sieveWired : Bool
  scriptText : Option Bytes
  message : Message
  finalBytes : Bytes
  verdict : Verdict
  spamLevel : Nat
  spamConfidence : Bytes
  clock : Moment
  forwarding : Forwarding
  attempts : Nat → Attempt

inductive SieveFailure where
  | load
  | parse (cause : ParseError)
  | eval (cause : EvalError)
  deriving DecidableEq

def Arrival.environment (arrival : Arrival) : Environment where
  recipient := arrival.recipient
  sender := arrival.forwarding.mailFrom
  spamLevel := arrival.spamLevel
  spamConfidence := arrival.spamConfidence
  spamVerdict := arrival.verdict.token
  limits := zeroLimits
  now := arrival.clock

/-- Load, parse and evaluate the recipient's script. Without one the message is
kept. -/
def runSieve (library : Library) (arrival : Arrival) : Except SieveFailure Outcome :=
  if !arrival.sieveWired then .ok {}
  else
    match arrival.scriptText with
    | none => .error .load
    | some text =>
      if trimSpace text = [] then .ok {}
      else
        match parse text with
        | .error cause => .error (.parse cause)
        | .ok script =>
          match evaluate library arrival.environment arrival.message script with
          | (outcome, .ok ()) => .ok outcome
          | (_, .error cause) => .error (.eval cause)

structure Resolution where
  targets : List Bytes := []
  redirects : List Bytes := []
  discarded : Bool := false
  rejected : Bool := false
  reason : Bytes := []
  implicitKeywords : List Bytes := []
  deriving DecidableEq

def containsFold (haystack : List Bytes) (needle : Bytes) : Bool :=
  haystack.any fun item => equalFold item needle

def addTarget (targets : List Bytes) (name : Bytes) : List Bytes :=
  if containsFold targets name then targets else targets ++ [name]

def implicitTarget (implicitKeep : Bool) (verdict : Verdict) : Resolution :=
  if !implicitKeep then {}
  else
    match verdict with
    | .spam => { targets := [ascii "Junk"] }
    | .suspect => { targets := [ascii "INBOX"], implicitKeywords := [ascii "$Junk"] }
    | _ => { targets := [ascii "INBOX"] }

def resolveAction (found : Resolution) : Sieve.Action → Resolution
  | .keep => { found with targets := addTarget found.targets (ascii "INBOX") }
  | .fileInto mailbox _ _ _ =>
    if mailbox = [] then found else { found with targets := addTarget found.targets mailbox }
  | .discard => { found with discarded := true }
  | .reject reason => { found with rejected := true, reason }
  | .redirect address _ =>
    if address = [] then found else { found with redirects := found.redirects ++ [address] }
  | _ => found

def resolveSieveTargets (outcome : Outcome) (verdict : Verdict) : Resolution :=
  outcome.actions.foldl resolveAction (implicitTarget outcome.implicitKeep verdict)

def Resolution.dropped (found : Resolution) : Bool := found.discarded && found.targets.isEmpty

/-- Add the label of the tagged-address filter, unless the script discards. -/
def addTaggedLabel (effect : Option TaggedFilterEffect) (found : Resolution) : Resolution :=
  match effect with
  | none => found
  | some effect =>
    if found.dropped then found
    else { found with targets := addTarget found.targets effect.labelName }

variable (hmac : Bytes → Bytes → Bytes)

def queueRedirects (arrival : Arrival) : Nat → List Bytes → Store → Bool × Store
  | _, [], store => (false, store)
  | index, address :: addresses, store =>
    let (accepted, next) :=
      queueForward hmac (arrival.attempts index) arrival.forwarding address arrival.finalBytes store
    let (later, final) := queueRedirects arrival (index + 1) addresses next
    (accepted || later, final)

structure Delivery where
  targets : List Bytes := []
  redirectQueued : Bool := false
  implicitKeywords : List Bytes := []
  deriving DecidableEq

def outcomeOrKeep : Except SieveFailure Outcome → Outcome
  | .ok outcome => outcome
  | .error _ => {}

def applyEffect (effect : Option TaggedFilterEffect) (outcome : Outcome) : Outcome :=
  match effect with
  | none => outcome
  | some effect => applyTaggedFilterPreSieve effect outcome

def resolve (library : Library) (arrival : Arrival) : Resolution :=
  let effect := resolveTaggedAddress arrival.taggedRow
  addTaggedLabel effect (resolveSieveTargets
    (applyEffect effect (outcomeOrKeep (runSieve library arrival))) arrival.verdict)

def deliverOne (library : Library) (arrival : Arrival) (store : Store) : Delivery × Store :=
  let found := resolve library arrival
  if found.rejected then ({}, store)
  else
    let (redirectQueued, next) := queueRedirects hmac arrival 0 found.redirects store
    let targets :=
      if found.targets = [] ∧ !found.discarded ∧ !redirectQueued then [ascii "INBOX"]
      else found.targets
    ({ targets, redirectQueued, implicitKeywords := found.implicitKeywords }, next)

def DroppedByScript (library : Library) (arrival : Arrival) : Prop :=
  ∃ text script outcome, arrival.sieveWired = true ∧ arrival.scriptText = some text ∧
    parse text = .ok script ∧
    evaluate library arrival.environment arrival.message script = (outcome, .ok ()) ∧
    ∃ action ∈ outcome.actions, (action = .discard ∨ ∃ reason, action = .reject reason) ∧
      ∃ command ∈ commandsWithin script.commands, command.kind = some action.recordedBy

def Resolution.drops (found : Resolution) : Bool := found.discarded || found.rejected

def dropsMessage : Sieve.Action → Bool
  | .discard => true
  | .reject _ => true
  | _ => false

theorem resolve_action_drops (found : Resolution) (action : Sieve.Action) :
    (resolveAction found action).drops = (found.drops || dropsMessage action) := by
  cases action with
  | discard => simp [resolveAction, Resolution.drops, dropsMessage]
  | reject reason => simp [resolveAction, Resolution.drops, dropsMessage]
  | fileInto mailbox mailboxId copy flag =>
    by_cases empty : mailbox = [] <;> simp [resolveAction, Resolution.drops, dropsMessage, empty]
  | redirect address copy =>
    by_cases empty : address = [] <;> simp [resolveAction, Resolution.drops, dropsMessage, empty]
  | _ => simp [resolveAction, Resolution.drops, dropsMessage]

theorem resolve_actions_drops (actions : List Sieve.Action) (found : Resolution) :
    (actions.foldl resolveAction found).drops = (found.drops || actions.any dropsMessage) := by
  induction actions generalizing found with
  | nil => simp
  | cons action actions ih =>
    rw [List.foldl_cons, ih, resolve_action_drops, List.any_cons, Bool.or_assoc]

theorem implicit_target_drops_nothing (implicitKeep : Bool) (verdict : Verdict) :
    (implicitTarget implicitKeep verdict).drops = false := by
  cases implicitKeep <;> cases verdict <;> rfl

theorem tagged_label_keeps_drops (effect : Option TaggedFilterEffect) (found : Resolution) :
    (addTaggedLabel effect found).drops = found.drops := by
  unfold addTaggedLabel
  split
  · rfl
  · split_ifs <;> rfl

theorem tagged_label_keeps_redirects (effect : Option TaggedFilterEffect) (found : Resolution) :
    (addTaggedLabel effect found).redirects = found.redirects := by
  unfold addTaggedLabel
  split
  · rfl
  · split_ifs <;> rfl

theorem effect_keeps_actions (effect : Option TaggedFilterEffect) (outcome : Outcome) :
    (applyEffect effect outcome).actions = outcome.actions := by
  unfold applyEffect
  split
  · rfl
  · unfold applyTaggedFilterPreSieve
    split_ifs <;> rfl

theorem resolve_drops (library : Library) (arrival : Arrival)
    (drops : (resolve library arrival).drops = true) :
    ∃ action ∈ (outcomeOrKeep (runSieve library arrival)).actions, dropsMessage action = true := by
  rw [resolve, tagged_label_keeps_drops, resolveSieveTargets, resolve_actions_drops,
    implicit_target_drops_nothing, effect_keeps_actions, Bool.false_or] at drops
  exact List.any_eq_true.mp drops

theorem run_sieve_actions (library : Library) (arrival : Arrival) (action : Sieve.Action)
    (member : action ∈ (outcomeOrKeep (runSieve library arrival)).actions) :
    ∃ text script outcome, arrival.sieveWired = true ∧ arrival.scriptText = some text ∧
      parse text = .ok script ∧
      evaluate library arrival.environment arrival.message script = (outcome, .ok ()) ∧
      action ∈ outcome.actions := by
  have keepIsEmpty : ¬action ∈ ({} : Outcome).actions := by simp
  unfold runSieve at member
  split at member
  · exact absurd member keepIsEmpty
  · rename_i wired
    split at member
    · exact absurd member keepIsEmpty
    · rename_i text stored
      split at member
      · exact absurd member keepIsEmpty
      · split at member
        · exact absurd member keepIsEmpty
        · rename_i script parsed
          split at member
          · rename_i outcome ran
            exact ⟨text, script, outcome, by simpa using wired, stored, parsed, ran, member⟩
          · exact absurd member keepIsEmpty

theorem dropped_by_script (library : Library) (arrival : Arrival)
    (drops : (resolve library arrival).drops = true) : DroppedByScript library arrival := by
  obtain ⟨action, member, dropping⟩ := resolve_drops library arrival drops
  obtain ⟨text, script, outcome, wired, stored, parsed, ran, recorded⟩ :=
    run_sieve_actions library arrival action member
  have commanded : ∃ command ∈ commandsWithin script.commands,
      command.kind = some action.recordedBy := by
    refine actions_come_from_commands library arrival.environment arrival.message script action ?_
    rw [ran]
    exact recorded
  refine ⟨text, script, outcome, wired, stored, parsed, ran, action, recorded, ?_, commanded⟩
  cases action with
  | discard => exact Or.inl rfl
  | reject reason => exact Or.inr ⟨reason, rfl⟩
  | _ => cases dropping

theorem queue_redirects_extends (arrival : Arrival) (index : Nat) (addresses : List Bytes)
    (store : Store) :
    ∃ added, Extends store (queueRedirects hmac arrival index addresses store).2 added ∧
      ((queueRedirects hmac arrival index addresses store).1 = true →
        ∃ row ∈ added, ∃ address ∈ addresses,
        row.rcptTo = storedAddress address ∧
          row.mailFrom = storedAddress (srsRewriteMailFrom hmac arrival.forwarding)) := by
  induction addresses generalizing index store with
  | nil => exact ⟨[], extends_refl store, by simp [queueRedirects]⟩
  | cons address addresses ih =>
    obtain ⟨here, grown, stored⟩ :=
      queue_forward_extends hmac (arrival.attempts index) arrival.forwarding address
        arrival.finalBytes store
    obtain ⟨later, grows, rest⟩ := ih (index + 1)
      (queueForward hmac (arrival.attempts index) arrival.forwarding address arrival.finalBytes store).2
    refine ⟨here ++ later, extends_trans _ _ _ here later grown grows, fun queued => ?_⟩
    rcases (Bool.or_eq_true ..).mp queued with first | others
    · obtain ⟨row, rfl, same, sender⟩ := stored first
      exact ⟨row, List.mem_cons_self, address, List.mem_cons_self, same, sender⟩
    · obtain ⟨row, member, other, listed, same⟩ := rest others
      exact ⟨row, List.mem_append_right _ member, other, List.mem_cons_of_mem _ listed, same⟩

theorem redirected_by_script (actions : List Sieve.Action) (found : Resolution) (address : Bytes)
    (listed : address ∈ (actions.foldl resolveAction found).redirects) :
    address ∈ found.redirects ∨ ∃ copy, .redirect address copy ∈ actions := by
  induction actions generalizing found with
  | nil => exact Or.inl listed
  | cons action actions ih =>
    rcases ih (resolveAction found action) listed with before | ⟨copy, later⟩
    · cases action with
      | redirect other copy =>
        by_cases empty : other = []
        · exact Or.inl (by simpa [resolveAction, empty] using before)
        · rcases List.mem_append.mp
            (by simpa only [resolveAction, if_neg empty] using before) with old | new
          · exact Or.inl old
          · rw [List.mem_singleton.mp new]
            exact Or.inr ⟨copy, List.mem_cons_self⟩
      | fileInto mailbox mailboxId copy flag =>
        by_cases empty : mailbox = []
        · exact Or.inl (by simpa [resolveAction, empty] using before)
        · exact Or.inl (by simpa [resolveAction, empty] using before)
      | _ => exact Or.inl (by simpa [resolveAction] using before)
    · exact Or.inr ⟨copy, List.mem_cons_of_mem _ later⟩

/-- The queue holds a new row for an address that the script redirected to. -/
def RedirectStored (library : Library) (arrival : Arrival) (start final : Store) : Prop :=
  ∃ row ∈ createdRows start final,
    row.mailFrom = storedAddress (srsRewriteMailFrom hmac arrival.forwarding) ∧
    ∃ address copy, row.rcptTo = storedAddress address ∧
      Sieve.Action.redirect address copy ∈ (outcomeOrKeep (runSieve library arrival)).actions

theorem resolved_redirects (library : Library) (arrival : Arrival) (address : Bytes)
    (listed : address ∈ (resolve library arrival).redirects) :
    ∃ copy, Sieve.Action.redirect address copy ∈
      (outcomeOrKeep (runSieve library arrival)).actions := by
  rw [← effect_keeps_actions (resolveTaggedAddress arrival.taggedRow)]
  set outcome := applyEffect (resolveTaggedAddress arrival.taggedRow)
    (outcomeOrKeep (runSieve library arrival))
  refine (redirected_by_script outcome.actions
    (implicitTarget outcome.implicitKeep arrival.verdict) address
    ?_).resolve_left ?_
  · rwa [resolve, tagged_label_keeps_redirects] at listed
  · unfold implicitTarget
    split_ifs
    · exact List.not_mem_nil
    · split <;> exact List.not_mem_nil

/-- Whatever the script, the message, the verdict and the tagged-address filter
are, the message has a mailbox to go to, or the queue holds a redirect of it, or
the script ran to its end and dropped it by an explicit command. -/
theorem delivery_never_loses_mail (library : Library) (arrival : Arrival) (store : Store) :
    (deliverOne hmac library arrival store).1.targets ≠ [] ∨
      ((deliverOne hmac library arrival store).1.redirectQueued = true ∧
        RedirectStored hmac library arrival store (deliverOne hmac library arrival store).2) ∨
        DroppedByScript library arrival := by
  by_cases drops : (resolve library arrival).drops = true
  · exact Or.inr (Or.inr (dropped_by_script library arrival drops))
  simp only [Resolution.drops, Bool.or_eq_true, not_or, Bool.not_eq_true] at drops
  -- nothing was dropped: without a target and without a redirect the inbox is the target
  by_cases queued : (queueRedirects hmac arrival 0 (resolve library arrival).redirects store).1 = true
  · refine Or.inr (Or.inl ⟨by simp [deliverOne, drops.2, queued], ?_⟩)
    have final : (deliverOne hmac library arrival store).2 =
        (queueRedirects hmac arrival 0 (resolve library arrival).redirects store).2 := by
      simp [deliverOne, drops.2]
    obtain ⟨added, grown, stored⟩ :=
      queue_redirects_extends hmac arrival 0 (resolve library arrival).redirects store
    obtain ⟨row, member, address, listed, same, sender⟩ := stored queued
    obtain ⟨copy, redirected⟩ := resolved_redirects library arrival address listed
    refine ⟨row, ?_, sender, address, copy, same, redirected⟩
    rwa [final, created_rows_of_extends store _ added grown]
  · refine Or.inl ?_
    by_cases targets : (resolve library arrival).targets = []
    · simp [deliverOne, drops.1, drops.2, targets, queued]
    · simp [deliverOne, drops.2, targets]

def redirectedToBob : Arrival where
  recipient := ascii "ann@fwd.example"
  taggedRow := none
  sieveWired := true
  scriptText := some (ascii "redirect \"bob@example.net\";")
  message := emptyMessage
  finalBytes := ascii "Subject: hi"
  verdict := .ham
  spamLevel := 0
  spamConfidence := []
  clock := ⟨2026, 1, 1, 0, 0, 0, 4⟩
  forwarding := aliceForwarded
  attempts := fun _ => attemptFailing fun _ => false

/-- A script that only redirects leaves a row in the queue and files nothing. -/
theorem redirect_to_bob_stored :
    RedirectStored zeroHmac emptyLibrary redirectedToBob Store.empty
      (deliverOne zeroHmac emptyLibrary redirectedToBob Store.empty).2 := by
  rcases delivery_never_loses_mail zeroHmac emptyLibrary redirectedToBob
    Store.empty with filed | stored | dropped
  · exact absurd (by decide +kernel) filed
  · exact stored.2
  · obtain ⟨text, script, outcome, _, stored, parsed, ran, action, member, dropping, _⟩ := dropped
    have quiet : (outcomeOrKeep (runSieve emptyLibrary redirectedToBob)).actions.all
        fun action => !dropsMessage action := by decide +kernel
    cases stored
    have evaluated : runSieve emptyLibrary redirectedToBob = .ok outcome := by
      have filled : trimSpace (ascii "redirect \"bob@example.net\";") ≠ [] := by decide +kernel
      simp only [runSieve, redirectedToBob, Bool.not_true, Bool.false_eq_true, if_false,
        if_neg filled, parsed]
      simp only [redirectedToBob] at ran
      rw [ran]
    rw [evaluated] at quiet
    have harmless := List.all_eq_true.mp quiet action member
    rcases dropping with rfl | ⟨reason, rfl⟩
    · cases harmless
    · cases harmless

end Herold.Smtp

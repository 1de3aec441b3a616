import Herold.Queue.Submit
import Herold.Smtp.Address
import Herold.Srs.Address

/-!
# Forwarding through the queue

`queueForward` re-injects a received message for an external target, with the
return-path rewritten into the forwarding domain.
-/

namespace Herold.Smtp

open Herold.Go Herold.Store Herold.Queue Herold.Srs

def unixSeconds (time : Micros) : Int := time / 1000000

def maxSieveRedirectHops : Nat := 25

/-- The header block: up to the first empty line in either line-ending form. -/
def headerBlock (raw : Bytes) : Bytes :=
  match cutFirst [13, 10, 13, 10] raw with
  | some (header, _) => header
  | none => match cutFirst [10, 10] raw with
    | some (header, _) => header
    | none => raw

def isReceivedLine (line : Bytes) : Bool :=
  match trimSuffix line [13] with
  | [] => false
  | first :: rest =>
    first ≠ 32 && first ≠ 9 && 9 ≤ (first :: rest).length &&
      equalFold ((first :: rest).take 9) (ascii "received:")

def countReceivedHeaders (raw : Bytes) : Nat :=
  (splitByte 10 (headerBlock raw)).countP isReceivedLine

/-- What the session and the server hold when a recipient is forwarded. -/
structure Forwarding where
  mailFrom : Bytes
  domain : Bytes
  queueWired : Bool
  /-- The signing secret, or nothing when the secrets cannot be loaded. -/
  signSecret : Option Bytes
  now : Micros

variable (hmac : Bytes → Bytes → Bytes)

def srsRewriteMailFrom (forwarding : Forwarding) : Bytes :=
  match splitAddress forwarding.mailFrom, forwarding.signSecret with
  | some (curLocal, curDomain), some signSecret =>
    wrap hmac signSecret (unixSeconds forwarding.now) curLocal curDomain ++ ascii "@" ++
      forwarding.domain
  | _, _ => forwarding.mailFrom

def dsnNotifyFailure : Nat := 4

def forwardSubmission (forwarding : Forwarding) (targetAddr finalBytes : Bytes) : Submission where
  mailFrom := srsRewriteMailFrom hmac forwarding
  recipients := [targetAddr]
  body := some finalBytes
  dsnNotify := dsnNotifyFailure

def queueForward (attempt : Attempt) (forwarding : Forwarding) (targetAddr finalBytes : Bytes)
    (store : Store) : Bool × Store :=
  if !forwarding.queueWired then (false, store)
  else if maxSieveRedirectHops ≤ countReceivedHeaders finalBytes then (false, store)
  else match submit attempt (forwardSubmission hmac forwarding targetAddr finalBytes) store with
    | (.ok _, next) => (true, next)
    | (.error _, next) => (false, next)

/-- The stored return-path has a local part that decodes to the sender. -/
def DecodesTo (secrets : List Bytes) (decodeAt : Micros) (stored : Bytes)
    (sender : Bytes × Bytes) : Prop :=
  ∃ localPart domain, splitAddress stored = some (localPart, domain) ∧
    isSRSAddress localPart = true ∧
      decode hmac secrets (unixSeconds decodeAt) maxAgeDefault localPart = .ok sender

theorem lower_s_head (rest : Bytes) : ∃ tail, toLower (83 :: rest) = 115 :: tail := by
  rw [to_lower_ascii_cons 83 rest (by decide)]
  exact ⟨toLower rest, by rfl⟩

theorem lower_s_head_again (rest : Bytes) : ∃ tail, toLower (115 :: rest) = 115 :: tail := by
  rw [to_lower_ascii_cons 115 rest (by decide)]
  exact ⟨toLower rest, by rfl⟩

/-- What both normalisations leave of an address that begins with a capital S
begins with a small one. -/
theorem stored_address_head (rest : Bytes) :
    ∃ tail, storedAddress (83 :: rest) = 115 :: tail := by
  obtain ⟨trimmed, trimmedIs⟩ := trim_space_keeps_head 83 rest (by decide) (by decide)
  obtain ⟨lowered, loweredIs⟩ := lower_s_head trimmed
  rw [storedAddress, trimmedIs, loweredIs]
  exact lower_s_head_again lowered

/-- The local part of an address that begins with a small s is no rewritten
address: the tags are upper case. -/
theorem small_head_not_srs (rest localPart domain : Bytes)
    (split : splitAddress (115 :: rest) = some (localPart, domain)) :
    isSRSAddress localPart = false := by
  obtain ⟨cut, nonempty⟩ := split_address_cut (115 :: rest) localPart domain split
  obtain ⟨trimmed, trimmedIs⟩ := trim_space_keeps_head 115 rest (by decide) (by decide)
  rw [trimmedIs] at cut
  have whole := cut_last_byte_splits 64 (115 :: trimmed) localPart domain cut
  by_contra tagged
  obtain ⟨tail, shape⟩ := srs_address_head localPart (by simpa using tagged)
  rw [shape, List.cons_append] at whole
  exact absurd (List.cons.inj whole).1 (by decide)

/-- Forwarding only adds to the queue, and one row when it says that it did. -/
theorem queue_forward_extends (attempt : Attempt) (forwarding : Forwarding)
    (targetAddr finalBytes : Bytes) (start : Store) :
    ∃ added, Extends start (queueForward hmac attempt forwarding targetAddr finalBytes start).2 added ∧
      ((queueForward hmac attempt forwarding targetAddr finalBytes start).1 = true →
        ∃ row, added = [row] ∧
        row.rcptTo = storedAddress targetAddr ∧
          row.mailFrom = storedAddress (srsRewriteMailFrom hmac forwarding)) := by
  obtain ⟨added, grown, alike⟩ :=
    submit_extends attempt (forwardSubmission hmac forwarding targetAddr finalBytes) start
  unfold queueForward
  split_ifs
  · exact ⟨[], extends_refl start, by simp⟩
  · exact ⟨[], extends_refl start, by simp⟩
  · split
    case h_1 envelope next ran =>
      rw [ran] at grown
      refine ⟨added, grown, fun _ => ?_⟩
      obtain ⟨addresses, _⟩ := submit_ok_creates attempt _ start next envelope ran
      rw [created_rows_of_extends start next added grown] at addresses
      have one : added.length = 1 := by
        have lengths := congrArg List.length addresses
        simpa [forwardSubmission] using lengths
      obtain ⟨row, rfl⟩ := List.length_eq_one_iff.mp one
      obtain ⟨listed, sender⟩ := alike row (List.mem_singleton_self row)
      exact ⟨row, rfl, List.mem_singleton.mp listed, sender⟩
    case h_2 cause next ran =>
      rw [ran] at grown
      exact ⟨added, grown, by simp⟩

/-- The return-path of a forwarded message never survives the queue: whatever
the sender, the secrets and the time, the stored row does not decode. -/
theorem forwarded_return_path_never_decodes (attempt : Attempt) (forwarding : Forwarding)
    (targetAddr finalBytes : Bytes) (start final : Store) (sender : Bytes × Bytes)
    (signSecret : Bytes) (secrets : List Bytes) (decodeAt : Micros)
    (sent : splitAddress forwarding.mailFrom = some sender)
    (signs : forwarding.signSecret = some signSecret)
    (forwarded : queueForward hmac attempt forwarding targetAddr finalBytes start =
      (true, final)) :
    ∃ row, createdRows start final = [row] ∧
      ¬DecodesTo hmac secrets decodeAt row.mailFrom sender := by
  obtain ⟨added, grown, stored⟩ :=
    queue_forward_extends hmac attempt forwarding targetAddr finalBytes start
  rw [forwarded] at grown stored
  obtain ⟨row, rfl, _, mailFrom⟩ := stored rfl
  refine ⟨row, created_rows_of_extends start final [row] grown, ?_⟩
  rintro ⟨localPart, domain, split, tagged, _⟩
  obtain ⟨rest, wrapped⟩ :=
    wrap_head hmac signSecret (unixSeconds forwarding.now) sender.1 sender.2
  have rewritten : srsRewriteMailFrom hmac forwarding =
      83 :: (rest ++ ascii "@" ++ forwarding.domain) := by
    simp only [srsRewriteMailFrom, sent, signs]
    rw [show wrap hmac signSecret (unixSeconds forwarding.now) sender.1 sender.2 = 83 :: rest
      from wrapped]
    rfl
  obtain ⟨tail, stored⟩ := stored_address_head (rest ++ ascii "@" ++ forwarding.domain)
  rw [mailFrom, rewritten, stored] at split
  rw [small_head_not_srs tail localPart domain split] at tagged
  cases tagged

def zeroHmac (_ _ : Bytes) : Bytes := List.replicate 20 0

def aliceForwarded : Forwarding where
  mailFrom := ascii "alice@example.org"
  domain := ascii "fwd.example"
  queueWired := true
  signSecret := some [1]
  now := 0

def aliceForward : Bool × Store :=
  queueForward zeroHmac (attemptFailing fun _ => false) aliceForwarded (ascii "bob@example.net")
    (ascii "Subject: hi") Store.empty

/-- Before the queue the return-path of the example decodes to the sender;
stored in lower case it no longer does. -/
theorem forwarded_alice_does_not_decode :
    DecodesTo zeroHmac [[1]] 0 (srsRewriteMailFrom zeroHmac aliceForwarded)
        (ascii "alice", ascii "example.org") ∧
      aliceForward.1 = true ∧
        ∃ row, createdRows Store.empty aliceForward.2 = [row] ∧
          row.mailFrom = ascii "srs0=aaaa=aa=example.org=alice@fwd.example" ∧
            ¬DecodesTo zeroHmac [[1]] 0 row.mailFrom (ascii "alice", ascii "example.org") := by
  refine ⟨⟨ascii "SRS0=AAAA=AA=example.org=alice", ascii "fwd.example", ?_, ?_, ?_⟩, ?_, ?_⟩
  · decide +kernel
  · decide +kernel
  · decide +kernel
  · decide +kernel
  · refine ⟨_, rfl, by decide +kernel, ?_⟩
    rintro ⟨localPart, domain, split, tagged, _⟩
    have stored : storedAddress (srsRewriteMailFrom zeroHmac aliceForwarded) =
        115 :: ascii "rs0=aaaa=aa=example.org=alice@fwd.example" := by decide +kernel
    have split : splitAddress (storedAddress (srsRewriteMailFrom zeroHmac aliceForwarded)) =
      some (localPart, domain) := split
    rw [stored] at split
    rw [small_head_not_srs _ localPart domain split] at tagged
    cases tagged

theorem forwarded_return_path_never_decodes_for_alice :
    ∃ row, createdRows Store.empty aliceForward.2 = [row] ∧
      ¬DecodesTo zeroHmac [[1]] 0 row.mailFrom (ascii "alice", ascii "example.org") := by
  have forwarded : aliceForward = (true, aliceForward.2) :=
    Prod.ext (by decide +kernel) rfl
  exact forwarded_return_path_never_decodes zeroHmac (attemptFailing fun _ => false)
    aliceForwarded (ascii "bob@example.net") (ascii "Subject: hi") Store.empty aliceForward.2
    (ascii "alice", ascii "example.org") [1] [[1]] 0 (by decide +kernel) rfl forwarded

end Herold.Smtp

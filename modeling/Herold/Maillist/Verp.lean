import Herold.Maillist.Token
import Herold.Queue.Submit
import Herold.Smtp.Address

/-!
# Bounce addresses of mailing lists

Every fan-out copy leaves with an envelope sender that names the member in a
sealed token. The copy is stored by the queue before it is sent, and a bounce
comes back to the stored address.
-/

namespace Herold.Maillist

open Herold.Go Herold.Store Herold.Queue Herold.Secrets Herold.Smtp

/-- `NormalizeMailingListAddress`: the address and its domain. -/
def normalizeMailingListAddress (addr : Bytes) : Option (Bytes × Bytes) :=
  let addr := toLower (trimSpace addr)
  match cutLastByte 64 addr with
  | some (localPart, domain) =>
    if localPart = [] ∨ domain = [] then none else some (addr, domain)
  | none => none

/-- A list as the store keeps it: its address passed the normalisation, which
also fixed the domain. -/
structure MailingList where
  id : Nat
  postingAddress : Bytes
  domain : Bytes
  normalised : ∃ addr, normalizeMailingListAddress addr = some (postingAddress, domain)

def listLocalPart (ml : MailingList) : Bytes :=
  match cutFirstByte 64 ml.postingAddress with
  | some (localPart, _) => localPart
  | none => ml.postingAddress

def bounceTag : Bytes := ascii "+bounce"

def bounceTokenSep : Bytes := ascii "-"

def verpBounceAddress (aead : Aead) (nonce : Option Bytes) (key : Bytes) (ml : MailingList)
    (memberID : Nat) : Option Bytes :=
  (sign aead nonce key .verp ml.id memberID none).map fun token =>
    listLocalPart ml ++ bounceTag ++ bounceTokenSep ++ token ++ ascii "@" ++ ml.domain

def parseVERPBounceLocalPart (localPart : Bytes) : Option (Bytes × Bytes) :=
  match cutFirst (bounceTag ++ bounceTokenSep) localPart with
  | some (base, token) => if base = [] ∨ token = [] then none else some (base, token)
  | none => none

/-- The stored sender leads a bounce back to the member of the list. -/
def Attributes (aead : Aead) (key : Bytes) (ml : MailingList) (memberID : Nat) (stored : Bytes) :
    Prop :=
  ∃ localPart domain token, splitAddress stored = some (localPart, domain) ∧
    parseVERPBounceLocalPart localPart = some (listLocalPart ml, token) ∧
      ∀ now, verify aead key .verp ml.id token now = some memberID

def mintedHead : Bytes := ascii "+bounce-djE6"

def loweredHead : Bytes := ascii "+bounce-dje6"

theorem to_lower_keeps_shape (before head token after : Bytes)
    (headSmall : ∀ byte ∈ head, byte < 0x80)
    (nonempty : head ≠ []) (lowered : toLower head = loweredHead) :
    toLower (before ++ head ++ (token ++ ascii "@" ++ after)) =
      toLower before ++ loweredHead ++ (toLower token ++ ascii "@" ++ toLower after) := by
  rw [to_lower_around_ascii before head _ nonempty headSmall, lowered,
    to_lower_around_ascii token (ascii "@") after (by decide) (by decide +kernel)]
  rfl

theorem trim_space_keeps_shape (before head token after : Bytes)
    (known : head = mintedHead ∨ head = loweredHead)
    (tokenSmall : ∀ byte ∈ token, byte < 0x80) :
    ∃ left right, trimSpace (before ++ head ++ (token ++ ascii "@" ++ after)) =
      left ++ head ++ (token ++ ascii "@" ++ right) := by
  obtain ⟨core, headIs, coreSmall⟩ : ∃ core, head = 43 :: core ∧ ∀ byte ∈ core, byte < 0x80 := by
    rcases known with rfl | rfl
    · exact ⟨ascii "bounce-djE6", rfl, by decide +kernel⟩
    · exact ⟨ascii "bounce-dje6", rfl, by decide +kernel⟩
  have small : ∀ byte ∈ core ++ token, byte < 0x80 := by
    intro byte member
    rcases List.mem_append.mp member with inCore | inToken
    · exact coreSmall byte inCore
    · exact tokenSmall byte inToken
  obtain ⟨left, right, trimmed⟩ := trim_space_around_ascii before 43 64 (core ++ token) after
    (by decide) small (by decide) (by decide) (by decide)
  refine ⟨left, right, ?_⟩
  rw [headIs]
  simpa [ascii] using trimmed

theorem stored_verp_shape (before token after : Bytes) (tokenSmall : ∀ byte ∈ token, byte < 0x80) :
    ∃ left lowered right, storedAddress (before ++ mintedHead ++ (token ++ ascii "@" ++ after)) =
      left ++ loweredHead ++ (lowered ++ ascii "@" ++ right) ∧
        ∀ byte ∈ lowered, byte < 0x80 := by
  obtain ⟨left, right, trimmed⟩ :=
    trim_space_keeps_shape before mintedHead token after (Or.inl rfl) tokenSmall
  refine ⟨toLower (toLower left), toLower (toLower token), toLower (toLower right), ?_, ?_⟩
  · rw [storedAddress, trimmed,
      to_lower_keeps_shape left mintedHead token right (by decide +kernel) (by decide)
        (by decide +kernel),
      to_lower_keeps_shape _ loweredHead _ _ (by decide +kernel) (by decide) (by decide +kernel)]
  · exact to_lower_ascii _ (to_lower_ascii token tokenSmall)

theorem lowered_verp_never_attributes (aead : Aead) (key : Bytes) (ml : MailingList)
    (memberID : Nat) (left lowered right : Bytes) (loweredSmall : ∀ byte ∈ lowered, byte < 0x80) :
    ¬Attributes aead key ml memberID (left ++ loweredHead ++ (lowered ++ ascii "@" ++ right)) := by
  rintro ⟨localPart, domain, token, split, parsed, verified⟩
  obtain ⟨cut, _⟩ := split_address_cut _ localPart domain split
  obtain ⟨before, after, trimmed⟩ :=
    trim_space_keeps_shape left loweredHead lowered right (Or.inr rfl) loweredSmall
  rw [trimmed, show before ++ loweredHead ++ (lowered ++ ascii "@" ++ after) =
    (before ++ loweredHead ++ lowered) ++ 64 :: after by simp [ascii]] at cut
  obtain ⟨extra, localIs⟩ := cut_last_byte_extends 64 _ after localPart domain cut
  have shape : localPart =
      before ++ (43 :: ascii "bounce-") ++ (ascii "dje6" ++ (lowered ++ extra)) := by
    rw [localIs]
    simp [loweredHead, ascii]
  unfold parseVERPBounceLocalPart at parsed
  split at parsed
  case h_2 => cases parsed
  case h_1 base cutToken marker =>
    split_ifs at parsed
    simp only [Option.some.injEq, Prod.mk.injEq] at parsed
    obtain ⟨_, rfl⟩ := parsed
    rw [shape] at marker
    rcases cut_first_marker 43 (ascii "bounce-") before _ base cutToken (by decide) marker with
      whole | plus
    · have refused := verify_rejects_lowered aead key .verp ml.id (lowered ++ extra) 0
      rw [← whole, verified 0] at refused
      cases refused
    · have refused := verify_rejects_plus aead key .verp ml.id cutToken 0 plus
      rw [verified 0] at refused
      cases refused

/-- The bounce address of a member never survives the queue: whatever the list,
the member and the seal, no stored row leads back to the member. -/
theorem stored_verp_address_never_attributes (aead : Aead) (nonce : Option Bytes) (key : Bytes)
    (ml : MailingList) (memberID : Nat) (attempt : Attempt) (submission : Submission)
    (start final : Store) (envelope : Bytes)
    (minted : verpBounceAddress aead nonce key ml memberID = some submission.mailFrom)
    (submitted : submit attempt submission start = (.ok envelope, final)) :
    (createdRows start final).length = submission.recipients.length ∧
      ∀ row ∈ createdRows start final, ¬Attributes aead key ml memberID row.mailFrom := by
  obtain ⟨addresses, senders⟩ := submit_ok_creates attempt submission start final envelope submitted
  refine ⟨by simpa using congrArg List.length addresses, ?_⟩
  intro row member
  unfold verpBounceAddress at minted
  obtain ⟨token, signed, address⟩ := Option.map_eq_some_iff.mp minted
  obtain ⟨rest, tokenIs, restSmall⟩ := sign_head aead nonce key .verp ml.id memberID none token signed
  have shape : submission.mailFrom =
      listLocalPart ml ++ mintedHead ++ (rest ++ ascii "@" ++ ml.domain) := by
    rw [← address, tokenIs]
    simp [bounceTag, bounceTokenSep, mintedHead, ascii]
  obtain ⟨left, lowered, right, stored, loweredSmall⟩ :=
    stored_verp_shape (listLocalPart ml) rest ml.domain restSmall
  rw [senders row member, shape, stored]
  exact lowered_verp_never_attributes aead key ml memberID left lowered right loweredSmall

def plainAead : Aead where
  sealWith _ _ text := text ++ List.replicate 16 0
  openWith _ _ text :=
    if (List.replicate 16 0).isSuffixOf text then some (text.take (text.length - 16)) else none

def teamKey : Bytes := List.replicate 32 7

def teamList : MailingList where
  id := 3
  postingAddress := ascii "team@lists.example"
  domain := ascii "lists.example"
  normalised := ⟨ascii "team@lists.example", by decide +kernel⟩

def teamSubmission : Submission where
  mailFrom := (verpBounceAddress plainAead (some (List.replicate 12 0)) teamKey teamList 5).getD []
  recipients := [ascii "member@example.net"]

def teamSubmit : Except SubmitError Bytes × Store :=
  submit (attemptFailing fun _ => false) teamSubmission Store.empty

def teamToken : Bytes := ascii
    "djE6AAAAAAAAAAAAAAAAAQAAAAAAAAADAAAAAAAAAAUAAAAAAAAAAAAAAAAAAAAAAAAAAAAAAAA"

theorem team_token_verifies (now : Int) :
    verify plainAead teamKey .verp teamList.id teamToken now = some 5 := by
  have decoded : rawURLDecodeStrict teamToken = some (versionTag ++ List.replicate 12 0 ++
      encodeTokenPayload ⟨1, 3, 5, none⟩ ++ List.replicate 16 0) := by
    rw [teamToken, ascii_of_list]
    decide +kernel
  have opened : secretsOpen plainAead teamKey (versionTag ++ List.replicate 12 0 ++
      encodeTokenPayload ⟨1, 3, 5, none⟩ ++ List.replicate 16 0) =
      some (encodeTokenPayload ⟨1, 3, 5, none⟩) := by decide +kernel
  have payload : decodeTokenPayload (encodeTokenPayload ⟨1, 3, 5, none⟩) =
      some ⟨1, 3, 5, none⟩ := by decide +kernel
  simp only [verify, decoded, opened, payload]
  rfl

/-- As minted, the address of the example leads back to member 5; the row the
queue stores does not. -/
theorem stored_team_address_does_not_attribute :
    Attributes plainAead teamKey teamList 5 teamSubmission.mailFrom ∧
      ∃ row, createdRows Store.empty teamSubmit.2 = [row] ∧
        ¬Attributes plainAead teamKey teamList 5 row.mailFrom := by
  refine ⟨⟨ascii "team+bounce-" ++ teamToken, ascii "lists.example", teamToken, ?_, ?_,
    team_token_verifies⟩, _, rfl, ?_⟩
  · rw [teamToken, ascii_of_list]
    decide +kernel
  · rw [teamToken, ascii_of_list]
    decide +kernel
  · have stored : storedAddress teamSubmission.mailFrom = ascii "team" ++ loweredHead ++
        (toLower (teamToken.drop 4) ++ ascii "@" ++ ascii "lists.example") := by
      rw [teamToken, ascii_of_list]
      decide +kernel
    show ¬Attributes plainAead teamKey teamList 5 (storedAddress teamSubmission.mailFrom)
    rw [stored]
    exact lowered_verp_never_attributes plainAead teamKey teamList 5 _ _ _ (by decide +kernel)

theorem stored_verp_address_never_attributes_for_team :
    (createdRows Store.empty teamSubmit.2).length = 1 ∧
      ∀ row ∈ createdRows Store.empty teamSubmit.2,
        ¬Attributes plainAead teamKey teamList 5 row.mailFrom := by
  have minted : (verpBounceAddress plainAead (some (List.replicate 12 0)) teamKey teamList
    5).isSome = true := by
    decide +kernel
  obtain ⟨address, found⟩ := Option.isSome_iff_exists.mp minted
  have sender : teamSubmission.mailFrom = address := by rw [teamSubmission, found, Option.getD_some]
  exact stored_verp_address_never_attributes plainAead (some (List.replicate 12 0)) teamKey teamList 5
    (attemptFailing fun _ => false) teamSubmission Store.empty teamSubmit.2 (ascii "e")
    (by rw [found, sender]) rfl

end Herold.Maillist

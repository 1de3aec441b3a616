import Mathlib.Algebra.Ring.Int.Defs
import Mathlib.Algebra.Ring.Nat
import Herold.Go.Base64
import Herold.Go.Strings

/-!
# Sealed secrets and member tokens

`internal/secrets` wraps the AEAD with a version tag and a random nonce, and
`internal/maillist` seals a fixed-width payload with it and writes the result in
URL-safe base64. The AEAD itself is a parameter.
-/

namespace Herold.Secrets

open Herold.Go

structure Aead where
  sealWith : Bytes → Bytes → Bytes → Bytes
  openWith : Bytes → Bytes → Bytes → Option Bytes

def versionTag : Bytes := ascii "v1:"

def keySize : Nat := 32

def nonceSize : Nat := 12

/-- `Seal`, with what the random source delivered as the nonce. -/
def secretsSeal (aead : Aead) (nonce : Option Bytes) (key plaintext : Bytes) : Option Bytes :=
  if key.length ≠ keySize then none
  else nonce.map fun nonce => versionTag ++ nonce ++ aead.sealWith key nonce plaintext

def secretsOpen (aead : Aead) (key sealed : Bytes) : Option Bytes :=
  if key.length ≠ keySize then none
  else if !hasPrefix sealed versionTag then none
  else
    let rest := sealed.drop versionTag.length
    if rest.length < nonceSize then none
    else aead.openWith key (rest.take nonceSize) (rest.drop nonceSize)

theorem seal_tagged (aead : Aead) (nonce : Option Bytes) (key plaintext sealed : Bytes)
    (result : secretsSeal aead nonce key plaintext = some sealed) :
    ∃ rest, sealed = versionTag ++ rest := by
  unfold secretsSeal at result
  split_ifs at result
  obtain ⟨nonce, _, rfl⟩ := Option.map_eq_some_iff.mp result
  exact ⟨nonce ++ aead.sealWith key nonce plaintext, by rw [List.append_assoc]⟩

theorem open_untagged (aead : Aead) (key sealed : Bytes)
    (untagged : hasPrefix sealed versionTag = false) : secretsOpen aead key sealed = none := by
  simp [secretsOpen, untagged]

end Herold.Secrets

namespace Herold.Maillist

open Herold.Go Herold.Secrets

inductive TokenPurpose where
  | unset
  | verp
  | unsubscribe
  | manage
  | confirm
  deriving DecidableEq

def TokenPurpose.code : TokenPurpose → UInt8
  | unset => 0
  | verp => 1
  | unsubscribe => 2
  | manage => 3
  | confirm => 4

def bigEndian64 (value : Nat) : Bytes :=
  [56, 48, 40, 32, 24, 16, 8, 0].map fun shift => UInt8.ofNat (value / 2 ^ shift)

def fromBigEndian (bytes : Bytes) : Nat := bytes.foldl (fun sofar byte => sofar * 256 + byte.toNat) 0

/-- An `int64` conversion of a 64-bit pattern. -/
def toInt64 (value : Nat) : Int :=
  if value < 2 ^ 63 then value else (value : Int) - 2 ^ 64

structure TokenPayload where
  purpose : UInt8
  listID : Nat
  memberID : Nat
  expiresAt : Option Int
  deriving DecidableEq

def tokenPayloadLen : Nat := 1 + 8 + 8 + 8

def encodeTokenPayload (payload : TokenPayload) : Bytes :=
  payload.purpose :: (bigEndian64 payload.listID ++ bigEndian64 payload.memberID ++
    bigEndian64 (((payload.expiresAt.getD 0) % 2 ^ 64).toNat))

def decodeTokenPayload (buf : Bytes) : Option TokenPayload :=
  if buf.length ≠ tokenPayloadLen then none
  else
    let expiry := fromBigEndian ((buf.drop 17).take 8)
    some
      { purpose := buf.headD 0
        listID := fromBigEndian ((buf.drop 1).take 8)
        memberID := fromBigEndian ((buf.drop 9).take 8)
        expiresAt := if expiry = 0 then none else some (toInt64 expiry) }

def sign (aead : Aead) (nonce : Option Bytes) (key : Bytes) (purpose : TokenPurpose)
    (listID memberID : Nat) (expiresAt : Option Int) : Option Bytes :=
  if purpose = .unset then none
  else
    let payload := { purpose := purpose.code, listID, memberID, expiresAt }
    (secretsSeal aead nonce key (encodeTokenPayload payload)).map rawURLEncode

/-- `TokenSigner.Verify`, at a time in microseconds. -/
def verify (aead : Aead) (key : Bytes) (purpose : TokenPurpose) (listID : Nat) (token : Bytes)
    (now : Int) : Option Nat :=
  if purpose = .unset then none
  else match rawURLDecodeStrict token with
    | none => none
    | some sealed => match secretsOpen aead key sealed with
      | none => none
      | some plain => match decodeTokenPayload plain with
        | none => none
        | some payload =>
          if payload.purpose ≠ purpose.code ∨ payload.listID ≠ listID then none
          else if payload.expiresAt.any fun expiry => expiry * 1000000 < now then none
          else some payload.memberID

theorem sign_head (aead : Aead) (nonce : Option Bytes) (key : Bytes) (purpose : TokenPurpose)
    (listID memberID : Nat) (expiresAt : Option Int) (token : Bytes)
    (signed : sign aead nonce key purpose listID memberID expiresAt = some token) :
    ∃ rest, token = ascii "djE6" ++ rest ∧ ∀ char ∈ rest, char < 0x80 := by
  unfold sign at signed
  split_ifs at signed
  obtain ⟨sealed, isSealed, rfl⟩ := Option.map_eq_some_iff.mp signed
  obtain ⟨rest, rfl⟩ := seal_tagged aead nonce key _ sealed isSealed
  exact ⟨rawURLEncode rest, rfl, raw_url_encode_ascii rest⟩

/-- A token that starts with the lower-cased tag is refused by the version
check, before the AEAD sees it. -/
theorem verify_rejects_lowered (aead : Aead) (key : Bytes) (purpose : TokenPurpose) (listID : Nat)
    (rest : Bytes) (now : Int) :
    verify aead key purpose listID (ascii "dje6" ++ rest) now = none := by
  unfold verify
  split_ifs with unset
  · rfl
  cases decoded : rawURLDecodeStrict (ascii "dje6" ++ rest) with
  | none => rfl
  | some sealed =>
    have quanta : decodeQuanta (100 :: 106 :: 101 :: 54 ::
        rest.filter fun byte => !isLineBreak byte) = some sealed := decoded
    obtain ⟨tail, rfl⟩ := decode_quanta_head 100 106 101 54 _ sealed 29 35 30 58
      (by decide) (by decide) (by decide) (by decide) quanta
    have untagged : hasPrefix (UInt8.ofNat (29 * 4 + 35 / 16) ::
        UInt8.ofNat (35 % 16 * 16 + 30 / 4) :: UInt8.ofNat (30 % 4 * 64 + 58) :: tail)
        versionTag = false := by
      simp [hasPrefix, versionTag, ascii, List.isPrefixOf]
    simp only [open_untagged aead key _ untagged]

theorem verify_rejects_plus (aead : Aead) (key : Bytes) (purpose : TokenPurpose) (listID : Nat)
    (token : Bytes) (now : Int) (plus : 43 ∈ token) :
    verify aead key purpose listID token now = none := by
  unfold verify
  split_ifs with unset
  · rfl
  cases decoded : rawURLDecodeStrict token with
  | none => rfl
  | some sealed =>
    have letter := raw_url_decode_alphabet token sealed decoded 43 plus (by decide)
    exact absurd letter (by decide)

end Herold.Maillist

import Herold.Go.Base64
import Herold.Go.Strings

/-!
# Sender rewriting

The codec of `internal/srs`. The keyed hash is a parameter of the secret and
the text; times are Unix seconds.
-/

namespace Herold.Srs

open Herold.Go

/-- `MaxAgeDefault`, in seconds. -/
def maxAgeDefault : Int := 21 * 24 * 3600

def tsBase : Int := 1024

def srs0Tag : Bytes := ascii "SRS0="

def srs1Tag : Bytes := ascii "SRS1="

inductive SrsError where
  | notSRS
  | malformed
  | tamper
  | stale
  deriving DecidableEq

def b32Alphabet : Bytes := ascii "ABCDEFGHIJKLMNOPQRSTUVWXYZ234567"

def dayCounter (seconds : Int) : Int := (seconds.tdiv 86400).tmod tsBase

def encodeTimestamp (seconds : Int) : Bytes :=
  let days := if dayCounter seconds < 0 then dayCounter seconds + tsBase else dayCounter seconds
  [b32Alphabet.getD (days / 32).toNat 0, b32Alphabet.getD (days % 32).toNat 0]

def decodeTimestamp : Bytes → Option Int
  | [high, low] =>
    match b32Alphabet.findIdx? (fun letter => letter = high),
        b32Alphabet.findIdx? fun letter => letter = low with
    | some high, some low => some (high * 32 + low)
    | _, _ => none
  | _ => none

def isFresh (dayThen dayNow maxAge : Int) : Bool :=
  (dayNow - dayThen + tsBase).tmod tsBase ≤ maxAge.tdiv 86400

section Keyed

variable (hmac : Bytes → Bytes → Bytes)

def hash4 (secret text : Bytes) : Bytes := (rawURLEncode (hmac secret text)).take 4

def verifyHash4 (secrets : List Bytes) (want text : Bytes) : Bool :=
  secrets.any fun secret => hash4 hmac secret text = want

def isSRSAddress (localPart : Bytes) : Bool :=
  hasPrefix localPart srs0Tag || hasPrefix localPart srs1Tag

/-- The text an SRS0 hash covers: the parts joined with equals signs. -/
def signedSRS0 (ts origDomain origLocal : Bytes) : Bytes :=
  ts ++ ascii "=" ++ origDomain ++ ascii "=" ++ origLocal

def encodeSRS0 (signSecret : Bytes) (now : Int) (origLocal origDomain : Bytes) : Bytes :=
  let ts := encodeTimestamp now
  let hash := hash4 hmac signSecret (signedSRS0 ts origDomain origLocal)
  srs0Tag ++ hash ++ ascii "=" ++ ts ++ ascii "=" ++ origDomain ++ ascii "=" ++ origLocal

def encodeSRS1 (signSecret prevLocal prevDomain : Bytes) : Bytes :=
  let hash := hash4 hmac signSecret (prevDomain ++ ascii "==" ++ prevLocal)
  srs1Tag ++ hash ++ ascii "=" ++ prevDomain ++ ascii "==" ++ prevLocal

def wrap (signSecret : Bytes) (now : Int) (curLocal curDomain : Bytes) : Bytes :=
  if isSRSAddress curLocal then encodeSRS1 hmac signSecret curLocal curDomain
  else encodeSRS0 hmac signSecret now curLocal curDomain

def decodeSRS0 (secrets : List Bytes) (now maxAge : Int) (localPart : Bytes) :
    Except SrsError (Bytes × Bytes) :=
  match splitN 61 4 (trimPrefix localPart srs0Tag) with
  | [hash, ts, origDomain, origLocal] =>
    if origDomain = [] ∨ origLocal = [] then .error .malformed
    else if !verifyHash4 hmac secrets hash (signedSRS0 ts origDomain origLocal) then
      .error .tamper
    else match decodeTimestamp ts with
      | none => .error .malformed
      | some dayThen =>
        if isFresh dayThen (dayCounter now) maxAge then .ok (origLocal, origDomain)
        else .error .stale
  | _ => .error .malformed

def decodeSRS1 (secrets : List Bytes) (localPart : Bytes) : Except SrsError (Bytes × Bytes) :=
  match cutFirstByte 61 (trimPrefix localPart srs1Tag) with
  | none => .error .malformed
  | some (hash, rest) => match cutFirst (ascii "==") rest with
    | none => .error .malformed
    | some (prevDomain, prevLocal) =>
      if prevDomain = [] ∨ prevLocal = [] then .error .malformed
      else if !verifyHash4 hmac secrets hash (prevDomain ++ ascii "==" ++ prevLocal) then
        .error .tamper
      else .ok (prevLocal, prevDomain)

def decode (secrets : List Bytes) (now maxAge : Int) (localPart : Bytes) :
    Except SrsError (Bytes × Bytes) :=
  if hasPrefix localPart srs0Tag then decodeSRS0 hmac secrets now maxAge localPart
  else if hasPrefix localPart srs1Tag then decodeSRS1 hmac secrets localPart
  else .error .notSRS

theorem wrap_head (signSecret : Bytes) (now : Int) (curLocal curDomain : Bytes) :
    ∃ rest, wrap hmac signSecret now curLocal curDomain = 83 :: rest := by
  unfold wrap
  split
  · exact ⟨_, rfl⟩
  · exact ⟨_, rfl⟩

end Keyed

theorem srs_address_head (localPart : Bytes) (tagged : isSRSAddress localPart = true) :
    ∃ rest, localPart = 83 :: rest := by
  cases localPart with
  | nil => simp [isSRSAddress, hasPrefix, srs0Tag, srs1Tag, ascii] at tagged
  | cons first rest =>
    have same : first = 83 := by
      simp [isSRSAddress, hasPrefix, srs0Tag, srs1Tag, ascii, List.isPrefixOf] at tagged
      rcases tagged with tagged | tagged
      · exact tagged.1.symm
      · exact tagged.1.symm
    exact ⟨rest, by rw [same]⟩

end Herold.Srs

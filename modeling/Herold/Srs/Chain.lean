import Mathlib.Data.List.Induction
import Herold.Srs.Address

/-!
# Return paths over several hops

A message forwarded again and again carries its way back in its return path: the
first hop wraps the sender, every later one the return path it was handed.
Decoding peels the layers off in reverse.

The layers are separated by equals signs, which the text inside may hold as well.
What makes the splitting unambiguous is that the parts in front never do: the
hash, the day counter and the domain.
-/

namespace Herold.Srs

open Herold.Go

structure Domain where
  name : Bytes
  nonempty : name ≠ []
  free : 61 ∉ name

structure Path where
  localPart : Bytes
  nonempty : localPart ≠ []
  domain : Domain

structure Hop where
  secret : Bytes
  time : Int
  domain : Domain

def Path.address (path : Path) : Bytes × Bytes := (path.localPart, path.domain.name)

theorem letters_free : 61 ∉ urlAlphabet ∧ 61 ∉ b32Alphabet := by decide +kernel

theorem day_letters (day : Nat) (small : day < 32) :
    b32Alphabet.getD day 0 ∈ b32Alphabet ∧
      b32Alphabet.findIdx? (fun letter => letter = b32Alphabet.getD day 0) = some day := by
  have every : ∀ day < 32, b32Alphabet.getD day 0 ∈ b32Alphabet ∧
      b32Alphabet.findIdx? (fun letter => letter = b32Alphabet.getD day 0) = some day := by
        decide +kernel
  exact every day small

def dayOf (seconds : Int) : Int := seconds / 86400 % 1024

theorem day_counter_of_nonneg (seconds : Int) (since : 0 ≤ seconds) :
    dayCounter seconds = dayOf seconds := by
  unfold dayCounter dayOf tsBase
  rw [Int.tdiv_eq_ediv_of_nonneg since, Int.tmod_eq_emod_of_nonneg (by omega)]

theorem encode_timestamp_of_nonneg (seconds : Int) (since : 0 ≤ seconds) :
    encodeTimestamp seconds =
      [b32Alphabet.getD (dayOf seconds / 32).toNat 0,
        b32Alphabet.getD (dayOf seconds % 32).toNat 0] := by
  have positive : ¬dayOf seconds < 0 := by
    unfold dayOf
    omega
  unfold encodeTimestamp
  simp only [day_counter_of_nonneg seconds since, if_neg positive]

theorem decode_encode_timestamp (seconds : Int) (since : 0 ≤ seconds) :
    decodeTimestamp (encodeTimestamp seconds) = some (dayOf seconds) := by
  have low : 0 ≤ dayOf seconds := by
    unfold dayOf
    omega
  have high : dayOf seconds < 1024 := by
    unfold dayOf
    omega
  rw [encode_timestamp_of_nonneg seconds since, decodeTimestamp,
    (day_letters (dayOf seconds / 32).toNat (by omega)).2,
    (day_letters (dayOf seconds % 32).toNat (by omega)).2]
  simp only [Option.some.injEq]
  omega

theorem timestamp_free (seconds : Int) (since : 0 ≤ seconds) : 61 ∉ encodeTimestamp seconds := by
  rw [encode_timestamp_of_nonneg seconds since]
  intro member
  simp only [List.mem_cons, List.not_mem_nil, or_false] at member
  have bounds : 0 ≤ dayOf seconds ∧ dayOf seconds < 1024 := by
    unfold dayOf
    omega
  rcases member with same | same
  · exact letters_free.2 (same ▸ (day_letters _ (by omega)).1)
  · exact letters_free.2 (same ▸ (day_letters _ (by omega)).1)

def daysBetween (encoded decoded : Int) : Int := (decoded / 86400 - encoded / 86400) % 1024

theorem fresh_iff (encoded decoded maxAge : Int) :
    isFresh (dayOf encoded) (dayOf decoded) maxAge = true ↔
      daysBetween encoded decoded ≤ maxAge.tdiv 86400 := by
  unfold isFresh dayOf daysBetween tsBase
  rw [decide_eq_true_iff, Int.tmod_eq_emod_of_nonneg (by omega)]
  have same : (decoded / 86400 % 1024 - encoded / 86400 % 1024 + 1024) % 1024 =
      (decoded / 86400 - encoded / 86400) % 1024 := by omega
  rw [same]

section Keyed

variable (hmac : Bytes → Bytes → Bytes)

theorem hash_free (secret text : Bytes) : 61 ∉ hash4 hmac secret text := by
  intro member
  exact letters_free.1 (raw_url_encode_listed _ _ (List.mem_of_mem_take member))

section

variable (secrets : List Bytes) (start : Path)

theorem hash_verifies (secret text : Bytes) (known : secret ∈ secrets) :
    verifyHash4 hmac secrets (hash4 hmac secret text) text = true :=
  List.any_eq_true.mpr ⟨secret, known, decide_eq_true rfl⟩

/-- The first pair of equals signs follows the domain, whatever comes after it. -/
theorem cut_after_domain (domain rest : Bytes) (free : 61 ∉ domain) :
    cutFirst (ascii "==") (domain ++ ascii "==" ++ rest) = some (domain, rest) := by
  induction domain with
  | nil =>
    have here : hasPrefix (61 :: 61 :: rest) (ascii "==") = true := by
      simp [hasPrefix, ascii, List.isPrefixOf]
    show cutFirst (ascii "==") (61 :: 61 :: rest) = some ([], rest)
    rw [cutFirst, if_pos here]
    rfl
  | cons first domain ih =>
    rw [List.mem_cons, not_or] at free
    have elsewhere : ¬hasPrefix (first :: (domain ++ ascii "==" ++ rest)) (ascii "==") = true := by
      intro starts
      simp [hasPrefix, ascii, List.isPrefixOf] at starts
      exact free.1 starts.1
    rw [List.cons_append, List.cons_append, cutFirst, if_neg elsewhere, ih free.2]
    rfl

theorem decode_srs1_layer (now maxAge : Int) (secret : Bytes) (path : Path)
    (known : secret ∈ secrets) :
    decode hmac secrets now maxAge (encodeSRS1 hmac secret path.localPart path.domain.name) =
      .ok path.address := by
  have verified := hash_verifies hmac secrets secret
    (path.domain.name ++ ascii "==" ++ path.localPart) known
  have free := hash_free hmac secret (path.domain.name ++ ascii "==" ++ path.localPart)
  unfold encodeSRS1
  generalize hash4 hmac secret (path.domain.name ++ ascii "==" ++ path.localPart) =
    hash at verified free
  have trimmed : trimPrefix
    (srs1Tag ++ hash ++ ascii "=" ++ path.domain.name ++ ascii "==" ++ path.localPart)
      srs1Tag = hash ++ 61 :: (path.domain.name ++ ascii "==" ++ path.localPart) := by
    simp [trimPrefix, hasPrefix, srs1Tag, ascii, List.isPrefixOf]
  have notFirst : ¬hasPrefix
    (srs1Tag ++ hash ++ ascii "=" ++ path.domain.name ++ ascii "==" ++ path.localPart)
      srs0Tag = true := by
    simp [hasPrefix, srs0Tag, srs1Tag, ascii, List.isPrefixOf]
  have tagged : hasPrefix (srs1Tag ++ hash ++ ascii "=" ++ path.domain.name ++ ascii "==" ++
    path.localPart)
      srs1Tag = true := by
    simp [hasPrefix, srs1Tag, ascii, List.isPrefixOf]
  have filled : ¬(path.domain.name = [] ∨ path.localPart = []) := by
    simp [path.domain.nonempty, path.nonempty]
  simp only [decode, if_neg notFirst, if_pos tagged, decodeSRS1, trimmed,
    cut_first_byte_append 61 _ _ free,
    cut_after_domain _ _ path.domain.free, if_neg filled, verified]
  rfl

theorem decode_srs0_layer (encoded decoded maxAge : Int) (secret : Bytes)
    (path : Path) (known : secret ∈ secrets) (since : 0 ≤ encoded) (after : 0 ≤ decoded) :
    decode hmac secrets decoded maxAge
      (encodeSRS0 hmac secret encoded path.localPart path.domain.name) =
      if daysBetween encoded decoded ≤ maxAge.tdiv 86400 then .ok path.address else .error .stale := by
  have verified := hash_verifies hmac secrets secret
    (signedSRS0 (encodeTimestamp encoded) path.domain.name path.localPart) known
  have free := hash_free hmac secret
    (signedSRS0 (encodeTimestamp encoded) path.domain.name path.localPart)
  have dayFree := timestamp_free encoded since
  have day := decode_encode_timestamp encoded since
  have fresh := fresh_iff encoded decoded maxAge
  unfold encodeSRS0
  simp only
  generalize hash4 hmac secret
    (signedSRS0 (encodeTimestamp encoded) path.domain.name path.localPart) = hash
    at verified free
  generalize encodeTimestamp encoded = ts at verified dayFree day
  have trimmed : trimPrefix
      (srs0Tag ++ hash ++ ascii "=" ++ ts ++ ascii "=" ++ path.domain.name ++ ascii "=" ++
        path.localPart)
      srs0Tag = hash ++ 61 :: (ts ++ 61 :: (path.domain.name ++ 61 :: path.localPart)) := by
    simp [trimPrefix, hasPrefix, srs0Tag, ascii, List.isPrefixOf]
  have tagged : hasPrefix
      (srs0Tag ++ hash ++ ascii "=" ++ ts ++ ascii "=" ++ path.domain.name ++ ascii "=" ++
        path.localPart)
      srs0Tag = true := by
    simp [hasPrefix, srs0Tag, ascii, List.isPrefixOf]
  have parts : splitN 61 4 (hash ++ 61 :: (ts ++ 61 :: (path.domain.name ++ 61 :: path.localPart))) =
      [hash, ts, path.domain.name, path.localPart] := by
    simp only [splitN, cut_first_byte_append 61 _ _ free, cut_first_byte_append 61 _ _ dayFree,
      cut_first_byte_append 61 _ _ path.domain.free]
  have filled : ¬(path.domain.name = [] ∨ path.localPart = []) := by
    simp [path.domain.nonempty, path.nonempty]
  simp only [decode, if_pos tagged, decodeSRS0, trimmed, parts, if_neg filled, verified, day,
    day_counter_of_nonneg decoded after, fresh]
  rfl

theorem wrap_tagged (secret : Bytes) (now : Int) (curLocal curDomain : Bytes) :
    isSRSAddress (wrap hmac secret now curLocal curDomain) = true := by
  unfold wrap
  split
  · simp [isSRSAddress, encodeSRS1, hasPrefix, srs1Tag, ascii, List.isPrefixOf]
  · simp [isSRSAddress, encodeSRS0, hasPrefix, srs0Tag, ascii, List.isPrefixOf]

def forward (path : Path) (hop : Hop) : Path where
  localPart := wrap hmac hop.secret hop.time path.localPart path.domain.name
  nonempty := by
    obtain ⟨rest, shape⟩ := wrap_head hmac hop.secret hop.time path.localPart path.domain.name
    rw [shape]
    exact List.cons_ne_nil _ _
  domain := hop.domain

def forwardAll (start : Path) (hops : List Hop) : Path := hops.foldl (forward hmac) start

def pathsBefore (start : Path) : List Hop → List Path
  | [] => []
  | hop :: hops => start :: pathsBefore (forward hmac start hop) hops

/-- Decoding as often as there are times, each time what the last decoding gave. -/
def decodings (secrets : List Bytes) (maxAge : Int) :
    List Int → Bytes → List (Except SrsError (Bytes × Bytes))
  | [], _ => []
  | now :: later, localPart =>
    decode hmac secrets now maxAge localPart ::
      match decode hmac secrets now maxAge localPart with
      | .ok previous => decodings secrets maxAge later previous.1
      | .error _ => []

theorem paths_before_snoc (hops : List Hop) (hop : Hop) : pathsBefore hmac start (hops ++ [hop]) =
      pathsBefore hmac start hops ++ [forwardAll hmac start hops] := by
  induction hops generalizing start with
  | nil => rfl
  | cons first hops ih =>
    rw [List.cons_append, pathsBefore, pathsBefore, ih]
    rfl

theorem forward_all_snoc (hops : List Hop) (hop : Hop) :
    forwardAll hmac start (hops ++ [hop]) = forward hmac (forwardAll hmac start hops) hop := by
  unfold forwardAll
  rw [List.foldl_append]
  rfl

theorem forward_all_tagged (first : Hop) (more : List Hop) :
    isSRSAddress (forwardAll hmac (forward hmac start first) more).localPart = true := by
  induction more using List.reverseRecOn with
  | nil => exact wrap_tagged hmac _ _ _ _
  | append_singleton more hop _ =>
    rw [forward_all_snoc]
    exact wrap_tagged hmac _ _ _ _

/-- Whether the layer of the first hop is still accepted: the counter counts days. -/
def firstAccepted (start : Path) (first : Hop) (last maxAge : Int) : Prop :=
  isSRSAddress start.localPart = true ∨ daysBetween first.time last ≤ maxAge.tdiv 86400

instance (start : Path) (first : Hop) (last maxAge : Int) :
    Decidable (firstAccepted start first last maxAge) := by
  unfold firstAccepted
  infer_instance

theorem decode_tagged (now maxAge : Int) (path : Path) (hop : Hop)
    (tagged : isSRSAddress path.localPart = true) (known : hop.secret ∈ secrets) :
    decode hmac secrets now maxAge (forward hmac path hop).localPart = .ok path.address := by
  have wrapped : (forward hmac path hop).localPart =
      encodeSRS1 hmac hop.secret path.localPart path.domain.name := if_pos tagged
  rw [wrapped, decode_srs1_layer hmac secrets now maxAge hop.secret path known]

theorem decode_first (maxAge last : Int) (start : Path) (first : Hop)
    (known : first.secret ∈ secrets) (since : 0 ≤ first.time) (after : 0 ≤ last) :
    decode hmac secrets last maxAge (forward hmac start first).localPart =
      if firstAccepted start first last maxAge then .ok start.address else .error .stale := by
  by_cases tagged : isSRSAddress start.localPart = true
  · rw [decode_tagged hmac secrets last maxAge start first tagged known, if_pos (.inl tagged)]
  · have wrapped : (forward hmac start first).localPart =
        encodeSRS0 hmac first.secret first.time start.localPart start.domain.name := if_neg tagged
    rw [wrapped, decode_srs0_layer hmac secrets first.time last maxAge first.secret start known
      since after]
    simp only [firstAccepted, tagged]
    simp

end

theorem decodings_unwind_hops (secrets : List Bytes) (maxAge last : Int) (start : Path) (first : Hop)
    (more : List Hop) (later : List Int) (known : ∀ hop ∈ first :: more, hop.secret ∈ secrets)
    (count : later.length = more.length) (since : 0 ≤ first.time) (after : 0 ≤ last) :
    decodings hmac secrets maxAge (later ++ [last]) (forwardAll hmac start (first :: more)).localPart =
      ((pathsBefore hmac (forward hmac start first) more).reverse.map fun path => .ok path.address) ++
        [if firstAccepted start first last maxAge then .ok start.address else .error .stale] := by
  induction more using List.reverseRecOn generalizing later with
  | nil =>
    obtain rfl := List.length_eq_zero_iff.mp count
    have outer := decode_first hmac secrets maxAge last start first (known first (by simp)) since after
    show decodings hmac secrets maxAge [last] (forward hmac start first).localPart = _
    rw [decodings, outer]
    split <;> rfl
  | append_singleton more hop ih =>
    cases later with
    | nil => simp at count
    | cons now later =>
      have tagged := forward_all_tagged hmac start first more
      have outer := decode_tagged hmac secrets now maxAge
        (forwardAll hmac (forward hmac start first) more) hop tagged (known hop (by simp))
      have shape : forwardAll hmac start (first :: (more ++ [hop])) =
          forward hmac (forwardAll hmac (forward hmac start first) more) hop :=
        forward_all_snoc hmac _ _ _
      have inner := ih later (fun other member => known other (by
        rcases List.mem_cons.mp member with same | among
        · rw [same]
          exact List.mem_cons_self
        · exact List.mem_cons_of_mem _ (List.mem_append_left _ among))) (by simpa using count)
      rw [List.cons_append, decodings, shape, outer, paths_before_snoc]
      simp only [List.reverse_append, List.reverse_cons, List.reverse_nil, List.nil_append,
        List.cons_append, List.map_cons]
      rw [← inner]
      rfl

end Keyed

def sampleMac (secret text : Bytes) : Bytes :=
  if secret = ascii "old" && text = ascii "AA=x.org=a=b" then
    [52, 60, 212, 165, 12, 63, 145, 184, 60, 138, 104, 97, 183, 182, 176, 21, 103, 110, 175, 134]
  else if secret = ascii "new" && text = ascii "y.org==SRS0=NDzU=AA=x.org=a=b" then
    [140, 104, 92, 62, 87, 188, 79, 86, 65, 156, 93, 21, 222, 196, 145, 187, 60, 83, 209, 109]
  else []

/-- The counter was written 1030 days before it is read: six days, to the decoder. -/
theorem decodings_unwind_two_hops :
    decodings sampleMac [ascii "old", ascii "new"] maxAgeDefault [0, 1030 * 86400]
        (forwardAll sampleMac ⟨ascii "a=b", by decide, ⟨ascii "x.org", by decide, by decide⟩⟩
          [⟨ascii "old", 0, ⟨ascii "y.org", by decide, by decide⟩⟩,
            ⟨ascii "new", 0, ⟨ascii "z.org", by decide, by decide⟩⟩]).localPart =
      [.ok (ascii "SRS0=NDzU=AA=x.org=a=b", ascii "y.org"), .ok (ascii "a=b", ascii "x.org")] :=
  (decodings_unwind_hops sampleMac [ascii "old", ascii "new"] maxAgeDefault (1030 * 86400)
    ⟨ascii "a=b", by decide, ⟨ascii "x.org", by decide, by decide⟩⟩
    ⟨ascii "old", 0, ⟨ascii "y.org", by decide, by decide⟩⟩
    [⟨ascii "new", 0, ⟨ascii "z.org", by decide, by decide⟩⟩] [0] (by decide) rfl (by decide)
      (by decide)).trans
    (by decide)

end Herold.Srs

import SignalisCore.Facade.DeriveMultiple
import SignalisCore.Facade.Hashing
import SignalisCore.Facade.OutputLength
import SignalisCore.Facade.WorkFactors

/-!
# What the key derivation functions read from

HKDF and PBKDF2 against the package's own `HMAC`: every key that HKDF derives from a salt, input key
material and a context is read from one stream of 255 blocks, each of them an HMAC over the one
before it; and neither function can tell keys apart that HMAC does not.

* `hkdf_stream`, `hkdfSha512_stream`: all of HKDF reads from one stream.
* `pbkdf2_prefix`: longer outputs of PBKDF2 begin with the shorter ones.
* `sameKey_of_padding`: the keys that nothing distinguishes.
-/

namespace SignalisCore

open Binary64 Ecma Hmac LittleEndian Slicing

/-! ### The standards -/

/-- The `hkdf` crate computes HKDF (RFC 5869) over a hash function. -/
structure HkdfImpl.Standard {hashLen : ℕ} (I : HkdfImpl hashLen)
    (extract : Bytes → Bytes → ByteArr hashLen) (expand : Bytes → Bytes → (len : ℕ) → ByteArr len) :
    Prop where
  extract : ∀ salt ikm, I.extract salt ikm = extract salt ikm
  expand : ∀ {prk hk}, I.fromPrk prk = some hk → ∀ {info len okm},
    I.expand hk info len = some okm → okm = expand prk info len

/-- The crates under key derivation compute what the standards say. -/
structure Primitives.Standard (P : Primitives) : Prop where
  hkdfSha256 : P.hkdfSha256.Standard (hkdfExtract sha256Hash) (hkdfExpand sha256Hash)
  hkdfSha512 : P.hkdfSha512.Standard (hkdfExtract sha512Hash) (hkdfExpand sha512Hash)
  pbkdf2Hmac : ∀ password salt rounds len,
    P.pbkdf2Hmac password salt rounds len = pbkdf2 sha256Hash password salt rounds.toNat len

theorem hkdfImpl_standard (H : Hmac.Hash) :
    (hkdfImpl H).Standard (hkdfExtract H) (hkdfExpand H) where
  extract _ _ := rfl
  expand {prk hk} h_hk {info len okm} h_okm := by
    have h_prk : (show Bytes from hk) = prk :=
      (Option.some.inj (Option.ite_none_left_eq_some.1 h_hk).2).symm
    have h_expand : hkdfExpand H hk info len = okm :=
      Option.some.inj (Option.ite_none_left_eq_some.1 h_okm).2
    rw [← h_expand, ← h_prk]

theorem rustCrypto_standard : rustCrypto.Standard where
  hkdfSha256 := hkdfImpl_standard sha256Hash
  hkdfSha512 := hkdfImpl_standard sha512Hash
  pbkdf2Hmac _ _ _ _ := rfl

namespace Hkdf

variable {hashLen : ℕ} {I : HkdfImpl hashLen} {extract : Bytes → Bytes → ByteArr hashLen}
  {expand : Bytes → Bytes → (len : ℕ) → ByteArr len}

theorem expandUpTo_eq (L : I.Lawful) (S : I.Standard extract expand) {max : ℕ}
    (h_max : max ≤ 255 * hashLen) (prk : ByteArr hashLen) (info : Bytes) {length : ℕ}
    (h : length ≤ max) :
    expandUpTo I max prk info length = .ok (expand prk.1 info length).1 := by
  obtain ⟨okm, h_okm⟩ := (expandUpTo_isOk_iff I L h_max prk info length).2 h
  rw [h_okm]
  unfold expandUpTo at h_okm
  split_ifs at h_okm
  split at h_okm
  · cases h_okm
  · next hk h_hk =>
    split at h_okm
    · cases h_okm
    · next arr h_arr =>
      cases h_okm
      rw [S.expand h_hk h_arr]

end Hkdf

namespace Core

variable (E : Engine) (P : Primitives) (H : Hashes)

/-! ### HKDF -/

/-- The stream of HKDF, over an operation of `HMAC`. -/
structure IsHkdfStream (mac : JsValue → JsValue → Except JsError Bytes) (hashLen : ℕ)
    (salt ikm info prk stream : Bytes) : Prop where
  /-- The pseudorandom key. -/
  extract : mac (.buffer salt) (.buffer ikm) = .ok prk
  /-- There are 255 blocks. -/
  length : stream.length = 255 * hashLen
  /-- Each block is over the one before it, the context and its number. -/
  block : ∀ j < 255, mac (.buffer prk) (.buffer ((if j = 0 then [] else
    blockAt hashLen stream (j - 1)) ++ info ++ [.ofNat (j + 1)])) = .ok (blockAt hashLen stream j)

variable {E} {P} {H}

theorem HMAC.sha256_buffer (L : H.Lawful) (key data : Bytes) :
    HMAC.sha256 H (.buffer key) (.buffer data) = .ok (hmac sha256Hash key data).1 := by
  change Except.ok (digest (H.hmacSha256 key) data).1 = _
  rw [digest_eq (L.hmacSha256 key)]

theorem HMAC.sha512_buffer (L : H.Lawful) (key data : Bytes) :
    HMAC.sha512 H (.buffer key) (.buffer data) = .ok (hmac sha512Hash key data).1 := by
  change Except.ok (digest (H.hmacSha512 key) data).1 = _
  rw [digest_eq (L.hmacSha512 key)]

/-- The stream of the standard. -/
theorem isHkdfStream_hkdfExpand {mac : JsValue → JsValue → Except JsError Bytes} {F : Hmac.Hash}
    (h_mac : ∀ key data, mac (.buffer key) (.buffer data) = .ok (hmac F key data).1)
    (salt ikm info : Bytes) :
    IsHkdfStream mac F.outLen salt ikm info (hkdfExtract F salt ikm).1
      (hkdfExpand F (hkdfExtract F salt ikm).1 info (255 * F.outLen)).1 where
  extract := h_mac salt ikm
  length := (hkdfExpand F _ info _).2
  block j h := by rw [h_mac, ← hkdfExpand_block h]

theorem hkdf_derive_eq (LP : P.Lawful) (S : P.Standard) (salt ikm info : Bytes) {x : Float} {n : ℕ}
    (h : view x = .fin n) (h_range : 1 ≤ n ∧ n ≤ 8160) :
    HKDF.derive E P (.buffer salt) (.buffer ikm) (.buffer info) (.number x) =
      .ok (hkdfExpand sha256Hash (hkdfExtract sha256Hash salt ikm).1 info n).1 := by
  have h_expand := Hkdf.expandUpTo_eq LP.hkdfSha256 S.hkdfSha256 (le_refl 8160)
    (P.hkdfSha256.extract salt ikm) info h_range.2
  rw [S.hkdfSha256.extract] at h_expand
  simp only [HKDF.derive, assertBuffer_buffer, ok_bind, (assertHkdfLength_of_view E h).1 h_range,
    callNative_eq_ok_iff, Node.hkdfDerive, Node.mapErr_eq_ok_iff, toNat_toUint32 h,
    Nat.mod_eq_of_lt (show n < 2 ^ 32 by omega)]
  rw [Hkdf.derive, Hkdf.deriveUpTo, S.hkdfSha256.extract]
  exact h_expand

theorem hkdf_expand_eq (LP : P.Lawful) (S : P.Standard) (prk : ByteArr 32) (info : Bytes)
    {x : Float} {n : ℕ} (h : view x = .fin n) (h_range : 1 ≤ n ∧ n ≤ 8160) :
    HKDF.expand E P (.buffer prk.1) (.buffer info) (.number x) =
      .ok (hkdfExpand sha256Hash prk.1 info n).1 := by
  have h_expand := Hkdf.expandUpTo_eq LP.hkdfSha256 S.hkdfSha256 (le_refl 8160) prk info h_range.2
  simp only [HKDF.expand, assertBufferOfSize_buffer prk.2, assertBuffer_buffer, ok_bind,
    (assertHkdfLength_of_view E h).1 h_range, callNative_eq_ok_iff, Node.hkdfExpand,
    dif_pos prk.2, Node.mapErr_eq_ok_iff, toNat_toUint32 h,
    Nat.mod_eq_of_lt (show n < 2 ^ 32 by omega)]
  exact h_expand

/-- **One stream**: whatever its length, a key that HKDF derives from a salt, input key material and
a context is where one stream begins, in one step or in two; and the keys that are derived together
follow one another in it. The stream is that of RFC 5869 over `HMAC.sha256`. -/
theorem hkdf_stream (LP : P.Lawful) (S : P.Standard) (L : H.Lawful) (salt ikm info : Bytes) :
    ∃ prk stream, IsHkdfStream (HMAC.sha256 H) 32 salt ikm info prk stream ∧
      HKDF.extract P (.buffer salt) (.buffer ikm) = .ok prk ∧
      (∀ (x : Float) (n : ℕ), view x = .fin n → 1 ≤ n ∧ n ≤ 8160 →
        HKDF.derive E P (.buffer salt) (.buffer ikm) (.buffer info) (.number x) =
          .ok (stream.take n) ∧
        HKDF.expand E P (.buffer prk) (.buffer info) (.number x) = .ok (stream.take n)) ∧
      ∀ (lengths : List Float) (sizes : List ℕ),
        List.Forall₂ (fun len size => view len = .fin (size : ℕ)) lengths sizes →
        1 ≤ sizes.sum ∧ sizes.sum ≤ 8160 →
        ∃ segments, HKDF.deriveMultiple E P (.buffer salt) (.buffer ikm) (.buffer info)
            (some lengths) = .ok segments ∧
          segments.map (·.elems) = sizes.splitLengths stream := by
  let prk := hkdfExtract sha256Hash salt ikm
  have h_take {n : ℕ} (h : n ≤ 8160) : (hkdfExpand sha256Hash prk.1 info n).1 =
      (hkdfExpand sha256Hash prk.1 info 8160).1.take n := hkdfExpand_take h
  refine ⟨prk.1, (hkdfExpand sha256Hash prk.1 info 8160).1,
    isHkdfStream_hkdfExpand (F := sha256Hash) (HMAC.sha256_buffer L) salt ikm info, ?_, ?_, ?_⟩
  · change Except.ok (P.hkdfSha256.extract salt ikm).1 = _
    rw [S.hkdfSha256.extract]
  · intro x n h h_range
    rw [hkdf_derive_eq LP S salt ikm info h h_range, hkdf_expand_eq LP S prk info h h_range,
      h_take h_range.2]
    exact ⟨rfl, rfl⟩
  · intro lengths sizes h_sizes h_range
    have h_sum : view (HKDF.totalLength lengths) = .fin (sizes.sum : ℕ) := by
      rw [HKDF.totalLength, (view_foldl_add h_sizes view_zero_natCast).1 (by omega), zero_add]
    obtain ⟨okm, h_len, h_okm, h_keys⟩ :=
      HKDF.deriveMultiple_of_total E LP salt ikm info h_sum h_range
    refine ⟨_, h_keys, ?_⟩
    rw [hkdf_derive_eq LP S salt ikm info h_sum h_range] at h_okm
    obtain rfl := Except.ok.inj h_okm
    rw [HKDF.slices_eq_cut h_sizes h_len.symm (by omega), map_elems_cut, List.drop_zero,
      h_take h_range.2, splitLengths_take (le_refl _)]

theorem hkdf_stream_thirtyTwo : ∃ prk stream,
    IsHkdfStream (HMAC.sha256 rustHashes) 32 [] [] [] prk stream ∧
      HKDF.derive plainEngine rustCrypto (.buffer []) (.buffer []) (.buffer []) (.number 32) =
        .ok (stream.take 32) := by
  obtain ⟨prk, stream, h_stream, -, h_derive, -⟩ := hkdf_stream (E := plainEngine)
    rustCrypto_lawful rustCrypto_standard rustHashes_lawful [] [] []
  exact ⟨prk, stream, h_stream, (h_derive 32 32 view_thirtyTwo (by norm_num)).1⟩

/-- The same of HKDF-SHA512, over `HMAC.sha512`. -/
theorem hkdfSha512_stream (LP : P.Lawful) (S : P.Standard) (L : H.Lawful)
    (salt ikm info : Bytes) :
    ∃ prk stream, IsHkdfStream (HMAC.sha512 H) 64 salt ikm info prk stream ∧
      ∀ (x : Float) (n : ℕ), view x = .fin n → 1 ≤ n ∧ n ≤ 16320 →
        HKDF.deriveSha512 E P (.buffer salt) (.buffer ikm) (.buffer info) (.number x) =
          .ok (stream.take n) := by
  refine ⟨_, _, isHkdfStream_hkdfExpand (F := sha512Hash) (HMAC.sha512_buffer L) salt ikm info,
    ?_⟩
  intro x n h h_range
  have h_expand := Hkdf.expandUpTo_eq LP.hkdfSha512 S.hkdfSha512 (le_refl 16320)
    (P.hkdfSha512.extract salt ikm) info h_range.2
  rw [S.hkdfSha512.extract] at h_expand
  rw [deriveSha512_number E h h_range.1, callNative_eq_ok_iff, Node.mapErr_eq_ok_iff,
    Nat.mod_eq_of_lt (show n < 2 ^ 32 by omega), HkdfSha512.derive, Hkdf.deriveUpTo,
    S.hkdfSha512.extract, h_expand]
  exact congrArg Except.ok (hkdfExpand_take h_range.2)

/-! ### PBKDF2 -/

/-- **Longer outputs** begin with the shorter ones, for the same password, salt and iterations. -/
theorem pbkdf2_prefix (S : P.Standard) {password salt out : Bytes} {iterations x y : Float}
    {n m : ℕ} (h_x : view x = .fin n) (h_y : view y = .fin m) (h_pos : 1 ≤ n) (h_le : n ≤ m)
    (h_lt : m < 2 ^ 32)
    (h : PBKDF2.derive E P (.buffer password) (.buffer salt) (.number iterations) (.number y) =
      .ok out) :
    PBKDF2.derive E P (.buffer password) (.buffer salt) (.number iterations) (.number x) =
      .ok (out.take n) := by
  obtain ⟨⟨h_iterations, -, h_rounds, -, h_salt⟩, rfl⟩ := (pbkdf2_eq_ok_iff E P password).1 h
  have h_len : (toUint32 x).toNat = n := by
    rw [toNat_toUint32 h_x, Nat.mod_eq_of_lt (by omega)]
  refine (pbkdf2_eq_ok_iff E P password).2 ⟨⟨h_iterations, ⟨n, h_x⟩, h_rounds, ?_, h_salt⟩, ?_⟩
  · intro h_zero
    rw [h_zero] at h_len
    exact absurd h_len.symm (Nat.one_le_iff_ne_zero.1 h_pos)
  · rw [h_len, toNat_toUint32 h_y, Nat.mod_eq_of_lt h_lt, S.pbkdf2Hmac, S.pbkdf2Hmac,
      pbkdf2_take h_le]

/-! ### Keys that nothing distinguishes -/

/-- No operation over HMAC-SHA256 tells the two keys apart: as a key of `HMAC`, as a salt of HKDF or
as a password of PBKDF2, whatever the other arguments are. -/
structure SameKey (E : Engine) (P : Primitives) (H : Hashes) (k k' : Bytes) : Prop where
  sha256 : ∀ data, HMAC.sha256 H (.buffer k) data = HMAC.sha256 H (.buffer k') data
  verifySha256 : ∀ data tag,
    HMAC.verifySha256 H (.buffer k) data tag = HMAC.verifySha256 H (.buffer k') data tag
  extract : ∀ ikm, HKDF.extract P (.buffer k) ikm = HKDF.extract P (.buffer k') ikm
  derive : ∀ ikm info length,
    HKDF.derive E P (.buffer k) ikm info length = HKDF.derive E P (.buffer k') ikm info length
  deriveMultiple : ∀ ikm info lengths, HKDF.deriveMultiple E P (.buffer k) ikm info lengths =
    HKDF.deriveMultiple E P (.buffer k') ikm info lengths
  pbkdf2 : ∀ salt iterations length, PBKDF2.derive E P (.buffer k) salt iterations length =
    PBKDF2.derive E P (.buffer k') salt iterations length

theorem sameKey_of_keyBlock_eq (S : P.Standard) (L : H.Lawful) {k k' : Bytes}
    (h : keyBlock sha256Hash k = keyBlock sha256Hash k') : SameKey E P H k k' := by
  have h_hmac : hmac sha256Hash k = hmac sha256Hash k' := hmac_congr h
  -- the functions of the addon do not tell the keys apart
  have h_sha256 : Node.hmacSha256 H k = Node.hmacSha256 H k' := by
    funext data
    change (digest (H.hmacSha256 k) data).1 = (digest (H.hmacSha256 k') data).1
    rw [digest_eq (L.hmacSha256 k), digest_eq (L.hmacSha256 k'), h_hmac]
  have h_verify : Node.hmacSha256Verify H k = Node.hmacSha256Verify H k' := by
    funext data tag
    rw [Bool.eq_iff_iff, Node.hmacSha256Verify_iff L, Node.hmacSha256Verify_iff L, h_sha256]
  have h_extract : P.hkdfSha256.extract k = P.hkdfSha256.extract k' := by
    funext ikm
    rw [S.hkdfSha256.extract, S.hkdfSha256.extract, hkdfExtract, hkdfExtract, h_hmac]
  have h_pbkdf2 : Node.pbkdf2Derive P k = Node.pbkdf2Derive P k' := by
    funext salt iterations length
    simp only [Node.pbkdf2Derive, Pbkdf2.derive, S.pbkdf2Hmac, pbkdf2_congr h_hmac]
  have h_derive (ikm info length : JsValue) :
      HKDF.derive E P (.buffer k) ikm info length =
        HKDF.derive E P (.buffer k') ikm info length := by
    simp only [HKDF.derive, assertBuffer_buffer, ok_bind, Node.hkdfDerive, Hkdf.derive,
      Hkdf.deriveUpTo, h_extract]
  refine ⟨fun data => ?_, fun data tag => ?_, fun ikm => ?_, h_derive, fun ikm info lengths => ?_,
    fun salt iterations length => ?_⟩
  · simp only [HMAC.sha256, HMAC.macWith, assertBuffer_buffer, ok_bind, h_sha256]
  · simp only [HMAC.verifySha256, HMAC.verifyWith, assertBuffer_buffer, ok_bind, h_verify]
  · simp only [HKDF.extract, assertBuffer_buffer, ok_bind, Node.hkdfExtract, Hkdf.extract,
      h_extract]
  · simp only [HKDF.deriveMultiple, assertBuffer_buffer, ok_bind, h_derive]
  · simp only [PBKDF2.derive, assertBuffer_buffer, ok_bind, h_pbkdf2]

/-- **Keys that nothing distinguishes**: zero bytes behind a key do not count up to 64 bytes, and a
longer key counts as its hash. So a salt of 32 zeros is the empty salt, and a long password has a
second one of 32 bytes. -/
theorem sameKey_of_padding (S : P.Standard) (L : H.Lawful) :
    (∀ (k : Bytes) (n : ℕ), k.length + n ≤ 64 →
      SameKey E P H k (k ++ List.replicate n 0)) ∧
    ∀ k : Bytes, 64 < k.length →
      ∃ hash : Bytes, SHA256.hash H (.buffer k) = .ok hash ∧ hash.length = 32 ∧
        SameKey E P H k hash := by
  refine ⟨?_, ?_⟩
  · intro k n h
    exact sameKey_of_keyBlock_eq S L (keyBlock_append_zeros (H := sha256Hash) h).symm
  · intro k h
    refine ⟨(Sha2.sha256 k).1, ?_, (Sha2.sha256 k).2, ?_⟩
    · change Except.ok (digest H.sha256 k).1 = _
      rw [digest_eq L.sha256]
    · exact sameKey_of_keyBlock_eq S L
        (keyBlock_hash (H := sha256Hash) h (show 32 ≤ 64 by norm_num)).symm

/-- The two empty salts. -/
theorem sameKey_of_padding_emptySalt :
    SameKey plainEngine rustCrypto rustHashes [] (List.replicate 32 0) :=
  (sameKey_of_padding rustCrypto_standard rustHashes_lawful).1 [] 32 (by norm_num)

end Core

end SignalisCore

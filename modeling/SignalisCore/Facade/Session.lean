import SignalisCore.Facade.AeadInverse
import SignalisCore.Facade.DeriveMultiple
import SignalisCore.Facade.SharedSecrets
import SignalisCore.Library.PacketChannel

/-!
# The end-to-end channel of `EXAMPLES.md`

The documented composition of the library's operations. The initiator signs an ephemeral key with
its identity, the responder verifies the signature, both derive two keys from one shared secret, and
messages travel encrypted, with their headers as associated data.

* `handshake_agrees`: the responder accepts an honest handshake, and whatever handshake it accepts,
  the holder of the ephemeral key has the same two keys.
* `session_reliable`: what is within the limits of the cipher can be sent, over any network what was
  sent arrives whenever it is delivered, and nothing is accepted that was not encrypted under the
  session key.
-/

namespace SignalisCore

open Binary64 Ecma LittleEndian PacketChannel Slicing

namespace Core

namespace Session

variable (D : Dalek) (sha512 : Bytes → ByteArr 64) (E : Engine) (P : Primitives) (C : Ciphers)

/-! ### The handshake -/

/-- What the initiator sends first. -/
structure Handshake where
  identity : Bytes
  ephemeral : Bytes
  authSig : Bytes

/-- The two keys that are taken out of the array of `deriveMultiple`. -/
structure Keys where
  sendKey : JsValue
  recvKey : JsValue

/-- An element of an array of buffers, or `undefined`. -/
def element (segments : List (Segment UInt8)) (i : ℕ) : JsValue :=
  match segments[i]? with
  | some segment => .buffer segment.elems
  | none => .undefined

/-- `Buffer.from('signalis-session-v1')`. -/
def sessionSalt : Bytes := "signalis-session-v1".toUTF8.toList

def deriveKeys (shared initiator responder : Bytes) : Except JsError Keys := do
  let keys ← HKDF.deriveMultiple E P (.buffer sessionSalt) (.buffer shared)
    (.buffer (initiator ++ responder)) (some [32, 32])
  return ⟨element keys 0, element keys 1⟩

/-- The initiator signs its ephemeral key with its identity. -/
def initiate (random : ByteArr 64) (identity ephemeral : KeyPair) : Except JsError Handshake := do
  let authSig ← XEd25519.sign D sha512 random (.buffer identity.privateKey)
    (.buffer ephemeral.publicKey)
  return ⟨identity.publicKey, ephemeral.publicKey, authSig⟩

/-- The keys of whoever holds the ephemeral key. -/
def initiatorKeys (identity : Bytes) (ephemeral : KeyPair) (peer : Bytes) :
    Except JsError Keys := do
  let shared ← Curve25519.diffieHellman D (.buffer ephemeral.privateKey) (.buffer peer)
  deriveKeys E P shared identity peer

/-- The responder verifies the signature before it derives its keys. -/
def accept (identity : KeyPair) (handshake : Handshake) : Except JsError Keys := do
  XEd25519.verify D sha512 (.buffer handshake.identity) (.buffer handshake.ephemeral)
    (.buffer handshake.authSig)
  let shared ← Curve25519.diffieHellman D (.buffer identity.privateKey)
    (.buffer handshake.ephemeral)
  deriveKeys E P shared handshake.identity identity.publicKey

/-! ### Messages -/

/-- What is to be sent, and the nonce that is drawn for it. -/
structure Message where
  nonce : ByteArr 12
  header : Bytes
  body : Bytes

structure Packet where
  header : Bytes
  nonce : Bytes
  ciphertext : Bytes

def send (senderKey : JsValue) (message : Message) : Except JsError Packet := do
  let ciphertext ← AES_GCM.encryptWithAad P C senderKey (.buffer message.nonce.1)
    (.buffer message.body) (.buffer message.header)
  return ⟨message.header, message.nonce.1, ciphertext⟩

def receive (recipientKey : JsValue) (packet : Packet) : Except JsError Bytes :=
  AES_GCM.decryptWithAad P recipientKey (.buffer packet.nonce) (.buffer packet.ciphertext)
    (.buffer packet.header)

/-- A sender with one key and a receiver with another. -/
def channel (senderKey recipientKey : JsValue) : Channel Message Bytes Packet JsError :=
  ⟨Message.body, send P C senderKey, receive P recipientKey⟩

/-- The lengths that can be encrypted. -/
def Sendable (L : Limits) (message : Message) : Prop :=
  L.encrypts message.body.length message.header.length

/-- The same of what arrives. -/
def Within (L : Limits) (body : Bytes) (packet : Packet) : Prop :=
  L.encrypts body.length packet.header.length

/-! ### Keys -/

variable {D} {P} {C} {S : CipherSchemes}

theorem view_totalLength : view (HKDF.totalLength [32, 32]) = .fin (64 : ℕ) := by
  decide +kernel

/-- Deriving succeeds, and the two keys are the halves of the key material. -/
theorem exists_deriveKeys (L : P.Lawful) (shared initiator responder : Bytes) :
    ∃ k₁ k₂ : ByteArr 32,
      HKDF.derive E P (.buffer sessionSalt) (.buffer shared) (.buffer (initiator ++ responder))
        (.number (HKDF.totalLength [32, 32])) = .ok (k₁.1 ++ k₂.1) ∧
      deriveKeys E P shared initiator responder = .ok ⟨.buffer k₁.1, .buffer k₂.1⟩ := by
  obtain ⟨okm, h_len, h_okm, h_keys⟩ := HKDF.deriveMultiple_of_total E L sessionSalt shared
    (initiator ++ responder) view_totalLength (by norm_num)
  have h_sizes : List.Forall₂ (fun len size => view len = .fin (size : ℕ)) [32, 32] [32, 32] :=
    .cons view_thirtyTwo (.cons view_thirtyTwo .nil)
  rw [HKDF.slices_eq_cut h_sizes (by rw [h_len]; rfl) (by omega)] at h_keys
  -- the second half is all that is left
  have h_rest : (okm.drop 32).length ≤ 32 := by
    rw [List.length_drop]
    omega
  have h_split : okm.take 32 ++ (okm.drop 32).take 32 = okm := by
    rw [List.take_of_length_le h_rest, List.take_append_drop]
  refine ⟨⟨okm.take 32, by rw [List.length_take]; omega⟩,
    ⟨(okm.drop 32).take 32, by rw [List.length_take, List.length_drop]; omega⟩, ?_, ?_⟩
  · exact h_okm.trans (congrArg Except.ok h_split.symm)
  · rw [deriveKeys, h_keys]
    rfl

/-! ### The handshake is one agreement -/

/-- Whatever handshake is accepted, the holder of its ephemeral key derives the same keys. -/
theorem initiatorKeys_of_accept (L : D.Lawful) {b e : ByteArr 32} {handshake : Handshake}
    {keys : Keys}
    (h_ephemeral : handshake.ephemeral = (Curve25519.generateKeyPair D e).publicKey)
    (h : accept D sha512 E P (Curve25519.generateKeyPair D b) handshake = .ok keys) :
    initiatorKeys D E P handshake.identity (Curve25519.generateKeyPair D e)
      (Curve25519.generateKeyPair D b).publicKey = .ok keys := by
  obtain ⟨shared, h_b, h_e⟩ := diffieHellman_generated L b e
  obtain ⟨u, -, h_rest⟩ := bind_eq_ok_iff.mp h
  rw [h_ephemeral, h_b, ok_bind] at h_rest
  rw [initiatorKeys, h_e, ok_bind]
  exact h_rest

/-- An honest handshake is accepted, and there are two keys of 32 bytes. -/
theorem exists_handshake (L : D.Lawful) (LP : P.Lawful) (a e b : ByteArr 32)
    (random : ByteArr 64) :
    ∃ handshake, initiate D sha512 random (Curve25519.generateKeyPair D a)
        (Curve25519.generateKeyPair D e) = .ok handshake ∧
      handshake.identity = (Curve25519.generateKeyPair D a).publicKey ∧
      handshake.ephemeral = (Curve25519.generateKeyPair D e).publicKey ∧
      ∃ k₁ k₂ : ByteArr 32,
        accept D sha512 E P (Curve25519.generateKeyPair D b) handshake =
          .ok ⟨.buffer k₁.1, .buffer k₂.1⟩ := by
  obtain ⟨sig, h_sign, h_verify⟩ := xed25519_sign_buffer sha512 L a random
    (Curve25519.generateKeyPair D e).publicKey
  obtain ⟨shared, h_b, -⟩ := diffieHellman_generated L b e
  obtain ⟨k₁, k₂, -, h_keys⟩ := exists_deriveKeys E LP shared
    (Curve25519.generateKeyPair D a).publicKey (Curve25519.generateKeyPair D b).publicKey
  refine ⟨⟨_, _, sig.1⟩, by rw [initiate, h_sign]; rfl, rfl, rfl, k₁, k₂, ?_⟩
  rw [accept, h_verify, ok_bind, h_b, ok_bind, h_keys]

/-- **The handshake**: the responder accepts what an honest initiator sends. From any handshake that
it accepts it has the two halves of what HKDF makes of the shared secret and of both identities, and
so has the holder of the ephemeral key. -/
theorem handshake_agrees (L : D.Lawful) (LP : P.Lawful) (b : ByteArr 32) :
    (∀ (a e : ByteArr 32) (random : ByteArr 64), ∃ handshake keys,
      initiate D sha512 random (Curve25519.generateKeyPair D a)
        (Curve25519.generateKeyPair D e) = .ok handshake ∧
      accept D sha512 E P (Curve25519.generateKeyPair D b) handshake = .ok keys) ∧
    ∀ handshake keys, accept D sha512 E P (Curve25519.generateKeyPair D b) handshake = .ok keys →
      XEd25519.verify D sha512 (.buffer handshake.identity) (.buffer handshake.ephemeral)
          (.buffer handshake.authSig) = .ok () ∧
        (∃ (shared : Bytes) (k₁ k₂ : ByteArr 32),
          Curve25519.diffieHellman D (.buffer (Curve25519.generateKeyPair D b).privateKey)
            (.buffer handshake.ephemeral) = .ok shared ∧
          HKDF.derive E P (.buffer sessionSalt) (.buffer shared)
            (.buffer (handshake.identity ++ (Curve25519.generateKeyPair D b).publicKey))
            (.number (HKDF.totalLength [32, 32])) = .ok (k₁.1 ++ k₂.1) ∧
          keys = ⟨.buffer k₁.1, .buffer k₂.1⟩) ∧
        ∀ e, handshake.ephemeral = (Curve25519.generateKeyPair D e).publicKey →
          initiatorKeys D E P handshake.identity (Curve25519.generateKeyPair D e)
            (Curve25519.generateKeyPair D b).publicKey = .ok keys := by
  refine ⟨?_, ?_⟩
  · intro a e random
    obtain ⟨handshake, h_initiate, -, -, k₁, k₂, h_accept⟩ :=
      exists_handshake sha512 E L LP a e b random
    exact ⟨handshake, _, h_initiate, h_accept⟩
  · intro handshake keys h
    obtain ⟨u, h_verify, h_rest⟩ := bind_eq_ok_iff.mp h
    obtain ⟨shared, h_shared, h_keys⟩ := bind_eq_ok_iff.mp h_rest
    obtain ⟨k₁, k₂, h_okm, h_derived⟩ := exists_deriveKeys E LP shared handshake.identity
      (Curve25519.generateKeyPair D b).publicKey
    rw [h_derived] at h_keys
    exact ⟨h_verify, ⟨shared, k₁, k₂, h_shared, h_okm, (Except.ok.inj h_keys).symm⟩,
      fun e h_ephemeral => initiatorKeys_of_accept sha512 E L h_ephemeral h⟩

theorem handshake_agrees_zero :
    ∃ handshake keys,
      accept edwards25519 Sha2.sha512 plainEngine rustCrypto
          (Curve25519.generateKeyPair edwards25519 (ByteArr.replicate 32 2)) handshake =
        .ok keys ∧
      initiatorKeys edwards25519 plainEngine rustCrypto handshake.identity
          (Curve25519.generateKeyPair edwards25519 (ByteArr.replicate 32 1))
          (Curve25519.generateKeyPair edwards25519 (ByteArr.replicate 32 2)).publicKey =
        .ok keys := by
  obtain ⟨handshake, h_initiate, -, h_ephemeral, k₁, k₂, h_accept⟩ :=
    exists_handshake Sha2.sha512 plainEngine edwards25519_lawful rustCrypto_lawful
      (ByteArr.replicate 32 0) (ByteArr.replicate 32 1) (ByteArr.replicate 32 2)
      (ByteArr.replicate 64 0)
  exact ⟨handshake, _, h_accept,
    ((handshake_agrees Sha2.sha512 plainEngine edwards25519_lawful rustCrypto_lawful
      (ByteArr.replicate 32 2)).2 _ _ h_accept).2.2 _ h_ephemeral⟩

/-! ### The channel is reliable -/

/-- One key of 32 bytes on both sides makes a channel that works. -/
theorem channel_works (h : C.Lawful P S) (key : ByteArr 32) :
    (channel P C (.buffer key.1) (.buffer key.1)).Works (Sendable S.aes256GcmLimits)
      (Within S.aes256GcmLimits) where
  exists_send {message} h_message := by
    have h_enc : AES_GCM.encryptWithAad P C (.buffer key.1) (.buffer message.nonce.1)
        (.buffer message.body) (.buffer message.header) =
          .ok (S.aes256Gcm.encrypt key message.nonce message.body message.header) :=
      (AES_GCM.encryptWithAad_returns P C _ _ _ _ _).mpr ⟨key, message.nonce, message.body,
        message.header, rfl, rfl, rfl, rfl, h.aes256Gcm.encrypt_eq_some_iff.mpr ⟨h_message, rfl⟩⟩
    exact ⟨_, bind_eq_ok_iff.mpr ⟨_, h_enc, rfl⟩⟩
  receive_of_send {message packet} h_send := by
    obtain ⟨ciphertext, h_enc, h_ret⟩ := bind_eq_ok_iff.mp h_send
    obtain rfl := Except.ok.inj h_ret
    exact ((AES_GCM.inverse h).withAad_buffer.mp h_enc).2
  send_of_receive {packet body} h_receive h_within := by
    -- a packet that is accepted has a nonce of the right length
    obtain ⟨-, n, -, -, -, h_n, -, -, -⟩ := (AES_GCM.decrypt_returns h _ _ _ _ _).mp h_receive
    have h_nonce : packet.nonce = n.1 := JsValue.buffer.inj h_n
    have h_enc := (AES_GCM.inverse h).withAad_buffer.mpr ⟨h_within, h_receive⟩
    rw [h_nonce] at h_enc
    refine ⟨⟨n, packet.header, body⟩, rfl, bind_eq_ok_iff.mpr ⟨packet.ciphertext, h_enc, ?_⟩⟩
    rw [← h_nonce]
    rfl

/-- **A session**: after an honest handshake, each side with the keys that it derived itself, the
channels of both directions are reliable over every run, for all messages within the limits. -/
theorem session_reliable (L : D.Lawful) (LP : P.Lawful) (LC : C.Lawful P S) (a e b : ByteArr 32)
    (random : ByteArr 64) :
    ∃ handshake initiator responder,
      initiate D sha512 random (Curve25519.generateKeyPair D a)
        (Curve25519.generateKeyPair D e) = .ok handshake ∧
      initiatorKeys D E P (Curve25519.generateKeyPair D a).publicKey
        (Curve25519.generateKeyPair D e) (Curve25519.generateKeyPair D b).publicKey =
          .ok initiator ∧
      accept D sha512 E P (Curve25519.generateKeyPair D b) handshake = .ok responder ∧
      Reliable (channel P C initiator.sendKey responder.sendKey) (Sendable S.aes256GcmLimits)
        (Within S.aes256GcmLimits) ∧
      Reliable (channel P C responder.recvKey initiator.recvKey) (Sendable S.aes256GcmLimits)
        (Within S.aes256GcmLimits) := by
  obtain ⟨handshake, h_initiate, h_identity, h_ephemeral, k₁, k₂, h_accept⟩ :=
    exists_handshake sha512 E L LP a e b random
  have h_keys := initiatorKeys_of_accept sha512 E L h_ephemeral h_accept
  rw [h_identity] at h_keys
  exact ⟨handshake, _, _, h_initiate, h_keys, h_accept, (channel_works LC k₁).reliable,
    (channel_works LC k₂).reliable⟩

/-- A session in which the initiator sends one byte. -/
theorem session_reliable_byte :
    ∃ handshake, ∃ initiator responder : Keys,
      initiate edwards25519 Sha2.sha512 (ByteArr.replicate 64 0)
        (Curve25519.generateKeyPair edwards25519 (ByteArr.replicate 32 0))
        (Curve25519.generateKeyPair edwards25519 (ByteArr.replicate 32 1)) = .ok handshake ∧
      accept edwards25519 Sha2.sha512 plainEngine (withRealCiphers rustCrypto)
        (Curve25519.generateKeyPair edwards25519 (ByteArr.replicate 32 2)) handshake =
          .ok responder ∧
      Reliable (channel (withRealCiphers rustCrypto) realCiphers initiator.sendKey
        responder.sendKey) (Sendable aesGcmLimits) (Within aesGcmLimits) ∧
      ∃ packet, (run (channel (withRealCiphers rustCrypto) realCiphers initiator.sendKey
        responder.sendKey) [.send ⟨ByteArr.replicate 12 3, [4], [5]⟩]).sent =
          [(⟨ByteArr.replicate 12 3, [4], [5]⟩, packet)] := by
  obtain ⟨handshake, initiator, responder, h_initiate, -, h_accept, h, -⟩ :=
    session_reliable Sha2.sha512 plainEngine edwards25519_lawful
      (withRealCiphers_lawful rustCrypto_lawful) (realCiphers_lawful rustCrypto)
      (ByteArr.replicate 32 0) (ByteArr.replicate 32 1) (ByteArr.replicate 32 2)
      (ByteArr.replicate 64 0)
  exact ⟨handshake, initiator, responder, h_initiate, h_accept, h, h.send [] _ rfl⟩

end Session

end Core

end SignalisCore

import SignalisCore.Facade.CbcInverse
import SignalisCore.Facade.Hashing
import SignalisCore.Library.PacketChannel

/-!
# AES-CBC under HMAC

The composition that the documentation calls the only safe way to use `AES_CBC`: the tag covers the
initialization vector and the ciphertext, and nothing is decrypted before the tag is verified.

* `encryptThenMac_reliable`: under keys of the right types every message can be sent, over any
  network what was sent arrives whenever it is delivered, and what is decrypted is exactly what
  could have been sent.
* `encryptThenMac_tampered`: what the receiver does with a packet under the tag of another one.
-/

namespace SignalisCore

open LittleEndian PacketChannel

namespace Core

namespace EncryptThenMac

variable (C : Ciphers) (H : Hashes) (N : NodeBuffer)

/-- What is to be sent, and the initialization vector that is drawn for it. -/
structure Message where
  iv : ByteArr 16
  plaintext : Bytes

structure Packet where
  iv : Bytes
  ct : Bytes
  tag : Bytes

def send (encKey macKey : JsValue) (message : Message) : Except JsError Packet := do
  let ct ← AES_CBC.encrypt C encKey (.buffer message.iv.1) (.buffer message.plaintext)
  let data ← concatBuffers N [message.iv.1, ct]
  let tag ← HMAC.sha256 H macKey (.buffer data)
  return ⟨message.iv.1, ct, tag⟩

/-- Nothing is returned where the branch of the verified tag is not taken. -/
def receive (encKey macKey : JsValue) (packet : Packet) : Except JsError (Option Bytes) := do
  let data ← concatBuffers N [packet.iv, packet.ct]
  let valid ← HMAC.verifySha256 H macKey (.buffer data) (.buffer packet.tag)
  if valid then
    let pt ← AES_CBC.decrypt C encKey (.buffer packet.iv) (.buffer packet.ct)
    return some pt
  else return none

/-- Why there is no plaintext. -/
inductive Refusal
  | thrown (e : JsError)
  | badTag

/-- A plaintext, or why there is none. -/
def opened : Except JsError (Option Bytes) → Except Refusal Bytes
  | .ok (some pt) => .ok pt
  | .ok none => .error .badTag
  | .error e => .error (.thrown e)

def channel (encKey macKey : JsValue) : Channel Message Bytes Packet Refusal :=
  ⟨Message.plaintext, fun message => (send C H N encKey macKey message).mapError .thrown,
    fun packet => opened (receive C H N encKey macKey packet)⟩

/-- The keys have the right types, and the bytes under the tag fit into one buffer. -/
def Sendable (encKey macKey : JsValue) (message : Message) : Prop :=
  (∃ k : ByteArr 32, encKey = .buffer k.1) ∧ (∃ k : Bytes, macKey = .buffer k) ∧
    16 + (message.plaintext.length / 16 + 1) * 16 < 2 ^ 53

/-! ### What both sides do -/

variable {C} {H} {N} {cipher : ByteArr 32 → Equiv.Perm (ByteArr 16)}

/-- A packet that is made. -/
theorem send_eq_ok_iff {encKey macKey : JsValue} {message : Message} {packet : Packet} :
    send C H N encKey macKey message = .ok packet ↔
      packet.iv = message.iv.1 ∧
        AES_CBC.encrypt C encKey (.buffer packet.iv) (.buffer message.plaintext) =
          .ok packet.ct ∧
        (packet.iv ++ packet.ct).length < 2 ^ 53 ∧
        ∃ k : Bytes, macKey = .buffer k ∧ Node.hmacSha256 H k (packet.iv ++ packet.ct) =
          packet.tag := by
  simp only [send, bind_eq_ok_iff, concatBuffers_pair_eq_ok_iff, HMAC.sha256,
    HMAC.macWith_eq_ok_iff]
  refine ⟨?_, ?_⟩
  · rintro ⟨ct, h_ct, _, ⟨h_len, rfl⟩, tag, ⟨k, h_k, h_tag⟩, ⟨⟩⟩
    exact ⟨rfl, h_ct, h_len, k, h_k, h_tag⟩
  · obtain ⟨iv, ct, tag⟩ := packet
    rintro ⟨rfl, h_ct, h_len, k, h_k, h_tag⟩
    exact ⟨ct, h_ct, _, ⟨h_len, rfl⟩, tag, ⟨k, h_k, h_tag⟩, rfl⟩

/-- The tag comes first: what is decrypted has a valid one. -/
theorem receive_buffer (L : H.Lawful) (encKey : JsValue) (k : Bytes) (packet : Packet)
    (h : (packet.iv ++ packet.ct).length < 2 ^ 53) :
    receive C H N encKey (.buffer k) packet =
      if Node.hmacSha256 H k (packet.iv ++ packet.ct) = packet.tag then
        (AES_CBC.decrypt C encKey (.buffer packet.iv) (.buffer packet.ct)).map some
      else .ok none := by
  have h_concat : concatBuffers N [packet.iv, packet.ct] = .ok (packet.iv ++ packet.ct) :=
    concatBuffers_pair_eq_ok_iff.mpr ⟨h, rfl⟩
  rw [receive, h_concat, ok_bind, HMAC.verifySha256_buffer L, ok_bind]
  simp only [decide_eq_true_eq]
  split_ifs with h_tag
  · rcases AES_CBC.decrypt C encKey (.buffer packet.iv) (.buffer packet.ct) with e | pt <;> rfl
  · rfl

/-- A packet that is decrypted. -/
theorem receive_eq_some_iff (L : H.Lawful) {encKey macKey : JsValue} {packet : Packet}
    {pt : Bytes} :
    receive C H N encKey macKey packet = .ok (some pt) ↔
      (packet.iv ++ packet.ct).length < 2 ^ 53 ∧
        (∃ k : Bytes, macKey = .buffer k ∧
          Node.hmacSha256 H k (packet.iv ++ packet.ct) = packet.tag) ∧
        AES_CBC.decrypt C encKey (.buffer packet.iv) (.buffer packet.ct) = .ok pt := by
  -- past the guards, the tag decides
  have h_buffer (k : Bytes) (h_len : (packet.iv ++ packet.ct).length < 2 ^ 53) :
      receive C H N encKey (.buffer k) packet = .ok (some pt) ↔
        Node.hmacSha256 H k (packet.iv ++ packet.ct) = packet.tag ∧
          AES_CBC.decrypt C encKey (.buffer packet.iv) (.buffer packet.ct) = .ok pt := by
    rw [receive_buffer L encKey k packet h_len]
    split_ifs with h_tag
    · rcases AES_CBC.decrypt C encKey (.buffer packet.iv) (.buffer packet.ct) with e | p <;>
        simp [h_tag, Except.map]
    · simp [h_tag]
  refine ⟨?_, ?_⟩
  · intro h
    obtain ⟨data, h_data, h_rest⟩ := bind_eq_ok_iff.mp h
    obtain ⟨valid, h_valid, -⟩ := bind_eq_ok_iff.mp h_rest
    obtain ⟨k, h_k, -⟩ := bind_eq_ok_iff.mp h_valid
    obtain rfl := assertBuffer_eq_ok_iff.mp h_k
    have h_len := (concatBuffers_pair_eq_ok_iff.mp h_data).1
    obtain ⟨h_tag, h_dec⟩ := (h_buffer k h_len).mp h
    exact ⟨h_len, ⟨k, rfl, h_tag⟩, h_dec⟩
  · rintro ⟨h_len, ⟨k, rfl, h_tag⟩, h_dec⟩
    exact (h_buffer k h_len).mpr ⟨h_tag, h_dec⟩

/-! ### The channel -/

theorem opened_eq_ok_iff {result : Except JsError (Option Bytes)} {pt : Bytes} :
    opened result = .ok pt ↔ result = .ok (some pt) := by
  rcases result with e | _ | p <;> simp [opened]

/-- What is decrypted is exactly what could have been sent. -/
theorem receive_iff_send (LC : C.aes256Cbc.Lawful cipher) (L : H.Lawful)
    {encKey macKey : JsValue} {packet : Packet} {pt : Bytes} :
    receive C H N encKey macKey packet = .ok (some pt) ↔
      ∃ message : Message, message.plaintext = pt ∧
        send C H N encKey macKey message = .ok packet := by
  simp only [receive_eq_some_iff L, send_eq_ok_iff, ← AES_CBC.encrypt_iff_decrypt LC]
  refine ⟨?_, ?_⟩
  · rintro ⟨h_len, h_tag, h_enc⟩
    -- the initialization vector of what was encrypted has sixteen bytes
    obtain ⟨-, i, -, -, h_iv, -⟩ := AES_CBC.encrypt_eq_ok_iff.mp h_enc
    exact ⟨⟨i, pt⟩, rfl, JsValue.buffer.inj h_iv, h_enc, h_len, h_tag⟩
  · rintro ⟨message, rfl, -, h_enc, h_len, h_tag⟩
    exact ⟨h_len, h_tag, h_enc⟩

theorem exists_send (LC : C.aes256Cbc.Lawful cipher) {encKey macKey : JsValue} {message : Message}
    (h : Sendable encKey macKey message) :
    ∃ packet, send C H N encKey macKey message = .ok packet := by
  obtain ⟨⟨k, rfl⟩, ⟨m, rfl⟩, h_len⟩ := h
  let ct := Aes256Cbc.encrypt C k message.iv message.plaintext
  have h_ct : ct.length = (message.plaintext.length / 16 + 1) * 16 :=
    Aes256Cbc.length_encrypt LC k message.iv message.plaintext
  refine ⟨⟨message.iv.1, ct, Node.hmacSha256 H m (message.iv.1 ++ ct)⟩,
    send_eq_ok_iff.mpr ⟨rfl, ?_, ?_, m, rfl, rfl⟩⟩
  · exact AES_CBC.encrypt_eq_ok_iff.mpr ⟨k, message.iv, message.plaintext, rfl, rfl, rfl, rfl⟩
  · rw [List.length_append, message.iv.2, h_ct]
    exact h_len

/-- **The channel is reliable** over every run, whatever the network does. -/
theorem encryptThenMac_reliable (LC : C.aes256Cbc.Lawful cipher) (L : H.Lawful)
    (encKey macKey : JsValue) :
    Reliable (channel C H N encKey macKey) (Sendable encKey macKey) fun _ _ => True := by
  refine Channel.Works.reliable ⟨?_, ?_, ?_⟩
  · intro message h_message
    obtain ⟨packet, h_send⟩ := exists_send (H := H) (N := N) LC h_message
    exact ⟨packet, mapError_eq_ok_iff.mpr h_send⟩
  · intro message packet h_send
    exact opened_eq_ok_iff.mpr ((receive_iff_send LC L).mpr
      ⟨message, rfl, mapError_eq_ok_iff.mp h_send⟩)
  · intro packet pt h_receive _
    obtain ⟨message, h_pt, h_send⟩ :=
      (receive_iff_send LC L).mp (opened_eq_ok_iff.mp h_receive)
    exact ⟨message, h_pt, mapError_eq_ok_iff.mpr h_send⟩

/-- One byte is sent. -/
theorem encryptThenMac_reliable_byte :
    let ch := channel realCiphers rustHashes plainBuffer (.buffer (List.replicate 32 1))
      (.buffer (List.replicate 32 2))
    Reliable ch (Sendable (.buffer (List.replicate 32 1)) (.buffer (List.replicate 32 2)))
        (fun _ _ => True) ∧
      ∃ packet, (run ch [.send ⟨ByteArr.replicate 16 3, [4]⟩]).sent =
        [(⟨ByteArr.replicate 16 3, [4]⟩, packet)] := by
  intro ch
  have h := encryptThenMac_reliable (N := plainBuffer) (realCiphers_lawful rustCrypto).aes256Cbc
    rustHashes_lawful (.buffer (List.replicate 32 1)) (.buffer (List.replicate 32 2))
  exact ⟨h, h.send [] _ ⟨⟨ByteArr.replicate 32 1, rfl⟩, ⟨_, rfl⟩, by decide⟩⟩

/-! ### Tampering -/

/-- A packet is determined by the bytes under its tag, the place where they are cut, and the tag. -/
theorem Packet.eq_of_append_eq {p q : Packet} (h_data : p.iv ++ p.ct = q.iv ++ q.ct)
    (h_iv : p.iv.length = q.iv.length) (h_tag : p.tag = q.tag) : p = q := by
  obtain ⟨h_iv, h_ct⟩ := List.append_inj h_data h_iv
  cases p
  cases q
  simp_all

/-- An initialization vector of another length is refused before anything is decrypted. -/
theorem decrypt_of_iv_length (k : ByteArr 32) {iv : Bytes} (h : iv.length ≠ 16) (ct : Bytes) :
    ∃ e, AES_CBC.decrypt C (.buffer k.1) (.buffer iv) (.buffer ct) = .error e ∧
      e.cls = .validationError := by
  rw [AES_CBC.decrypt, assertBufferOfSize_buffer k.2, ok_bind, assertBufferOfSize,
    assertBuffer_buffer, ok_bind, assertBufferLength, if_pos h]
  exact ⟨_, rfl, rfl⟩

/-- **Tampering**: another packet under the tag of one that was sent is not decrypted. Its tag is
found to be wrong, or its initialization vector to be of the wrong length, and no error tells
anything about a padding; or else the two packets are a collision of HMAC. -/
theorem encryptThenMac_tampered (L : H.Lawful) {encKey : JsValue} {k : Bytes} {message : Message}
    {sent packet : Packet} (h_sent : send C H N encKey (.buffer k) message = .ok sent)
    (h_tag : packet.tag = sent.tag) (h_ne : packet ≠ sent)
    (h_len : (packet.iv ++ packet.ct).length < 2 ^ 53) :
    receive C H N encKey (.buffer k) packet = .ok none ∨
    (packet.iv.length ≠ 16 ∧
      ∃ e, receive C H N encKey (.buffer k) packet = .error e ∧ e.cls = .validationError) ∨
    (packet.iv ++ packet.ct ≠ sent.iv ++ sent.ct ∧
      HMAC.sha256 H (.buffer k) (.buffer (packet.iv ++ packet.ct)) =
        HMAC.sha256 H (.buffer k) (.buffer (sent.iv ++ sent.ct))) := by
  obtain ⟨h_iv, h_enc, -, _, ⟨⟩, h_sent_tag⟩ := send_eq_ok_iff.mp h_sent
  have h_iv_length : sent.iv.length = 16 := by rw [h_iv, message.iv.2]
  rw [receive_buffer L encKey k packet h_len]
  split_ifs with h_valid
  · refine .inr ?_
    by_cases h_data : packet.iv ++ packet.ct = sent.iv ++ sent.ct
    -- the same bytes, cut in another place
    · have h_length : packet.iv.length ≠ 16 := fun h_length =>
        h_ne (Packet.eq_of_append_eq h_data (h_length.trans h_iv_length.symm) h_tag)
      obtain ⟨key, -, -, rfl, -⟩ := AES_CBC.encrypt_eq_ok_iff.mp h_enc
      obtain ⟨e, h_e, h_cls⟩ := decrypt_of_iv_length (C := C) key h_length packet.ct
      exact .inl ⟨h_length, e, by rw [h_e]; rfl, h_cls⟩
    · refine .inr ⟨h_data, ?_⟩
      change Except.ok (Node.hmacSha256 H k _) = Except.ok (Node.hmacSha256 H k _)
      rw [h_valid, h_tag, h_sent_tag]
  · exact .inl rfl

/-- One byte is encrypted and the tag put on the ciphertext without its initialization vector. -/
theorem encryptThenMac_tampered_byte : ∃ sent : Packet,
    send realCiphers rustHashes plainBuffer (.buffer (List.replicate 32 1)) (.buffer [2])
      ⟨ByteArr.replicate 16 3, [4]⟩ = .ok sent ∧ sent.ct.length = 16 ∧
    (receive realCiphers rustHashes plainBuffer (.buffer (List.replicate 32 1)) (.buffer [2])
        ⟨[], sent.ct, sent.tag⟩ = .ok none ∨
      (([] : Bytes).length ≠ 16 ∧
        ∃ e, receive realCiphers rustHashes plainBuffer (.buffer (List.replicate 32 1))
          (.buffer [2]) ⟨[], sent.ct, sent.tag⟩ = .error e ∧ e.cls = .validationError) ∨
      (([] : Bytes) ++ sent.ct ≠ sent.iv ++ sent.ct ∧
        HMAC.sha256 rustHashes (.buffer [2]) (.buffer ([] ++ sent.ct)) =
          HMAC.sha256 rustHashes (.buffer [2]) (.buffer (sent.iv ++ sent.ct)))) := by
  have LC := (realCiphers_lawful rustCrypto).aes256Cbc
  obtain ⟨sent, h_sent⟩ := exists_send (H := rustHashes) (N := plainBuffer) LC
    (show Sendable (.buffer (List.replicate 32 1)) (.buffer [2]) ⟨ByteArr.replicate 16 3, [4]⟩ from
      ⟨⟨ByteArr.replicate 32 1, rfl⟩, ⟨_, rfl⟩, by decide⟩)
  obtain ⟨h_iv, h_enc, h_len, -⟩ := send_eq_ok_iff.mp h_sent
  have h_ct : sent.ct.length = 16 := AES_CBC.length_of_encrypt LC h_enc
  refine ⟨sent, h_sent, h_ct, encryptThenMac_tampered rustHashes_lawful h_sent rfl ?_ ?_⟩
  · intro h_eq
    have h_nil : ([] : Bytes) = (ByteArr.replicate 16 3).1 :=
      (congrArg Packet.iv h_eq).trans h_iv
    exact absurd h_nil (by decide)
  · rw [List.nil_append, h_ct]
    norm_num

end EncryptThenMac

end Core

end SignalisCore

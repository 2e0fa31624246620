import SignalisCore.Facade.DeriveMultiple
import SignalisCore.Facade.Hashing
import SignalisCore.Facade.SharedSecrets

/-!
# Triple DH

The documented composition of three key agreements and one key derivation. The initiator has an
identity key and an ephemeral key, the responder an identity key and a signed prekey.

* `tripleDH_agrees`: the root key is what the responder derives from its own private keys.
* `tripleDH_eq_iff`: which keys of the responder the root key tells apart.
* `tripleDH_smallOrder`: from which keys of the responder a private key of the initiator has no
  part in it.
-/

namespace SignalisCore

open Binary64 Curve25519 Ecma LittleEndian

namespace Core

namespace TripleDH

variable (D : Dalek) (E : Engine) (P : Primitives) (N : NodeBuffer)

/-- `Buffer.from('Signal_X3DH_v1')`. -/
def info : Bytes := "Signal_X3DH_v1".toUTF8.toList

/-- The input key material of the derivation. -/
def keyMaterial (ikAPriv ekAPriv ikBPub spkBPub : JsValue) : Except JsError Bytes := do
  let dh1 ← Core.Curve25519.diffieHellman D ikAPriv spkBPub
  let dh2 ← Core.Curve25519.diffieHellman D ekAPriv ikBPub
  let dh3 ← Core.Curve25519.diffieHellman D ekAPriv spkBPub
  concatBuffers N [dh1, dh2, dh3]

/-- The root key and the chain key, under a salt of 32 zeros. -/
def rootKey (ikm : Bytes) : Except JsError Bytes :=
  HKDF.derive E P (.buffer (List.replicate 32 0)) (.buffer ikm) (.buffer info) (.number 64)

def tripleDH (ikAPriv ekAPriv ikBPub spkBPub : JsValue) : Except JsError Bytes := do
  let ikm ← keyMaterial D N ikAPriv ekAPriv ikBPub spkBPub
  rootKey E P ikm

variable {D} {E} {P} {N}

/-! ### The key material -/

theorem concatBuffers_secrets (a b c : ByteArr 32) :
    concatBuffers N [a.1, b.1, c.1] = .ok (a.1 ++ b.1 ++ c.1) := by
  have h_flatten : [a.1, b.1, c.1].flatten = a.1 ++ b.1 ++ c.1 := by simp
  have h_len : (a.1 ++ b.1 ++ c.1).length = 96 := by
    rw [List.length_append, List.length_append, a.2, b.2, c.2]
  rw [concatBuffers, h_flatten, if_pos (by omega)]

/-- Three secrets of 32 bytes, one after the other. -/
theorem keyMaterial_arrays (ik ek u v : ByteArr 32) :
    keyMaterial D N (.buffer ik.1) (.buffer ek.1) (.buffer u.1) (.buffer v.1) =
      .ok ((D.mulClamped v (maskEnds 248 127 64 ik)).1 ++
        (D.mulClamped u (maskEnds 248 127 64 ek)).1 ++
        (D.mulClamped v (maskEnds 248 127 64 ek)).1) := by
  rw [keyMaterial, diffieHellman_arrays, ok_bind, diffieHellman_arrays, ok_bind,
    diffieHellman_arrays, ok_bind, concatBuffers_secrets]

theorem append_inj_arrays {a b c a' b' c' : ByteArr 32} :
    a.1 ++ b.1 ++ c.1 = a'.1 ++ b'.1 ++ c'.1 ↔ a = a' ∧ b = b' ∧ c = c' := by
  refine ⟨?_, ?_⟩
  · intro h
    obtain ⟨h_ab, h_c⟩ := List.append_inj' h (c.2.trans c'.2.symm)
    obtain ⟨h_a, h_b⟩ := List.append_inj' h_ab (b.2.trans b'.2.symm)
    exact ⟨Subtype.ext h_a, Subtype.ext h_b, Subtype.ext h_c⟩
  · rintro ⟨rfl, rfl, rfl⟩
    rfl

/-- The key material determines both keys of the responder, as far as X25519 does. -/
theorem keyMaterial_eq_iff (L : D.Lawful) (T : D.TwistLawful) (ik ek u v u' v' : ByteArr 32) :
    keyMaterial D N (.buffer ik.1) (.buffer ek.1) (.buffer u.1) (.buffer v.1) =
        keyMaterial D N (.buffer ik.1) (.buffer ek.1) (.buffer u'.1) (.buffer v'.1) ↔
      SamePeer D u u' ∧ SamePeer D v v' := by
  rw [keyMaterial_arrays, keyMaterial_arrays, Except.ok.injEq, append_inj_arrays,
    mulClamped_eq_iff L T, mulClamped_eq_iff L T, mulClamped_eq_iff L T]
  exact ⟨fun ⟨_, h_u, h_v⟩ => ⟨h_u, h_v⟩, fun ⟨h_u, h_v⟩ => ⟨h_v, h_u, h_v⟩⟩

/-! ### The root key -/

theorem exists_rootKey (LP : P.Lawful) (ikm : Bytes) :
    ∃ root : ByteArr 64, rootKey E P ikm = .ok root.1 := by
  have h_view : view 64 = .fin (64 : ℕ) := view_ofNat (by norm_num)
  obtain ⟨okm, h_okm, h_len⟩ := HKDF.derive_of_view E LP (List.replicate 32 0) ikm info h_view
    (by norm_num)
  exact ⟨⟨okm, h_len⟩, h_okm⟩

/-- **Agreement**: for all private keys, the root key is made of the three secrets as the responder
computes them. -/
theorem tripleDH_agrees (L : D.Lawful) (LP : P.Lawful) (ik ek ib spk : ByteArr 32) :
    let ikA := Core.Curve25519.generateKeyPair D ik
    let ekA := Core.Curve25519.generateKeyPair D ek
    let ikB := Core.Curve25519.generateKeyPair D ib
    let spkB := Core.Curve25519.generateKeyPair D spk
    ∃ (dh1 dh2 dh3 ikm : Bytes) (root : ByteArr 64),
      Core.Curve25519.diffieHellman D (.buffer spkB.privateKey) (.buffer ikA.publicKey) =
          .ok dh1 ∧
        Core.Curve25519.diffieHellman D (.buffer ikB.privateKey) (.buffer ekA.publicKey) =
          .ok dh2 ∧
        Core.Curve25519.diffieHellman D (.buffer spkB.privateKey) (.buffer ekA.publicKey) =
          .ok dh3 ∧
        concatBuffers N [dh1, dh2, dh3] = .ok ikm ∧ rootKey E P ikm = .ok root.1 ∧
        tripleDH D E P N (.buffer ikA.privateKey) (.buffer ekA.privateKey) (.buffer ikB.publicKey)
          (.buffer spkB.publicKey) = .ok root.1 := by
  intro ikA ekA ikB spkB
  obtain ⟨dh1, h_a1, h_b1⟩ := diffieHellman_generated L ik spk
  obtain ⟨dh2, h_a2, h_b2⟩ := diffieHellman_generated L ek ib
  obtain ⟨dh3, h_a3, h_b3⟩ := diffieHellman_generated L ek spk
  obtain ⟨root, h_root⟩ := exists_rootKey (E := E) LP (dh1.1 ++ dh2.1 ++ dh3.1)
  have h_ikm : concatBuffers N [dh1.1, dh2.1, dh3.1] = .ok (dh1.1 ++ dh2.1 ++ dh3.1) :=
    concatBuffers_secrets dh1 dh2 dh3
  refine ⟨dh1.1, dh2.1, dh3.1, _, root, h_b1, h_b2, h_b3, h_ikm, h_root, ?_⟩
  rw [tripleDH, keyMaterial, h_a1, ok_bind, h_a2, ok_bind, h_a3, ok_bind, h_ikm, ok_bind, h_root]

theorem tripleDH_agrees_zero :
    let keyPair (byte : UInt8) :=
      Core.Curve25519.generateKeyPair edwards25519 (ByteArr.replicate 32 byte)
    ∃ dh1 ikm root : Bytes,
      Core.Curve25519.diffieHellman edwards25519 (.buffer (keyPair 3).privateKey)
          (.buffer (keyPair 0).publicKey) = .ok dh1 ∧
        dh1 <+: ikm ∧ rootKey plainEngine rustCrypto ikm = .ok root ∧
        tripleDH edwards25519 plainEngine rustCrypto plainBuffer
          (.buffer (keyPair 0).privateKey) (.buffer (keyPair 1).privateKey)
          (.buffer (keyPair 2).publicKey) (.buffer (keyPair 3).publicKey) = .ok root := by
  intro keyPair
  obtain ⟨dh1, dh2, dh3, ikm, root, h_dh1, -, -, h_ikm, h_root, h_eq⟩ :=
    tripleDH_agrees (E := plainEngine) (N := plainBuffer) edwards25519_lawful rustCrypto_lawful
      (ByteArr.replicate 32 0) (ByteArr.replicate 32 1) (ByteArr.replicate 32 2)
      (ByteArr.replicate 32 3)
  refine ⟨dh1, ikm, root.1, h_dh1, ?_, h_root, h_eq⟩
  unfold concatBuffers at h_ikm
  split_ifs at h_ikm
  cases h_ikm
  exact List.prefix_append dh1 _

/-- **Which keys of the responder the root key tells apart**: the input of HKDF tells them apart as
far as X25519 does, so keys that X25519 does not tell apart have one root key, and other keys have
one only where HKDF has one for two different inputs. -/
theorem tripleDH_eq_iff (L : D.Lawful) (T : D.TwistLawful) (ik ek u v u' v' : ByteArr 32) :
    (keyMaterial D N (.buffer ik.1) (.buffer ek.1) (.buffer u.1) (.buffer v.1) =
        keyMaterial D N (.buffer ik.1) (.buffer ek.1) (.buffer u'.1) (.buffer v'.1) ↔
      SamePeer D u u' ∧ SamePeer D v v') ∧
    (tripleDH D E P N (.buffer ik.1) (.buffer ek.1) (.buffer u.1) (.buffer v.1) =
        tripleDH D E P N (.buffer ik.1) (.buffer ek.1) (.buffer u'.1) (.buffer v'.1) ↔
      (SamePeer D u u' ∧ SamePeer D v v') ∨
        ∃ ikm ikm' : Bytes, ikm ≠ ikm' ∧ rootKey E P ikm = rootKey E P ikm' ∧
          keyMaterial D N (.buffer ik.1) (.buffer ek.1) (.buffer u.1) (.buffer v.1) = .ok ikm ∧
          keyMaterial D N (.buffer ik.1) (.buffer ek.1) (.buffer u'.1) (.buffer v'.1) =
            .ok ikm') := by
  refine ⟨keyMaterial_eq_iff L T ik ek u v u' v', ?_⟩
  rw [tripleDH, tripleDH, ← keyMaterial_eq_iff (N := N) L T ik ek, keyMaterial_arrays,
    keyMaterial_arrays, ok_bind, ok_bind]
  refine ⟨?_, ?_⟩
  · intro h
    -- the key material is the same, or the two inputs are different
    exact (em _).imp_right fun h_ne =>
      ⟨_, _, fun h_eq => h_ne (congrArg Except.ok h_eq), h, rfl, rfl⟩
  · rintro (h | ⟨ikm, ikm', -, h, ⟨⟩, ⟨⟩⟩)
    · rw [Except.ok.inj h]
    · exact h

/-- The basepoint as the identity key, with bit 255 clear and set; and a generated prekey instead of
the identity. -/
theorem tripleDH_eq_iff_basepoint :
    let ik : JsValue := .buffer (List.replicate 32 0)
    let ek : JsValue := .buffer (List.replicate 32 1)
    let u : JsValue := .buffer (ByteArr.ofLe 32 9).1
    let u' : JsValue := .buffer (ByteArr.ofLe 32 (9 + 2 ^ 255)).1
    let v : JsValue := .buffer (edwards25519.mulBaseClamped (ByteArr.replicate 32 2)).1
    let zero : JsValue := .buffer (List.replicate 32 0)
    tripleDH edwards25519 plainEngine rustCrypto plainBuffer ik ek u zero =
        tripleDH edwards25519 plainEngine rustCrypto plainBuffer ik ek u' zero ∧
      keyMaterial edwards25519 plainBuffer ik ek u v ≠
        keyMaterial edwards25519 plainBuffer ik ek u' zero := by
  intro ik ek u u' v zero
  have h_zero := smallOrder_zero edwards25519_lawful
  have h (v v' : ByteArr 32) := tripleDH_eq_iff (E := plainEngine) (P := rustCrypto)
    (N := plainBuffer) edwards25519_lawful edwards25519_twistLawful (ByteArr.replicate 32 0)
    (ByteArr.replicate 32 1) (ByteArr.ofLe 32 9) v (ByteArr.ofLe 32 (9 + 2 ^ 255)) v'
  refine ⟨(h (ByteArr.replicate 32 0) (ByteArr.replicate 32 0)).2.mpr
    (.inl ⟨samePeer_basepoint, .inl ⟨h_zero, h_zero⟩⟩), fun h_eq => ?_⟩
  exact not_samePeer_zero edwards25519_lawful edwards25519_twistLawful (ByteArr.replicate 32 2)
    ((h _ (ByteArr.replicate 32 0)).1.mp h_eq).2

/-- **Where the initiator's keys have no part**: its identity key, where the prekey has small order,
and only there; and both of its keys, where both keys of the responder have, so that everyone knows
the root key. -/
theorem tripleDH_smallOrder (L : D.Lawful) (T : D.TwistLawful) (u v : ByteArr 32) :
    ((∀ ik ik' ek : ByteArr 32,
        keyMaterial D N (.buffer ik.1) (.buffer ek.1) (.buffer u.1) (.buffer v.1) =
          keyMaterial D N (.buffer ik'.1) (.buffer ek.1) (.buffer u.1) (.buffer v.1)) ↔
      SmallOrder D v) ∧
    ((∀ ik ik' ek ek' : ByteArr 32,
        keyMaterial D N (.buffer ik.1) (.buffer ek.1) (.buffer u.1) (.buffer v.1) =
          keyMaterial D N (.buffer ik'.1) (.buffer ek'.1) (.buffer u.1) (.buffer v.1)) ↔
      SmallOrder D u ∧ SmallOrder D v) ∧
    (SmallOrder D u ∧ SmallOrder D v → ∀ ik ek : ByteArr 32,
      tripleDH D E P N (.buffer ik.1) (.buffer ek.1) (.buffer u.1) (.buffer v.1) =
        rootKey E P (List.replicate 96 0)) := by
  simp only [keyMaterial_arrays, Except.ok.injEq, append_inj_arrays]
  refine ⟨?_, ?_, ?_⟩
  · rw [← mulClamped_const_iff L T v]
    exact ⟨fun h k k' => (h k k' k).1, fun h ik ik' ek => ⟨h ik ik', trivial, trivial⟩⟩
  · rw [← mulClamped_const_iff L T u, ← mulClamped_const_iff L T v]
    exact ⟨fun h => ⟨fun k k' => (h k k k k').2.1, fun k k' => (h k k' k k).1⟩,
      fun ⟨h_u, h_v⟩ ik ik' ek ek' => ⟨h_v ik ik', h_u ek ek', h_v ek ek'⟩⟩
  · rintro ⟨h_u, h_v⟩ ik ek
    rw [tripleDH, keyMaterial_arrays, ok_bind, (mulClamped_eq_zero_iff L T v _).mpr h_v,
      (mulClamped_eq_zero_iff L T u _).mpr h_u, (mulClamped_eq_zero_iff L T v _).mpr h_v]
    rfl

theorem tripleDH_smallOrder_zero :
    tripleDH edwards25519 plainEngine rustCrypto plainBuffer (.buffer (List.replicate 32 1))
        (.buffer (List.replicate 32 2)) (.buffer (List.replicate 32 0))
        (.buffer (List.replicate 32 0)) =
      rootKey plainEngine rustCrypto (List.replicate 96 0) :=
  have h_zero := smallOrder_zero edwards25519_lawful
  (tripleDH_smallOrder edwards25519_lawful edwards25519_twistLawful (ByteArr.replicate 32 0)
    (ByteArr.replicate 32 0)).2.2 ⟨h_zero, h_zero⟩ (ByteArr.replicate 32 1)
      (ByteArr.replicate 32 2)

end TripleDH

end Core

end SignalisCore

import SorobanMlDsa.KeyEncoding

/-! Deterministic signing into a caller-owned buffer: the two length failures leave
the buffer alone, everything else succeeds, and every copy of the verifying key
accepts what was written. -/
namespace SorobanMlDsa

open ByteSlice

/-- `s` verifies under the pair's verifying key, under the one derived from the
signing key, and under the stored encoding read back through any large buffer. -/
structure KeysAccept (P : ParamSet) {D : MlDsaCrate} (kp : Keypair D) (m c s : Bytes) : Prop where
  stored : kp.verifyingKey.verify P m c s = .ok ()
  derived : kp.signingKey.verifyingKey.verify P m c s = .ok ()
  reloaded : ∀ {k : ℕ} (buf : Arr k), P.vkLen ≤ k →
    ∃ n buf' vk, kp.verifyingKey.writeTo P buf = .ok (.ok n,buf') ∧
      VerifyingKey.fromBytes P D (buf'.val.take n) = .ok vk ∧ vk.verify P m c s = .ok ()

/-- The full behaviour of `sign_into` on one message, context and buffer. -/
structure SignsInto (P : ParamSet) {D : MlDsaCrate} (kp : Keypair D) (m c : Bytes) {k : ℕ}
    (out : Arr k) : Prop where
  contextTooLong_iff : (∃ n out', kp.signingKey.signInto P m c out = .ok (.error (.contextTooLong n),out')) ↔
    maxContextLen < c.length
  contextTooLong : maxContextLen < c.length →
    kp.signingKey.signInto P m c out = .ok (.error (.contextTooLong c.length),out)
  bufferTooSmall_iff : (∃ n a out', kp.signingKey.signInto P m c out =
    .ok (.error (.bufferTooSmall n a),out')) ↔ c.length ≤ maxContextLen ∧ k < P.sigLen
  bufferTooSmall : c.length ≤ maxContextLen → k < P.sigLen →
    kp.signingKey.signInto P m c out = .ok (.error (.bufferTooSmall P.sigLen k),out)
  ne_signingFailed : ∀ out', kp.signingKey.signInto P m c out ≠ .ok (.error .signingFailed,out')
  signs : c.length ≤ maxContextLen → P.sigLen ≤ k →
    ∃ out', kp.signingKey.signInto P m c out = .ok (.ok P.sigLen,out') ∧
      out'.val.drop P.sigLen = out.val.drop P.sigLen ∧ KeysAccept P kp m c (out'.val.take P.sigLen)

section

variable {P : ParamSet} {D : MlDsaCrate}

theorem accepts_signed (hC : D.SigningCorrect) (kp : Keypair D) {m c : Bytes} {sig : D.Signature}
    (hsig : D.signDeterministic kp.signing.inner m c = some sig) :
    D.Accepts kp.signing.verifyingKey.inner m c (D.encodeSignature sig).val := by
  obtain ⟨seed,hseed⟩ := kp.seeded
  rw [hseed] at hsig
  refine ⟨sig,?_,?_⟩
  · rw [tryFrom_val]
    exact hC.decode_encode seed m c sig hsig
  · simp only [SigningKey.verifyingKey,hseed]
    exact hC.verify_sign seed m c sig hsig

theorem keysAccept_signed (hS : D.SizesMatch P) (hC : D.SigningCorrect) (hV : D.KeepsVerification)
    (kp : Keypair D) {m c : Bytes} (hc : c.length ≤ maxContextLen) {sig : D.Signature}
    (hsig : D.signDeterministic kp.signing.inner m c = some sig) :
    KeysAccept P kp m c (D.encodeSignature sig).val := by
  have hlen := (Arr.length_val (D.encodeSignature sig)).trans hS.signature
  have hderived : kp.signing.verifyingKey.verify P m c (D.encodeSignature sig).val = .ok () :=
    (VerifyingKey.verify_eq_ok_iff _ m c _).mpr ⟨hc,hlen,accepts_signed hC kp hsig⟩
  have hstored : kp.verifying.verify P m c (D.encodeSignature sig).val = .ok () := by
    rw [kp.matching]
    exact hderived
  refine ⟨hstored,hderived,?_⟩
  intro k buf hk
  obtain ⟨-,-,hfits,-⟩ := VerifyingKey.bufferRoundTrip hS hV kp.verifying
  obtain ⟨buf',vk,hw,-,hr,hsame⟩ := hfits buf hk
  exact ⟨P.vkLen,buf',vk,hw,Except.ok.inj hr,(hsame m c _).symm.trans hstored⟩

/-- Past the two length checks signing succeeds, writes one signature and nothing
after it, and every copy of the verifying key accepts what was written. -/
theorem signInto_succeeds (hS : D.SizesMatch P) (hC : D.SigningCorrect) (hV : D.KeepsVerification)
    (kp : Keypair D) (m : Bytes) {c : Bytes} (hc : c.length ≤ maxContextLen) {k : ℕ} (out : Arr k)
    (hk : P.sigLen ≤ k) :
    ∃ out', kp.signingKey.signInto P m c out = .ok (.ok P.sigLen,out') ∧
      out'.val.drop P.sigLen = out.val.drop P.sigLen ∧ KeysAccept P kp m c (out'.val.take P.sigLen) := by
  obtain ⟨seed,hseed⟩ := kp.seeded
  obtain ⟨sig,hsig⟩ := hC.sign_some seed m c hc
  rw [← hseed] at hsig
  have hlen := (Arr.length_val (D.encodeSignature sig)).trans hS.signature
  obtain ⟨out',hw,hval⟩ := kp.signing.signInto_signed hS hc out hk hsig
  refine ⟨out',hw,?_,?_⟩
  · rw [hval,List.drop_left' hlen]
  · rw [hval,List.take_left' hlen]
    exact keysAccept_signed hS hC hV kp hc hsig

theorem signsInto (hS : D.SizesMatch P) (hC : D.SigningCorrect) (hV : D.KeepsVerification)
    (kp : Keypair D) (m c : Bytes) {k : ℕ} (out : Arr k) : SignsInto P kp m c out := by
  have hlong (hc : maxContextLen < c.length) :
      kp.signingKey.signInto P m c out = .ok (.error (.contextTooLong c.length),out) :=
    kp.signing.signInto_contextTooLong hc m out
  have hshort (hc : c.length ≤ maxContextLen) (hk : k < P.sigLen) :
      kp.signingKey.signInto P m c out = .ok (.error (.bufferTooSmall P.sigLen k),out) :=
    kp.signing.signInto_bufferTooSmall hc m out hk
  have hsign (hc : c.length ≤ maxContextLen) (hk : P.sigLen ≤ k) :=
    signInto_succeeds hS hC hV kp m hc out hk
  -- the three cases are exclusive, so each error is met in its own case only
  rcases Nat.lt_or_ge maxContextLen c.length with hc | hc
  · exact {
      contextTooLong_iff := by simp [hlong hc,hc]
      contextTooLong := hlong
      bufferTooSmall_iff := by simp [hlong hc,Nat.not_le.mpr hc]
      bufferTooSmall := hshort
      ne_signingFailed := by simp [hlong hc]
      signs := hsign }
  · rcases Nat.lt_or_ge k P.sigLen with hk | hk
    · exact {
        contextTooLong_iff := by simp [hshort hc hk,Nat.not_lt.mpr hc]
        contextTooLong := hlong
        bufferTooSmall_iff := by simp [hshort hc hk,hc,hk]
        bufferTooSmall := hshort
        ne_signingFailed := by simp [hshort hc hk]
        signs := hsign }
    · obtain ⟨out',hw,-,-⟩ := hsign hc hk
      exact {
        contextTooLong_iff := by simp [hw,Nat.not_lt.mpr hc]
        contextTooLong := hlong
        bufferTooSmall_iff := by simp [hw,Nat.not_lt.mpr hk]
        bufferTooSmall := hshort
        ne_signingFailed := by simp [hw]
        signs := hsign }

end

/-- Signing with the key of any 32-byte seed is atomic on its buffer and complete. -/
theorem sign_into_atomic_complete (P : ParamSet) (D : MlDsaCrate) (hS : D.SizesMatch P)
    (hC : D.SigningCorrect) (hK : D.KeysBijective) (seed : Arr 32) :
    ∃ kp, Keypair.fromSeed D seed.val = .ok (.ok kp) ∧
      ∀ (m c : Bytes) {k : ℕ} (out : Arr k), SignsInto P kp m c out :=
  ⟨_,Keypair.fromSeed_ok seed.property,fun m c _ out => signsInto hS hC hK.keepsVerification _ m c out⟩

theorem sign_into_atomic_complete_mldsa44 :
    ∃ kp : Keypair (TagCrate.crate mldsa44),
      Keypair.fromSeed (TagCrate.crate mldsa44) (Arr.zero 32).val = .ok (.ok kp) ∧
      ∃ out', kp.signingKey.signInto mldsa44 [1,2] [] (Arr.zero 2421) = .ok (.ok 2420,out') ∧
        kp.verifyingKey.verify mldsa44 [1,2] [] (out'.val.take 2420) = .ok () := by
  obtain ⟨kp,hkp,h⟩ := sign_into_atomic_complete mldsa44 (TagCrate.crate mldsa44)
    (TagCrate.sizesMatch mldsa44) (TagCrate.signingCorrect mldsa44) (TagCrate.keysBijective mldsa44)
    (Arr.zero 32)
  obtain ⟨out',hw,-,ha⟩ := (h [1,2] [] (Arr.zero 2421)).signs (by decide) (by decide)
  exact ⟨kp,hkp,out',hw,ha.stored⟩

end SorobanMlDsa

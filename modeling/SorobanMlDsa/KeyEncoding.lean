import SorobanMlDsa.MlDsaScheme
import SorobanMlDsa.TagCrate

/-!
# Canonical key encodings

Both key kinds are written into buffers the caller owns and read back from
slices. `BufferRoundTrip` is what such a pair promises for one value, up to a
notion `Same` of behaving alike, for buffers of every length and content.
-/

namespace SorobanMlDsa

open ByteSlice PqEncode

/-- Writing `x` out and reading it back, through any buffer. -/
structure BufferRoundTrip {α : Type} [PqEncode α] (Same : α → α → Prop) (x : α) : Prop where
  fails_iff : ∀ {k : ℕ} (out : Arr k), (∃ e out', writeTo x out = .ok (.error e,out')) ↔ k < encodedLen x
  short : ∀ {k : ℕ} (out : Arr k), k < encodedLen x →
    writeTo x out = .ok (.error (.bufferTooSmall (encodedLen x) k),out)
  fits : ∀ {k : ℕ} (out : Arr k), encodedLen x ≤ k →
    ∃ out' y, writeTo x out = .ok (.ok (encodedLen x),out') ∧
      out'.val.drop (encodedLen x) = out.val.drop (encodedLen x) ∧
      fromBytes (out'.val.take (encodedLen x)) = .ok (.ok y) ∧ Same x y
  wrongLength : ∀ b : Bytes, b.length ≠ encodedLen x →
    (fromBytes b : Outcome (Except PqError α)) = .ok (.error (.invalidLength (encodedLen x) b.length))

/-- A `write_to` that is `writeEncoded` round-trips as soon as its encoding has the
announced length and decodes to a value behaving alike. -/
theorem BufferRoundTrip.of_writeEncoded {α : Type} [PqEncode α] {Same : α → α → Prop} {x y : α}
    {v : Bytes} (hwrite : ∀ {k : ℕ} (out : Arr k), writeTo x out = writeEncoded (encodedLen x) v out)
    (hlen : v.length = encodedLen x) (hread : fromBytes v = .ok (.ok y)) (hsame : Same x y)
    (hwrong : ∀ b : Bytes, b.length ≠ encodedLen x →
      (fromBytes b : Outcome (Except PqError α)) = .ok (.error (.invalidLength (encodedLen x) b.length))) :
    BufferRoundTrip Same x where
  fails_iff {k} out := by
    constructor
    · rintro ⟨e,out',h⟩
      by_contra hk
      obtain ⟨w,hw,-⟩ := writeEncoded_fits out hlen (Nat.not_lt.mp hk)
      simp [hwrite,hw] at h
    · intro hk
      exact ⟨_,_,(hwrite out).trans (writeEncoded_short v out hk)⟩
  short {k} out hk := (hwrite out).trans (writeEncoded_short v out hk)
  fits {k} out hk := by
    obtain ⟨out',hw,hval⟩ := writeEncoded_fits out hlen hk
    refine ⟨out',y,(hwrite out).trans hw,?_,?_,hsame⟩
    · rw [hval,← hlen,List.drop_left]
    · rw [hval,← hlen,List.take_left]
      exact hread
  wrongLength := hwrong

/-- Verifying keys with the same verdict on every input. -/
def SameVerdicts (P : ParamSet) {D : MlDsaCrate} (vk vk' : VerifyingKey D) : Prop :=
  ∀ m c s, vk.verify P m c s = vk'.verify P m c s

/-- Signing keys with the same effect on every buffer and the same verifying key. -/
def SameSignatures (P : ParamSet) {D : MlDsaCrate} (sk sk' : SigningKey D) : Prop :=
  (∀ m c {k : ℕ} (out : Arr k), sk.signInto P m c out = sk'.signInto P m c out) ∧
    sk.verifyingKey = sk'.verifyingKey

section

variable {P : ParamSet} {D : MlDsaCrate}

theorem VerifyingKey.sameVerdicts_decode (hV : D.KeepsVerification) (vk : VerifyingKey D) :
    SameVerdicts P vk ⟨D.decode (D.encode vk.inner)⟩ :=
  VerifyingKey.verify_congr fun m c s => (hV.accepts_iff vk.inner m c s).symm

theorem VerifyingKey.bufferRoundTrip (hS : D.SizesMatch P) (hV : D.KeepsVerification)
    (vk : VerifyingKey D) :
    @BufferRoundTrip _ (vkEncode P D) (SameVerdicts P) vk := by
  let := vkEncode P D
  apply BufferRoundTrip.of_writeEncoded (y := ⟨D.decode (D.encode vk.inner)⟩)
    (v := (D.encode vk.inner).val)
  · intro k out
    rfl
  · exact (Arr.length_val _).trans hS.verifyingKey
  · exact congrArg Except.ok (VerifyingKey.fromBytes_encode hS vk)
  · exact vk.sameVerdicts_decode hV
  · intro b hb
    exact congrArg Except.ok (VerifyingKey.fromBytes_wrongLength hb)

theorem SigningKey.bufferRoundTrip (hS : D.SizesMatch P) (hE : D.ExpandedReadsBack)
    (kp : Keypair D) :
    @BufferRoundTrip _ (skSigner P D).toPqEncode (SameSignatures P) kp.signing := by
  let := (skSigner P D).toPqEncode
  obtain ⟨seed,hseed⟩ := kp.seeded
  apply BufferRoundTrip.of_writeEncoded (y := kp.signing) (v := (D.toExpanded kp.signing.inner).val)
  · intro k out
    rfl
  · exact (Arr.length_val _).trans hS.signingKey
  · refine (SigningKey.fromBytes_toExpanded hS kp.signing).trans ?_
    rw [hseed,hE seed,← hseed]
    rfl
  · exact ⟨fun _ _ _ _ => rfl,rfl⟩
  · intro b hb
    exact SigningKey.fromBytes_wrongLength hb

theorem VerifyingKey.fromBytes_ok_iff (hS : D.SizesMatch P) (b : Bytes) :
    (∃ vk, VerifyingKey.fromBytes P D b = .ok vk) ↔ b.length = P.vkLen := by
  constructor
  · rintro ⟨vk,h⟩
    by_contra hne
    simp [fromBytes_wrongLength hne] at h
  · intro h
    exact ⟨_,fromBytes_ok hS h⟩

theorem VerifyingKey.fromBytes_ne_malformed (hS : D.SizesMatch P) (b : Bytes) :
    VerifyingKey.fromBytes P D b ≠ .error .malformedEncoding := by
  by_cases h : b.length = P.vkLen
  · simp [fromBytes_ok hS h]
  · simp [fromBytes_wrongLength h]

theorem VerifyingKey.writeTo_fromBytes (hS : D.SizesMatch P) (hK : D.KeysBijective) {b : Bytes}
    {vk : VerifyingKey D} (hvk : VerifyingKey.fromBytes P D b = .ok vk) {k : ℕ} (out : Arr k)
    (hk : P.vkLen ≤ k) :
    ∃ out', vk.writeTo P out = .ok (.ok P.vkLen,out') ∧ out'.val = b ++ out.val.drop P.vkLen := by
  have hb : b.length = P.vkLen := (VerifyingKey.fromBytes_ok_iff hS b).mp ⟨vk,hvk⟩
  have hinner : (⟨D.decode ⟨b,hb.trans hS.verifyingKey.symm⟩⟩ : VerifyingKey D) = vk :=
    Except.ok.inj ((VerifyingKey.fromBytes_ok hS hb).symm.trans hvk)
  have henc : (D.encode vk.inner).val = b := by
    rw [← hinner]
    exact congrArg Subtype.val (hK.encode_decode _)
  rw [← henc]
  exact writeEncoded_fits out ((Arr.length_val _).trans hS.verifyingKey) hk

end

/-- Both directions of the key encodings, for one parameter set. -/
structure KeysCanonical (P : ParamSet) (D : MlDsaCrate) : Prop where
  reads_iff : ∀ b, (∃ vk, VerifyingKey.fromBytes P D b = .ok vk) ↔ b.length = P.vkLen
  neverMalformed : ∀ b, VerifyingKey.fromBytes P D b ≠ .error .malformedEncoding
  writesBack : ∀ b vk, VerifyingKey.fromBytes P D b = .ok vk → ∀ {k : ℕ} (out : Arr k), P.vkLen ≤ k →
    ∃ out', vk.writeTo P out = .ok (.ok P.vkLen,out') ∧ out'.val = b ++ out.val.drop P.vkLen
  verifyingKeys : ∀ vk : VerifyingKey D, @BufferRoundTrip _ (vkEncode P D) (SameVerdicts P) vk
  signingKeys : ∀ seed kp, Keypair.fromSeed D seed = .ok (.ok kp) →
    @BufferRoundTrip _ (skSigner P D).toPqEncode (SameSignatures P) kp.signing

theorem key_encoding_canonical (P : ParamSet) (D : MlDsaCrate) (hS : D.SizesMatch P)
    (hK : D.KeysBijective) (hE : D.ExpandedReadsBack) : KeysCanonical P D where
  reads_iff := VerifyingKey.fromBytes_ok_iff hS
  neverMalformed := VerifyingKey.fromBytes_ne_malformed hS
  writesBack _ _ hvk _ out hk := VerifyingKey.writeTo_fromBytes hS hK hvk out hk
  verifyingKeys := VerifyingKey.bufferRoundTrip hS hK.keepsVerification
  signingKeys _ kp _ := SigningKey.bufferRoundTrip hS hE kp

theorem key_encoding_canonical_mldsa65 :
    (∃ vk, VerifyingKey.fromBytes mldsa65 (TagCrate.crate mldsa65) (List.replicate 1952 7) = .ok vk) ∧
    VerifyingKey.fromBytes mldsa65 (TagCrate.crate mldsa65) (List.replicate 1953 7) =
      .error (.invalidLength 1952 1953) := by
  have h := key_encoding_canonical mldsa65 (TagCrate.crate mldsa65) (TagCrate.sizesMatch mldsa65)
    (TagCrate.keysBijective mldsa65) (TagCrate.expandedReadsBack mldsa65 (by decide))
  obtain ⟨vk,hvk⟩ := (h.reads_iff (List.replicate 1952 7)).mpr List.length_replicate
  have hlen : (List.replicate 1953 (7 : UInt8)).length = 1953 := List.length_replicate
  have hne : (List.replicate 1953 (7 : UInt8)).length ≠ 1952 := by omega
  obtain ⟨-,-,-,hwrong⟩ := h.verifyingKeys vk
  have hread := Except.ok.inj (hwrong _ hne)
  rw [hlen] at hread
  exact ⟨⟨vk,hvk⟩,hread⟩

end SorobanMlDsa

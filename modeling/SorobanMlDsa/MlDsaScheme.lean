import SorobanMlDsa.Traits
import SorobanMlDsa.MlDsaCrate

/-!
# The ML-DSA binding

Both parameter sets are one macro expansion, so they are one definition here with the macro's
literals as a parameter. The crate's own array lengths meet the literals only inside copies and
conversions, where a disagreement panics or fails.
-/

namespace SorobanMlDsa

open ByteSlice

variable (P : ParamSet) (D : MlDsaCrate)

/-- FIPS 204 verifying key. -/
structure VerifyingKey where
  inner : D.VerifyingKey

/-- FIPS 204 signing key, held in expanded form. -/
structure SigningKey where
  inner : D.ExpandedSigningKey

/-- The body both `write_to` functions share: test the buffer, then copy. -/
def writeEncoded (len : ℕ) (encoded : Bytes) {k : ℕ} (out : Arr k) :
    Outcome (Except PqError ℕ × Arr k) :=
  if k < len then .ok (.error (.bufferTooSmall len k),out)
  else do
    let out ← copyPrefix out len encoded
    return (.ok len,out)

theorem writeEncoded_short {len k : ℕ} (encoded : Bytes) (out : Arr k) (h : k < len) :
    writeEncoded len encoded out = .ok (.error (.bufferTooSmall len k),out) := if_pos h

/-- An encoding of the announced length replaces the first bytes and no others. -/
theorem writeEncoded_fits {len k : ℕ} {encoded : Bytes} (out : Arr k)
    (hlen : encoded.length = len) (h : len ≤ k) :
    ∃ out', writeEncoded len encoded out = .ok (.ok len,out') ∧
      out'.val = encoded ++ out.val.drop len := by
  have hc := copyPrefix_ok out hlen h
  refine ⟨out.overwrite encoded (hlen ▸ h),?_,?_⟩
  · rw [writeEncoded,if_neg (by omega),hc]
    rfl
  · simp [Arr.overwrite,hlen]

theorem unwrapBuffer_writeEncoded {E : Type} {panicked : Panic → E} {failed : E} {len : ℕ} {encoded : Bytes}
    (hlen : encoded.length = len) : ∃ buf,
      unwrapBuffer panicked failed (writeEncoded len encoded (Arr.zero len)) = .ok buf ∧ buf.val = encoded := by
  obtain ⟨buf,hbuf,hval⟩ := writeEncoded_fits (Arr.zero len) hlen (Nat.le_refl _)
  refine ⟨buf,unwrapBuffer_eq_ok.mpr ⟨_,hbuf⟩,?_⟩
  rw [hval,List.drop_of_length_le (Nat.le_of_eq (Arr.length_val _)),List.append_nil]

namespace VerifyingKey

variable {D}

def encodedLen (_vk : VerifyingKey D) : ℕ := P.vkLen

def writeTo (vk : VerifyingKey D) {k : ℕ} (out : Arr k) : Outcome (Except PqError ℕ × Arr k) :=
  writeEncoded P.vkLen (D.encode vk.inner).val out

variable (D) in
def fromBytes (bytes : Bytes) : Except PqError (VerifyingKey D) := do
  checkLen bytes.length P.vkLen
  match tryFrom D.verifyingKeySize bytes with
  | none => .error .malformedEncoding
  | some enc => .ok ⟨D.decode enc⟩

/-- A signature that fails to decode is folded into the same failure as one that
does not satisfy the equation. -/
def verify (vk : VerifyingKey D) (message context signature : Bytes) : Except PqError Unit := do
  checkContext context
  checkLen signature.length P.sigLen
  match tryFrom D.signatureSize signature with
  | none => .error .verificationFailed
  | some enc =>
    match D.decodeSignature enc with
    | none => .error .verificationFailed
    | some sig =>
      if D.verifyWithContext vk.inner message context sig then .ok ()
      else .error .verificationFailed

variable {P}

theorem fromBytes_wrongLength {b : Bytes} (h : b.length ≠ P.vkLen) :
    fromBytes P D b = .error (.invalidLength P.vkLen b.length) := by
  rw [fromBytes,checkLen_error h]
  rfl

theorem fromBytes_ok (hS : D.SizesMatch P) {b : Bytes} (h : b.length = P.vkLen) :
    fromBytes P D b = .ok ⟨D.decode ⟨b,h.trans hS.verifyingKey.symm⟩⟩ := by
  have hl : checkLen b.length P.vkLen = .ok () := by rw [h,checkLen_self]
  rw [fromBytes,hl,tryFrom_of_length (h.trans hS.verifyingKey.symm)]
  rfl

theorem fromBytes_encode (hS : D.SizesMatch P) (vk : VerifyingKey D) :
    fromBytes P D (D.encode vk.inner).val = .ok ⟨D.decode (D.encode vk.inner)⟩ :=
  fromBytes_ok hS ((Arr.length_val _).trans hS.verifyingKey)

theorem acceptsEncoded_iff (hS : D.SizesMatch P) {b : Bytes} {vk : VerifyingKey D}
    (h : fromBytes P D b = .ok vk) (m c s : Bytes) : D.AcceptsEncoded b m c s ↔ D.Accepts vk.inner m c s := by
  by_cases hb : b.length = P.vkLen
  · have hvk : (⟨D.decode ⟨b,hb.trans hS.verifyingKey.symm⟩⟩ : VerifyingKey D) = vk :=
      Except.ok.inj ((fromBytes_ok hS hb).symm.trans h)
    rw [MlDsaCrate.acceptsEncoded_iff (hb.trans hS.verifyingKey.symm),← hvk]
  · simp [fromBytes_wrongLength hb] at h

theorem verify_contextTooLong (vk : VerifyingKey D) {c : Bytes} (hc : maxContextLen < c.length)
    (m s : Bytes) : vk.verify P m c s = .error (.contextTooLong c.length) := by
  rw [verify,checkContext_error hc]
  rfl

theorem verify_wrongLength (vk : VerifyingKey D) {c s : Bytes} (hc : c.length ≤ maxContextLen)
    (hs : s.length ≠ P.sigLen) (m : Bytes) :
    vk.verify P m c s = .error (.invalidLength P.sigLen s.length) := by
  rw [verify,checkContext_ok hc,checkLen_error hs]
  rfl

/-- Past the two length checks the verdict is ML-DSA verification of the bytes,
and every rejection is the same error. -/
theorem verify_decides (vk : VerifyingKey D) {c s : Bytes} (hc : c.length ≤ maxContextLen)
    (hs : s.length = P.sigLen) (m : Bytes) :
    vk.verify P m c s =
      if D.Accepts vk.inner m c s then .ok () else .error .verificationFailed := by
  rw [verify,checkContext_ok hc,hs,checkLen_self]
  simp only [ok_bind]
  by_cases ha : D.Accepts vk.inner m c s
  · obtain ⟨sig,hsig,hv⟩ := id ha
    obtain ⟨enc,he,hd⟩ := Option.bind_eq_some_iff.mp hsig
    simp [he,hd,hv,ha]
  · rw [if_neg ha]
    cases he : tryFrom D.signatureSize s with
    | none => rfl
    | some enc =>
      cases hd : D.decodeSignature enc with
      | none => simp [hd]
      | some sig =>
        have hv : ¬ D.verifyWithContext vk.inner m c sig = true := fun hv =>
          ha ⟨sig,by simp [he,hd],hv⟩
        simp [hd,hv]

/-- A test of the context, a test of the length, and one verdict on the contents. -/
theorem verify_gates (vk : VerifyingKey D) (m c s : Bytes) :
    vk.verify P m c s = checkContext c >>= fun _ => checkLen s.length P.sigLen >>= fun _ =>
      if D.Accepts vk.inner m c s then .ok () else .error .verificationFailed := by
  rcases Nat.lt_or_ge maxContextLen c.length with hc | hc
  · rw [verify_contextTooLong vk hc,checkContext_error hc]
    rfl
  · rw [checkContext_ok hc,ok_bind]
    by_cases hs : s.length = P.sigLen
    · rw [verify_decides vk hc hs,hs,checkLen_self]
      rfl
    · rw [verify_wrongLength vk hc hs,checkLen_error hs]
      rfl

theorem verify_eq_ok_iff (vk : VerifyingKey D) (m c s : Bytes) :
    vk.verify P m c s = .ok () ↔
      c.length ≤ maxContextLen ∧ s.length = P.sigLen ∧ D.Accepts vk.inner m c s := by
  rcases Nat.lt_or_ge maxContextLen c.length with hc | hc
  · simp [verify_contextTooLong vk hc,Nat.not_le.mpr hc]
  · by_cases hs : s.length = P.sigLen
    · by_cases ha : D.Accepts vk.inner m c s <;> simp [verify_decides vk hc hs,hc,hs,ha]
    · simp [verify_wrongLength vk hc hs,hs]

theorem verify_congr {vk vk' : VerifyingKey D}
    (h : ∀ m c s, D.Accepts vk.inner m c s ↔ D.Accepts vk'.inner m c s) (m c s : Bytes) :
    vk.verify P m c s = vk'.verify P m c s := by
  rw [verify_gates,verify_gates]
  simp only [h]

end VerifyingKey

namespace SigningKey

variable {D}

def encodedLen (_sk : SigningKey D) : ℕ := P.skLen

def writeTo (sk : SigningKey D) {k : ℕ} (out : Arr k) : Outcome (Except PqError ℕ × Arr k) :=
  writeEncoded P.skLen (D.toExpanded sk.inner).val out

variable (D) in
/-- Trusted input only: the crate may panic on a malformed expanded key. -/
def fromBytes (bytes : Bytes) : Outcome (Except PqError (SigningKey D)) :=
  match checkLen bytes.length P.skLen with
  | .error e => .ok (.error e)
  | .ok () =>
    match tryFrom D.expandedSigningKeySize bytes with
    | none => .ok (.error .malformedEncoding)
    | some enc => do
      let sk ← D.fromExpanded enc
      return .ok ⟨sk⟩

def signInto (sk : SigningKey D) (message context : Bytes) {k : ℕ} (out : Arr k) :
    Outcome (Except PqError ℕ × Arr k) :=
  match checkContext context with
  | .error e => .ok (.error e,out)
  | .ok () =>
    if k < P.sigLen then .ok (.error (.bufferTooSmall P.sigLen k),out)
    else
      match D.signDeterministic sk.inner message context with
      | none => .ok (.error .signingFailed,out)
      | some sig => do
        let out ← copyPrefix out P.sigLen (D.encodeSignature sig).val
        return (.ok P.sigLen,out)

def verifyingKey (sk : SigningKey D) : VerifyingKey D := ⟨D.verifyingKey sk.inner⟩

variable {P}

theorem fromBytes_wrongLength {b : Bytes} (h : b.length ≠ P.skLen) :
    fromBytes P D b = .ok (.error (.invalidLength P.skLen b.length)) := by
  rw [fromBytes,checkLen_error h]

theorem fromBytes_toExpanded (hS : D.SizesMatch P) (sk : SigningKey D) :
    fromBytes P D (D.toExpanded sk.inner).val =
      (D.fromExpanded (D.toExpanded sk.inner)).map fun sk => .ok ⟨sk⟩ := by
  have hlen := (Arr.length_val (D.toExpanded sk.inner)).trans hS.signingKey
  simp only [fromBytes,hlen,checkLen_self,tryFrom_val]
  cases D.fromExpanded (D.toExpanded sk.inner) <;> rfl

theorem signInto_contextTooLong (sk : SigningKey D) {c : Bytes} (hc : maxContextLen < c.length)
    (m : Bytes) {k : ℕ} (out : Arr k) :
    sk.signInto P m c out = .ok (.error (.contextTooLong c.length),out) := by
  rw [signInto,checkContext_error hc]

theorem signInto_bufferTooSmall (sk : SigningKey D) {c : Bytes} (hc : c.length ≤ maxContextLen)
    (m : Bytes) {k : ℕ} (out : Arr k) (hk : k < P.sigLen) :
    sk.signInto P m c out = .ok (.error (.bufferTooSmall P.sigLen k),out) := by
  rw [signInto,checkContext_ok hc]
  exact if_pos hk

/-- Once the crate has signed, the encoded signature replaces the first bytes of
the buffer and no others. -/
theorem signInto_signed (hS : D.SizesMatch P) (sk : SigningKey D) {m c : Bytes}
    (hc : c.length ≤ maxContextLen) {k : ℕ} (out : Arr k) (hk : P.sigLen ≤ k) {sig : D.Signature}
    (hsig : D.signDeterministic sk.inner m c = some sig) :
    ∃ out', sk.signInto P m c out = .ok (.ok P.sigLen,out') ∧
      out'.val = (D.encodeSignature sig).val ++ out.val.drop P.sigLen := by
  have hlen := (Arr.length_val (D.encodeSignature sig)).trans hS.signature
  have hcopy := copyPrefix_ok out hlen hk
  refine ⟨out.overwrite (D.encodeSignature sig).val (hlen ▸ hk),?_,?_⟩
  · rw [signInto,checkContext_ok hc]
    simp only [hsig,hcopy,if_neg (Nat.not_lt.mpr hk)]
    rfl
  · simp [Arr.overwrite,hlen]

theorem signInto_signingFailed (sk : SigningKey D) {m c : Bytes} (hc : c.length ≤ maxContextLen)
    {k : ℕ} (out : Arr k) (hk : P.sigLen ≤ k) (hsig : D.signDeterministic sk.inner m c = none) :
    sk.signInto P m c out = .ok (.error .signingFailed,out) := by
  rw [signInto,checkContext_ok hc]
  simp only [hsig,if_neg (Nat.not_lt.mpr hk)]

theorem signInto_ok (hS : D.SizesMatch P) {sk : SigningKey D} {m c : Bytes} {k n : ℕ} {out out' : Arr k}
    (h : sk.signInto P m c out = .ok (.ok n,out')) :
    c.length ≤ maxContextLen ∧ ∃ sig, D.signDeterministic sk.inner m c = some sig ∧
      out'.val.take n = (D.encodeSignature sig).val := by
  rcases Nat.lt_or_ge maxContextLen c.length with hc | hc
  · simp [sk.signInto_contextTooLong hc] at h
  · rcases Nat.lt_or_ge k P.sigLen with hk | hk
    · simp [sk.signInto_bufferTooSmall hc m out hk] at h
    · cases hsig : D.signDeterministic sk.inner m c with
      | none => simp [sk.signInto_signingFailed hc out hk hsig] at h
      | some sig =>
        have hlen := (Arr.length_val (D.encodeSignature sig)).trans hS.signature
        obtain ⟨w,hw,hval⟩ := sk.signInto_signed hS hc out hk hsig
        have heq : P.sigLen = n ∧ w = out' := by simpa [hw] using h
        refine ⟨hc,sig,rfl,?_⟩
        rw [← heq.1,← heq.2,hval,List.take_left' hlen]

end SigningKey

/-- A signing/verifying pair. Its fields are private and only `fromSeed` fills
them, so the two halves match and come from a seed. -/
structure Keypair where
  signing : SigningKey D
  verifying : VerifyingKey D
  seeded : ∃ seed, signing.inner = D.fromSeed seed
  matching : verifying = signing.verifyingKey

namespace Keypair

variable {D}

variable (D) in
def fromSeed (seed : Bytes) : Outcome (Except PqError (Keypair D)) :=
  match checkLen seed.length 32 with
  | .error e => .ok (.error e)
  | .ok () => do
    let s ← copyIntoSlice seed (Arr.zero 32)
    let expanded := D.fromSeed s
    return .ok ⟨⟨expanded⟩,⟨D.verifyingKey expanded⟩,⟨s,rfl⟩,rfl⟩

def signingKey (kp : Keypair D) : SigningKey D := kp.signing

def verifyingKey (kp : Keypair D) : VerifyingKey D := kp.verifying

theorem fromSeed_ok {seed : Bytes} (h : seed.length = 32) :
    fromSeed D seed = .ok (.ok ⟨⟨D.fromSeed ⟨seed,h⟩⟩,⟨D.verifyingKey (D.fromSeed ⟨seed,h⟩)⟩,
      ⟨⟨seed,h⟩,rfl⟩,rfl⟩) := by
  simp only [fromSeed,h,checkLen_self,copyIntoSlice_ok _ h]
  rfl

theorem fromSeed_wrongLength {seed : Bytes} (h : seed.length ≠ 32) :
    fromSeed D seed = .ok (.error (.invalidLength 32 seed.length)) := by
  rw [fromSeed,checkLen_error h]

theorem fromSeed_eq_error_iff {seed : Bytes} {e : PqError} :
    fromSeed D seed = .ok (.error e) ↔ seed.length ≠ 32 ∧ e = .invalidLength 32 seed.length := by
  by_cases h : seed.length = 32
  · simp [fromSeed_ok h,h]
  · simp [fromSeed_wrongLength h,h,eq_comm]

end Keypair

@[reducible] def vkEncode : PqEncode (VerifyingKey D) where
  encodedLen := VerifyingKey.encodedLen P
  writeTo := VerifyingKey.writeTo P
  fromBytes bytes := .ok (VerifyingKey.fromBytes P D bytes)

@[reducible] def vkVerifier : PqVerifier (VerifyingKey D) where
  toPqEncode := vkEncode P D
  verify vk m c s := .ok (vk.verify P m c s)

@[reducible] def skSigner : PqSigner (SigningKey D) where
  encodedLen := SigningKey.encodedLen P
  writeTo := SigningKey.writeTo P
  fromBytes := SigningKey.fromBytes P D
  Derived := VerifyingKey D
  derivedVerifier := vkVerifier P D
  signInto := SigningKey.signInto P
  verifyingKey := SigningKey.verifyingKey

@[reducible] def keypairOfSeed : PqKeypair (Keypair D) (SigningKey D) (VerifyingKey D) where
  fromSeed := Keypair.fromSeed D
  signingKey := Keypair.signingKey
  verifyingKey := Keypair.verifyingKey

/-- The scheme one expansion of `impl_mldsa!` provides. -/
def scheme : PqScheme where
  name := P.name
  verifyingKeyLen := P.vkLen
  signingKeyLen := P.skLen
  signatureLen := P.sigLen
  seedLen := 32
  VerifyingKey := VerifyingKey D
  SigningKey := SigningKey D
  Keypair := Keypair D
  verifier := vkVerifier P D
  signer := skSigner P D
  keypair := keypairOfSeed D

end SorobanMlDsa

import SorobanMlDsa.Account
import SorobanMlDsa.Auth

/-! The off-chain check against the contract. Both reach the same `verify`, one with
the key in memory and one with the key read back from its stored bytes. -/
namespace SorobanMlDsa

open ByteSlice

/-- Two verdicts on one signature of length `n` that accept alike and whose errors
correspond. -/
structure PreflightAgrees (n : ℕ) (offChain : Outcome (Except StellarError Unit))
    (onChain : Outcome (Except PqAccount.Error Unit)) : Prop where
  ok_iff : offChain = .ok (.ok ()) ↔ onChain = .ok (.ok ())
  badSigLen_iff : offChain = .ok (.error (.pq (.invalidLength 3309 n))) ↔ onChain = .ok (.error .badSigLen)
  sigVerifyFailed_iff : offChain = .ok (.error (.pq .verificationFailed)) ↔
    onChain = .ok (.error .sigVerifyFailed)
  decides : offChain = .ok (.ok ()) ∨ offChain = .ok (.error (.pq (.invalidLength 3309 n))) ∨
    offChain = .ok (.error (.pq .verificationFailed))

section

variable {P : ParamSet} {D : MlDsaCrate} {L : XdrLeaves}

theorem encodeVerifyingKey_ok {O : Type} (hS : D.SizesMatch P) (hP : P.vkLen ≤ u32Max)
    (vk : VerifyingKey D) : ∃ b : ScBytes, b.val = (D.encode vk.inner).val ∧
      encodeVerifyingKey (scheme P D) vk = .ok (.ok (.bytes b : ScVal O)) := by
  have hlen := (Arr.length_val (D.encode vk.inner)).trans hS.verifyingKey
  obtain ⟨buf,hw,hval⟩ := writeEncoded_fits (Arr.zero P.vkLen) hlen (Nat.le_refl _)
  have htake : buf.val.take P.vkLen = (D.encode vk.inner).val := by rw [hval,List.take_left' hlen]
  refine ⟨⟨(D.encode vk.inner).val,hlen ▸ hP⟩,rfl,?_⟩
  rw [encodeVerifyingKey_of_written (S := scheme P D) hw,htake]
  exact congrArg Except.ok (bytesToScval_ok _)

theorem verifyAuthorization_scheme {sha256 : Bytes → Arr 32} (vk : VerifyingKey D)
    {p : AuthorizationPayload L} {msg : Arr 32} (hp : p.signaturePayload sha256 = .ok msg) (c sig : Bytes) :
    verifyAuthorization (scheme P D) sha256 vk p c sig =
      .ok ((vk.verify P msg.val c sig).mapError .pq) :=
  verifyAuthorization_of_payload (S := scheme P D) hp rfl

/-- What the contract computes is the client's `verify` with its errors renamed. -/
theorem PqAccount.checkAuth_encoded (hS : D.SizesMatch mldsa65) (hV : D.KeepsVerification)
    (vk : VerifyingKey D) {s : PqAccount.Storage} (hs : s.pubKey = some (D.encode vk.inner).val)
    (msg : Arr 32) {sig : Bytes} (hsig : sig.length = mldsa65.sigLen) :
    PqAccount.checkAuth D s msg sig =
      .ok ((vk.verify mldsa65 msg.val PqAccount.context sig).mapError fun _ => .sigVerifyFailed) := by
  have hlen := (Arr.length_val (D.encode vk.inner)).trans hS.verifyingKey
  have hsame := vk.sameVerdicts_decode (P := mldsa65) hV msg.val PqAccount.context sig
  rw [PqAccount.checkAuth_verify hS hs hlen msg hsig,hsame]

theorem preflightAgrees (hS : D.SizesMatch mldsa65) (hV : D.KeepsVerification) (vk : VerifyingKey D)
    {s : PqAccount.Storage} (hs : s.pubKey = some (D.encode vk.inner).val) (msg : Arr 32) (sig : Bytes) :
    PreflightAgrees sig.length
      (.ok ((vk.verify mldsa65 msg.val PqAccount.context sig).mapError .pq))
      (PqAccount.checkAuth D s msg sig) := by
  have hlen := (Arr.length_val (D.encode vk.inner)).trans hS.verifyingKey
  by_cases hsig : sig.length = mldsa65.sigLen
  · rw [PqAccount.checkAuth_encoded hS hV vk hs msg hsig,
      vk.verify_decides PqAccount.context_le hsig msg.val]
    by_cases ha : D.Accepts vk.inner msg.val PqAccount.context sig <;>
      constructor <;> simp [ha,Except.mapError]
  · rw [PqAccount.checkAuth_badSigLen hs hlen msg hsig,
      vk.verify_wrongLength PqAccount.context_le hsig msg.val]
    constructor <;> simp [Except.mapError,mldsa65]

end

/-- The off-chain check of a signature predicts the contract's verdict on it. -/
theorem preflight_agrees_with_contract (D : MlDsaCrate) (hS : D.SizesMatch mldsa65)
    (hV : D.KeepsVerification) (L : XdrLeaves) (sha256 : Bytes → Arr 32) (vk : VerifyingKey D) :
    ∃ key : ScBytes,
      encodeVerifyingKey (scheme mldsa65 D) vk = .ok (.ok (.bytes key : ScVal L.OtherVal)) ∧
      (∀ env, PqAccount.init D env key.val = .ok (.ok (),{env with storage := ⟨some key.val⟩})) ∧
      ∀ (s : PqAccount.Storage), s.pubKey = some key.val → ∀ (p : AuthorizationPayload L) (msg : Arr 32),
        p.signaturePayload sha256 = .ok msg → ∀ sig, PreflightAgrees sig.length
          (verifyAuthorization (scheme mldsa65 D) sha256 vk p PqAccount.context sig)
          (PqAccount.checkAuth D s msg sig) := by
  have hlen := (Arr.length_val (D.encode vk.inner)).trans hS.verifyingKey
  obtain ⟨key,hkey,henc⟩ := encodeVerifyingKey_ok (O := L.OtherVal) hS (by decide) vk
  refine ⟨key,henc,?_,?_⟩
  · intro env
    exact PqAccount.init_ok hS env (by rw [hkey]; exact hlen)
  · intro s hs p msg hp sig
    rw [verifyAuthorization_scheme vk hp]
    exact preflightAgrees hS hV vk (hkey ▸ hs) msg sig

/-- A signature for the payload vector, accepted in both places. -/
theorem preflight_agrees_with_contract_vector :
    ∃ (kp : Keypair (TagCrate.crate mldsa65)) (key : Bytes) (msg : Arr 32) (sig : Bytes),
      sig.length = 3309 ∧ (vectorPayload 1).signaturePayload Sha256.digest = .ok msg ∧
      verifyAuthorization (scheme mldsa65 (TagCrate.crate mldsa65)) Sha256.digest kp.verifyingKey
        (vectorPayload 1) PqAccount.context sig = .ok (.ok ()) ∧
      PqAccount.checkAuth (TagCrate.crate mldsa65) ⟨some key⟩ msg sig = .ok (.ok ()) := by
  have hS := TagCrate.sizesMatch mldsa65
  have hV := (TagCrate.keysBijective mldsa65).keepsVerification
  let kp : Keypair (TagCrate.crate mldsa65) := ⟨⟨Arr.zero 32⟩,_,⟨Arr.zero 32,rfl⟩,rfl⟩
  obtain ⟨msg,hmsg⟩ : ∃ msg, (vectorPayload 1).signaturePayload Sha256.digest = .ok msg := ⟨_,vectorPayload_hash⟩
  obtain ⟨out,-,-,haccept⟩ := (signsInto hS (TagCrate.signingCorrect mldsa65) hV kp msg.val PqAccount.context
    (Arr.zero 3309)).signs PqAccount.context_le (Nat.le_refl _)
  obtain ⟨key,-,-,h⟩ := preflight_agrees_with_contract (TagCrate.crate mldsa65) hS hV contractLeaves
    Sha256.digest kp.verifyingKey
  have hoffChain : verifyAuthorization (scheme mldsa65 (TagCrate.crate mldsa65)) Sha256.digest kp.verifyingKey
      (vectorPayload 1) PqAccount.context (out.val.take 3309) = .ok (.ok ()) := by
    rw [verifyAuthorization_scheme kp.verifyingKey hmsg]
    exact congrArg (fun r => Except.ok (Except.mapError StellarError.pq r)) haccept.stored
  have hlen : (out.val.take 3309).length = 3309 := List.length_take_of_le (by rw [Arr.length_val])
  exact ⟨kp,key.val,msg,_,hlen,hmsg,hoffChain,(h ⟨some key.val⟩ rfl _ _ hmsg _).ok_iff.mp hoffChain⟩

end SorobanMlDsa

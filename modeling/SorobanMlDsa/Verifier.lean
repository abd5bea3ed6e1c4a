import SorobanMlDsa.Phase0

/-!
# The verifier contract

`verify65` and `verify44` repeat one body with their own copies of the sizes, and so
do the prototypes they replace. All of them answer what the generic adapter answers,
up to the size of the buffer each keeps for the message.
-/

namespace SorobanMlDsa

open ByteSlice

namespace Verifier

/-- The body of `verify65` and `verify44`, for the sizes written into each. -/
def verifyWith (pkLen sigLen : ℕ) (P : ParamSet) (D : MlDsaCrate) (pk msg sig : Bytes) : Outcome Bool :=
  if pk.length ≠ pkLen then .ok false
  else do
    let pkB ← copyIntoSlice pk (Arr.zero pkLen)
    if sig.length ≠ sigLen then return false
    else do
      let sigB ← copyIntoSlice sig (Arr.zero sigLen)
      let n := msg.length
      if 8192 < n then return false
      else do
        let m ← copyPrefix (Arr.zero 8192) n msg
        match VerifyingKey.fromBytes P D pkB.val with
        | .ok vk => return (vk.verify P (m.val.take n) [] sigB.val).isOk
        | .error _ => return false

def decodeWith (pkLen : ℕ) (P : ParamSet) (D : MlDsaCrate) (pk : Bytes) : Outcome Bool :=
  if pk.length ≠ pkLen then .ok false
  else do
    let pkB ← copyIntoSlice pk (Arr.zero pkLen)
    return (VerifyingKey.fromBytes P D pkB.val).isOk

def verify65 (D : MlDsaCrate) : (pk msg sig : Bytes) → Outcome Bool := verifyWith 1952 3309 mldsa65 D

def verify44 (D : MlDsaCrate) : (pk msg sig : Bytes) → Outcome Bool := verifyWith 1312 2420 mldsa44 D

def decode65 (D : MlDsaCrate) : (pk : Bytes) → Outcome Bool := decodeWith 1952 mldsa65 D

def decode44 (D : MlDsaCrate) : (pk : Bytes) → Outcome Bool := decodeWith 1312 mldsa44 D

/-- The host's own functions; a signature they do not accept traps. -/
structure HostCrypto where
  sha256 : Bytes → Arr 32
  ed25519Verify : (pk : Arr 32) → (msg : Bytes) → (sig : Arr 64) → Bool
  secp256r1Verify : (pk : Arr 65) → (digest : Arr 32) → (sig : Arr 64) → Bool

def noop : Outcome Bool := .ok true

def ed25519 (C : HostCrypto) (pk : Arr 32) (msg : Bytes) (sig : Arr 64) : Outcome Bool :=
  if C.ed25519Verify pk msg sig then .ok true else .error .trap

def secp256r1 (C : HostCrypto) (pk : Arr 65) (msg : Bytes) (sig : Arr 64) : Outcome Bool :=
  if C.secp256r1Verify pk (C.sha256 msg) sig then .ok true else .error .trap

end Verifier

variable {P : ParamSet} {D : MlDsaCrate}

theorem VerifyingKey.verify_isOk (hS : D.SizesMatch P) {pk : Bytes} (hpk : pk.length = D.verifyingKeySize)
    (msg sig : Bytes) :
    (VerifyingKey.verify P ⟨D.decode ⟨pk,hpk⟩⟩ msg [] sig).isOk = decide (D.AcceptsEncoded pk msg [] sig) := by
  have hc : ([] : Bytes).length ≤ maxContextLen := Nat.zero_le _
  have hacc := MlDsaCrate.acceptsEncoded_iff hpk msg [] sig
  by_cases hsig : sig.length = P.sigLen
  · rw [VerifyingKey.verify_decides _ hc hsig]
    by_cases ha : D.Accepts (D.decode ⟨pk,hpk⟩) msg [] sig <;> simp [hacc,ha,Except.isOk,Except.toBool]
  · have hno : ¬ D.AcceptsEncoded pk msg [] sig := fun ha => hsig (ha.length.2.trans hS.signature)
    rw [VerifyingKey.verify_wrongLength _ hc hsig]
    simp [hno,Except.isOk,Except.toBool]

theorem adapterShapedFunction_scheme (hS : D.SizesMatch P) (pk msg sig : Bytes) :
    adapterShapedFunction (scheme P D) pk msg sig = .ok (decide (D.AcceptsEncoded pk msg [] sig)) := by
  by_cases hpk : pk.length = P.vkLen
  · have hdec : (.ok (VerifyingKey.fromBytes P D pk) : Outcome _) = .ok (.ok _) :=
      congrArg Except.ok (VerifyingKey.fromBytes_ok hS hpk)
    rw [adapterShapedFunction_decoded (S := scheme P D) hdec rfl,VerifyingKey.verify_isOk hS]
  · have hno : ¬ D.AcceptsEncoded pk msg [] sig := fun ha => hpk (ha.length.1.trans hS.verifyingKey)
    have hdec : (.ok (VerifyingKey.fromBytes P D pk) : Outcome _) = .ok (.error _) :=
      congrArg Except.ok (VerifyingKey.fromBytes_wrongLength hpk)
    rw [adapterShapedFunction_undecoded (S := scheme P D) hdec,decide_eq_false hno]

namespace Verifier

theorem verifyWith_eq (hS : D.SizesMatch P) (pk msg sig : Bytes) :
    verifyWith P.vkLen P.sigLen P D pk msg sig =
      .ok (decide (msg.length ≤ 8192 ∧ D.AcceptsEncoded pk msg [] sig)) := by
  by_cases hpk : pk.length = P.vkLen
  · by_cases hsig : sig.length = P.sigLen
    · by_cases hmsg : msg.length ≤ 8192
      · have hcopy := copyPrefix_ok (Arr.zero 8192) (rfl : msg.length = msg.length) hmsg
        simp only [verifyWith,if_neg (not_not.mpr hpk),if_neg (not_not.mpr hsig),
          if_neg (Nat.not_lt.mpr hmsg),copyIntoSlice_ok _ hpk,copyIntoSlice_ok _ hsig,hcopy,ok_bind,
          pure_eq_ok,Arr.overwrite_take,VerifyingKey.fromBytes_ok hS hpk,
          VerifyingKey.verify_isOk hS (hpk.trans hS.verifyingKey.symm),hmsg,true_and]
      · simp [verifyWith,hpk,hsig,hmsg,Nat.not_le.mp hmsg,copyIntoSlice_ok]
    · have hno : ¬ D.AcceptsEncoded pk msg [] sig := fun ha => hsig (ha.length.2.trans hS.signature)
      simp [verifyWith,hpk,hsig,hno,copyIntoSlice_ok]
  · have hno : ¬ D.AcceptsEncoded pk msg [] sig := fun ha => hpk (ha.length.1.trans hS.verifyingKey)
    simp [verifyWith,hpk,hno]

theorem decodeWith_eq (hS : D.SizesMatch P) (pk : Bytes) :
    decodeWith P.vkLen P D pk = .ok (decide (pk.length = P.vkLen)) := by
  by_cases hpk : pk.length = P.vkLen
  · rw [decodeWith,if_neg (not_not.mpr hpk),copyIntoSlice_ok _ hpk,decide_eq_true hpk]
    simp only [ok_bind,VerifyingKey.fromBytes_ok hS hpk]
    rfl
  · simp [decodeWith,hpk]

end Verifier

/-- At one parameter set: the contract's `verify` and `decode`, the prototype's
`verify`, and the adapter. -/
structure VerifiersAgree (P : ParamSet) (D : MlDsaCrate) (verify probe : (pk msg sig : Bytes) → Outcome Bool)
    (decode : (pk : Bytes) → Outcome Bool) : Prop where
  verify_iff : ∀ pk msg sig, ∃ b, verify pk msg sig = .ok b ∧
    (b = true ↔ msg.length ≤ 8192 ∧ adapterShapedFunction (scheme P D) pk msg sig = .ok true)
  probe_iff : ∀ pk msg sig, ∃ b, probe pk msg sig = .ok b ∧
    (b = true ↔ msg.length ≤ 256 ∧ adapterShapedFunction (scheme P D) pk msg sig = .ok true)
  agree : ∀ pk msg sig, msg.length ≤ 256 → verify pk msg sig = probe pk msg sig
  decode_iff : ∀ pk, ∃ b, decode pk = .ok b ∧ (b = true ↔ pk.length = P.vkLen)
  decode_false : ∀ pk msg sig, decode pk = .ok false → verify pk msg sig = .ok false

theorem verifiersAgree (hS : D.SizesMatch P) (hT : D.TraitsAgree) :
    VerifiersAgree P D (Verifier.verifyWith P.vkLen P.sigLen P D)
      (Phase0.PqProbe.verifyWith D P.vkLen P.sigLen hS.verifyingKey) (Verifier.decodeWith P.vkLen P D) where
  verify_iff pk msg sig := ⟨_,Verifier.verifyWith_eq hS pk msg sig,by simp [adapterShapedFunction_scheme hS]⟩
  probe_iff pk msg sig := ⟨_,Phase0.PqProbe.verifyWith_eq hT hS.verifyingKey hS.signature pk msg sig,
    by simp [adapterShapedFunction_scheme hS]⟩
  agree pk msg sig hmsg := by
    have hlong : msg.length ≤ 8192 := by omega
    rw [Verifier.verifyWith_eq hS,Phase0.PqProbe.verifyWith_eq hT hS.verifyingKey hS.signature]
    simp only [hmsg,hlong,true_and]
  decode_iff pk := ⟨_,Verifier.decodeWith_eq hS pk,decide_eq_true_iff⟩
  decode_false pk msg sig hdec := by
    rw [Verifier.decodeWith_eq hS,Except.ok.injEq,decide_eq_false_iff_not] at hdec
    exact if_pos hdec

/-- The contract, the prototype and the adapter decide alike at both parameter sets. -/
theorem verifiers_decide_alike (D65 D44 : MlDsaCrate) (h65 : D65.SizesMatch mldsa65)
    (h44 : D44.SizesMatch mldsa44) (ht65 : D65.TraitsAgree) (ht44 : D44.TraitsAgree) :
    VerifiersAgree mldsa65 D65 (Verifier.verify65 D65) (Phase0.PqProbe.verify D65 h65.verifyingKey)
      (Verifier.decode65 D65) ∧
    VerifiersAgree mldsa44 D44 (Verifier.verify44 D44) (Phase0.PqProbe.verify44 D44 h44.verifyingKey)
      (Verifier.decode44 D44) :=
  ⟨verifiersAgree h65 ht65,verifiersAgree h44 ht44⟩

/-- A message of 257 bytes is past the prototype's buffer only. -/
theorem verifiers_decide_alike_257 :
    ∃ pk sig : Bytes, Verifier.verify65 (TagCrate.crate mldsa65) pk (List.replicate 257 1) sig = .ok true ∧
      Phase0.PqProbe.verify (TagCrate.crate mldsa65) rfl pk (List.replicate 257 1) sig = .ok false := by
  have h := (verifiers_decide_alike (TagCrate.crate mldsa65) (TagCrate.crate mldsa44)
    (TagCrate.sizesMatch mldsa65) (TagCrate.sizesMatch mldsa44) (TagCrate.traitsAgree mldsa65)
    (TagCrate.traitsAgree mldsa44)).1
  let pk : Arr 1952 := Arr.zero 1952
  let msg : Bytes := List.replicate 257 1
  let sig := (TagCrate.tag mldsa65 pk (frame msg [])).val
  have hlen : msg.length = 257 := List.length_replicate
  have hadapter : adapterShapedFunction (scheme mldsa65 (TagCrate.crate mldsa65)) pk.val msg sig = .ok true := by
    decide +kernel
  obtain ⟨b,hb,hiff⟩ := h.verify_iff pk.val msg sig
  obtain ⟨b',hb',hiff'⟩ := h.probe_iff pk.val msg sig
  refine ⟨pk.val,sig,?_,?_⟩
  · rw [hb,hiff.mpr ⟨by omega,hadapter⟩]
  · have hfalse : b' = false := by
      rw [← Bool.not_eq_true,hiff']
      intro hshort
      omega
    rw [hb',hfalse]

end SorobanMlDsa

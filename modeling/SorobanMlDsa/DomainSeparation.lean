import SorobanMlDsa.Signing
import SorobanMlDsa.Verifier

/-!
# Contexts keep signatures apart

The length byte in front of a context is faithful only up to 255, and both directions refuse
longer contexts before anything is framed. Within the limit the framing is injective.
-/

namespace SorobanMlDsa

open ByteSlice

/-- What a key pair signs under one context it accepts under no other, nor for
another message; and no context past the limit is ever framed. -/
structure SeparatesContexts (P : ParamSet) {D : MlDsaCrate} (F : D.Framing) (kp : Keypair D) : Prop where
  binds : ∀ (m m' c c' : Bytes) {k n : ℕ} (out out' : Arr k),
    kp.signingKey.signInto P m c out = .ok (.ok n,out') →
    F.Binds kp.signingKey.inner (frame m c) (frame m' c') →
    kp.verifyingKey.verify P m' c' (out'.val.take n) = .ok () → m = m' ∧ c = c'
  signTooLong : ∀ (m c : Bytes) {k : ℕ} (out : Arr k), 255 < c.length →
    kp.signingKey.signInto P m c out = .ok (.error (.contextTooLong c.length),out)
  verifyTooLong : ∀ m c s : Bytes, 255 < c.length →
    kp.verifyingKey.verify P m c s = .error (.contextTooLong c.length)

/-- The account's context against the empty context of the prototype account and the
verifier contract, for one key pair stored in all three. -/
structure ContractsSeparate {D : MlDsaCrate} (h : D.verifyingKeySize = 1952) (F : D.Framing)
    (kp : Keypair D) (key : Bytes) : Prop where
  account_rejects : ∀ (m : Bytes) (p : Arr 32) {k n : ℕ} (out out' : Arr k) (s : PqAccount.Storage),
    kp.signingKey.signInto mldsa65 m [] out = .ok (.ok n,out') →
    F.Binds kp.signingKey.inner (frame m []) (frame p.val PqAccount.context) →
    s.pubKey = some key → PqAccount.checkAuth D s p (out'.val.take n) = .ok (.error .sigVerifyFailed)
  prototype_rejects : ∀ (m : Bytes) (p : Arr 32) {k n : ℕ} (out out' : Arr k) (s : PqAccount.Storage),
    kp.signingKey.signInto mldsa65 m PqAccount.context out = .ok (.ok n,out') →
    F.Binds kp.signingKey.inner (frame m PqAccount.context) (frame p.val []) →
    s.pubKey = some key → Phase0.PqAccount.checkAuth D h s p (out'.val.take n) ≠ .ok (.ok ())
  verifier_rejects : ∀ (m msg : Bytes) {k n : ℕ} (out out' : Arr k),
    kp.signingKey.signInto mldsa65 m PqAccount.context out = .ok (.ok n,out') →
    F.Binds kp.signingKey.inner (frame m PqAccount.context) (frame msg []) →
    Verifier.verify65 D key msg (out'.val.take n) = .ok false

section

variable {P : ParamSet} {D : MlDsaCrate}

/-- What a key has signed, its verifying key accepts for that message and context
only. -/
theorem accepts_signed_only (hS : D.SizesMatch P) (F : D.Framing) (kp : Keypair D)
    {m m' c c' : Bytes} {k n : ℕ} {out out' : Arr k}
    (hsign : kp.signingKey.signInto P m c out = .ok (.ok n,out')) (hc' : c'.length ≤ 255)
    (hbinds : F.Binds kp.signingKey.inner (frame m c) (frame m' c'))
    (hacc : D.Accepts kp.verifyingKey.inner m' c' (out'.val.take n)) : m = m' ∧ c = c' := by
  obtain ⟨hc,sig,hsig,htake⟩ := SigningKey.signInto_ok hS hsign
  have hframed : sig = F.signFramed kp.signingKey.inner (frame m c) := F.sign_eq _ m c sig hc hsig
  have hvk : kp.verifyingKey.inner = D.verifyingKey kp.signingKey.inner :=
    congrArg VerifyingKey.inner kp.matching
  obtain ⟨s,hdec,hv⟩ := hacc
  rw [htake,tryFrom_val,hframed] at hdec
  rw [hvk,F.verify_eq _ m' c' s hc'] at hv
  have hframe : frame m c = frame m' c' := (hbinds s hdec hv).symm
  exact frame_inj hc hc' hframe

theorem separatesContexts (hS : D.SizesMatch P) (F : D.Framing) (kp : Keypair D) :
    SeparatesContexts P F kp where
  binds m m' c c' k n out out' hsign hbinds hv := by
    obtain ⟨hc',-,hacc⟩ := (VerifyingKey.verify_eq_ok_iff kp.verifyingKey m' c' _).mp hv
    exact accepts_signed_only hS F kp hsign hc' hbinds hacc
  signTooLong m c k out hc := kp.signingKey.signInto_contextTooLong hc m out
  verifyTooLong m c s hc := kp.verifyingKey.verify_contextTooLong hc m s

theorem context_ne_nil : PqAccount.context ≠ [] := by decide

theorem contractsSeparate (hS : D.SizesMatch mldsa65) (hT : D.TraitsAgree) (F : D.Framing)
    (kp : Keypair D) {key : Bytes} (hkey : VerifyingKey.fromBytes mldsa65 D key = .ok kp.verifyingKey) :
    ContractsSeparate hS.verifyingKey F kp key where
  account_rejects m p k n out out' s hsign hbinds hs := by
    obtain ⟨-,sig,-,htake⟩ := SigningKey.signInto_ok hS hsign
    have hlen : (out'.val.take n).length = 3309 := by
      rw [htake]
      exact (Arr.length_val _).trans hS.signature
    have hkeyLen : key.length = mldsa65.vkLen := (VerifyingKey.fromBytes_ok_iff hS key).mp ⟨_,hkey⟩
    have hstores : PqAccount.Stores s (some ⟨key,hkeyLen⟩) := hs
    refine (hstores.decisionTable hS p _).sigVerifyFailed_iff.mpr ⟨key,hs,hlen,?_⟩
    intro hacc
    rw [VerifyingKey.acceptsEncoded_iff hS hkey] at hacc
    have hsame := accepts_signed_only hS F kp hsign PqAccount.context_le hbinds hacc
    exact context_ne_nil hsame.2.symm
  prototype_rejects m p k n out out' s hsign hbinds hs hok := by
    obtain ⟨pk,hpk,hacc⟩ := (Phase0.PqAccount.checkAuth_eq_ok_iff hT hS.verifyingKey hS.signature p _).mp hok
    rw [hs] at hpk
    cases hpk
    rw [VerifyingKey.acceptsEncoded_iff hS hkey] at hacc
    have hsame := accepts_signed_only hS F kp hsign (Nat.zero_le _) hbinds hacc
    exact context_ne_nil hsame.2
  verifier_rejects m msg k n out out' hsign hbinds := by
    have hno : ¬ D.AcceptsEncoded key msg [] (out'.val.take n) := by
      intro hacc
      rw [VerifyingKey.acceptsEncoded_iff hS hkey] at hacc
      have hsame := accepts_signed_only hS F kp hsign (Nat.zero_le _) hbinds hacc
      exact context_ne_nil hsame.2
    have heq := Verifier.verifyWith_eq hS key msg (out'.val.take n)
    rw [decide_eq_false (fun h => hno h.2)] at heq
    exact heq

end

/-- Contexts separate signatures at both parameter sets, and the contracts' contexts
separate the contracts. -/
theorem context_domain_separation (D65 D44 : MlDsaCrate) (h65 : D65.SizesMatch mldsa65)
    (h44 : D44.SizesMatch mldsa44) (ht65 : D65.TraitsAgree) (F65 : D65.Framing) (F44 : D44.Framing) :
    (∀ kp : Keypair D65, SeparatesContexts mldsa65 F65 kp) ∧
    (∀ kp : Keypair D44, SeparatesContexts mldsa44 F44 kp) ∧
    ∀ (kp : Keypair D65) (key : Bytes), VerifyingKey.fromBytes mldsa65 D65 key = .ok kp.verifyingKey →
      ContractsSeparate h65.verifyingKey F65 kp key :=
  ⟨separatesContexts h65 F65,separatesContexts h44 F44,fun kp _ hkey => contractsSeparate h65 ht65 F65 kp hkey⟩

/-- A signature by the zero seed under the empty context, offered to the account. -/
theorem context_domain_separation_zero_seed :
    ∃ (kp : Keypair (TagCrate.crate mldsa65)) (out' : Arr 3309),
      kp.signingKey.signInto mldsa65 (Arr.zero 32).val [] (Arr.zero 3309) = .ok (.ok 3309,out') ∧
      PqAccount.checkAuth (TagCrate.crate mldsa65) ⟨some kp.verifyingKey.inner.val⟩ (Arr.zero 32)
        (out'.val.take 3309) = .ok (.error .sigVerifyFailed) := by
  have hS := TagCrate.sizesMatch mldsa65
  let kp : Keypair (TagCrate.crate mldsa65) := ⟨⟨Arr.zero 32⟩,_,⟨Arr.zero 32,rfl⟩,rfl⟩
  obtain ⟨out',hsign,-⟩ := (signsInto hS (TagCrate.signingCorrect mldsa65)
    (TagCrate.keysBijective mldsa65).keepsVerification kp (Arr.zero 32).val [] (Arr.zero 3309)).signs
      (Nat.zero_le _) (Nat.le_refl _)
  have h := (context_domain_separation (TagCrate.crate mldsa65) (TagCrate.crate mldsa44) hS
    (TagCrate.sizesMatch mldsa44) (TagCrate.traitsAgree mldsa65) (TagCrate.framing mldsa65)
    (TagCrate.framing mldsa44)).2.2 kp kp.verifyingKey.inner.val (VerifyingKey.fromBytes_encode hS _)
  have hbinds := TagCrate.binds (P := mldsa65) (by decide) (Arr.zero 32)
    (by decide : (frame (Arr.zero 32).val []).length + 40 ≤ 3309)
    (by decide : (frame (Arr.zero 32).val PqAccount.context).length + 40 ≤ 3309)
  exact ⟨kp,out',hsign,h.account_rejects _ _ _ out' _ hsign hbinds rfl⟩

end SorobanMlDsa

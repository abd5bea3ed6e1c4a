import SorobanMlDsa.Account
import SorobanMlDsa.Phase0
import SorobanMlDsa.Rejection

/-!
# Rejections by length

A verifier must not leak why a signature failed. The stages that look at the contents of a
signature all end in one error; the tests in front of them read its length only.
-/

namespace SorobanMlDsa

open ByteSlice Rejection

variable {P : ParamSet} {D : MlDsaCrate}

theorem VerifyingKey.verify_uniform (vk : VerifyingKey D) (m c : Bytes) :
    Uniform List.length (vk.verify P m c) := by
  have hcontents : Only PqError.verificationFailed fun s =>
      if D.Accepts vk.inner m c s then .ok () else .error .verificationFailed := by
    intro s e he
    by_cases ha : D.Accepts vk.inner m c s
    · cases (if_pos ha).symm.trans he
    · exact (Except.error.inj ((if_neg ha).symm.trans he)).symm
  rw [funext (vk.verify_gates m c)]
  exact .gate (fun _ => checkContext c) fun _ => .gate (fun n => checkLen n P.sigLen) fun _ =>
    hcontents.uniform List.length

namespace PqAccount

variable (D) in
/-- What `__check_auth` tests before it verifies, of a signature of length `n`. -/
def precheck (storage : Storage) (n : ℕ) : Except Error (VerifyingKey D) :=
  match storage.pubKey with
  | none => .error .notInited
  | some stored =>
    if stored.length ≠ mldsa65.vkLen then .error .badPubKeyLen
    else if n ≠ mldsa65.sigLen then .error .badSigLen
    else (VerifyingKey.fromBytes mldsa65 D stored).mapError fun _ => .badPubKeyLen

/-- In every state `__check_auth` returns: its own tests, then the verdict of the
stored key with the error replaced. -/
theorem checkAuth_precheck (s : Storage) (p : Arr 32) (sig : Bytes) :
    checkAuth D s p sig = .ok (precheck D s sig.length >>= fun vk =>
      (vk.verify mldsa65 p.val context sig).mapError fun _ => .sigVerifyFailed) := by
  cases hs : s.pubKey with
  | none =>
    rw [checkAuth_notInited hs]
    simp only [precheck,hs,error_bind]
  | some stored =>
    by_cases hk : stored.length = mldsa65.vkLen
    · by_cases hsig : sig.length = mldsa65.sigLen
      · rw [checkAuth_sized hs hk p hsig]
        simp only [precheck,hs,if_neg (not_not.mpr hk),if_neg (not_not.mpr hsig)]
      · rw [checkAuth_badSigLen hs hk p hsig]
        simp only [precheck,hs,if_neg (not_not.mpr hk),if_pos hsig,error_bind]
    · rw [checkAuth_badPubKeyLen hs hk]
      simp only [precheck,hs,if_pos hk,error_bind]

theorem checkAuth_uniform (s : Storage) (p : Arr 32) :
    ∃ run : Bytes → Except Error Unit, (∀ sig, checkAuth D s p sig = .ok (run sig)) ∧
      Uniform List.length run :=
  ⟨_,checkAuth_precheck s p,.gate (precheck D s) fun vk => (vk.verify_uniform p.val context).mapError _⟩

end PqAccount

/-- The prototype told a signature that does not decode from one that does not
verify, so the length did not decide its error. -/
theorem Phase0.PqAccount.checkAuth_not_uniform {h : D.verifyingKeySize = 1952} {s : PqAccount.Storage}
    {pk : Bytes} (hs : s.pubKey = some pk) (hpk : pk.length = 1952) (p : Arr 32) {sig sig' : Bytes}
    (hsig : sig.length = 3309) (hsig' : sig'.length = 3309) (hmalformed : D.tryFromSignature sig = none)
    {t : D.Signature} (hdecodes : D.tryFromSignature sig' = some t)
    (hforged : D.verify (D.decode (encodedFrom h ⟨pk,hpk⟩)) p.val t = false) :
    ¬ ∃ run : Bytes → Except PqAccount.Error Unit,
      (∀ sig, Phase0.PqAccount.checkAuth D h s p sig = .ok (run sig)) ∧ Uniform List.length run := by
  rintro ⟨run,hrun,huniform⟩
  have hlen : run sig = .error .badSigLen := by
    have hr := hrun sig
    simp only [PqAccount.checkAuth,hs,hpk,hsig,copyIntoSlice_ok _ hpk,copyIntoSlice_ok _ hsig,
      copyIntoSlice_ok _ p.property,hmalformed,ok_bind] at hr
    exact (Except.ok.inj hr).symm
  have hverify : run sig' = .error .sigVerifyFailed := by
    have hr := hrun sig'
    simp only [PqAccount.checkAuth,hs,hpk,hsig',copyIntoSlice_ok _ hpk,copyIntoSlice_ok _ hsig',
      copyIntoSlice_ok _ p.property,hdecodes,hforged,ok_bind] at hr
    exact (Except.ok.inj hr).symm
  have hsame := huniform sig sig' _ _ (hsig.trans hsig'.symm) hlen hverify
  cases hsame

/-- Of a rejected signature a verifier reveals its length, and past the two length
tests nothing but that it was rejected. -/
structure RejectsByLength (P : ParamSet) (D : MlDsaCrate) : Prop where
  sameError : ∀ (vk : VerifyingKey D) m c s s' e e', s.length = s'.length →
    vk.verify P m c s = .error e → vk.verify P m c s' = .error e' → e = e'
  okOrFailed : ∀ (vk : VerifyingKey D) m c s, c.length ≤ 255 → s.length = P.sigLen →
    vk.verify P m c s = .ok () ∨ vk.verify P m c s = .error .verificationFailed

theorem rejectsByLength (P : ParamSet) (D : MlDsaCrate) : RejectsByLength P D where
  sameError vk m c s s' e e' hlen := vk.verify_uniform m c s s' e e' hlen
  okOrFailed vk m c s hc hs := by
    rw [vk.verify_decides hc hs]
    by_cases ha : D.Accepts vk.inner m c s
    · exact .inl (if_pos ha)
    · exact .inr (if_neg ha)

/-- `__check_auth` returns in every state, and its error is decided by the state and
the length of the signature. -/
structure PqAccount.RejectsByLength (D : MlDsaCrate) : Prop where
  returns : ∀ s p sig, ∃ r, checkAuth D s p sig = .ok r
  sameError : ∀ s p sig sig' e e', sig.length = sig'.length →
    checkAuth D s p sig = .ok (.error e) → checkAuth D s p sig' = .ok (.error e') → e = e'

theorem PqAccount.rejectsByLength (D : MlDsaCrate) : PqAccount.RejectsByLength D where
  returns s p sig := ⟨_,checkAuth_precheck s p sig⟩
  sameError s p sig sig' e e' hlen he he' := by
    obtain ⟨run,hrun,huniform⟩ := checkAuth_uniform (D := D) s p
    rw [hrun] at he he'
    exact huniform sig sig' e e' hlen (Except.ok.inj he) (Except.ok.inj he')

theorem rejections_reveal_length_only (D44 D65 : MlDsaCrate) :
    RejectsByLength mldsa44 D44 ∧ RejectsByLength mldsa65 D65 ∧ PqAccount.RejectsByLength D65 :=
  ⟨rejectsByLength mldsa44 D44,rejectsByLength mldsa65 D65,PqAccount.rejectsByLength D65⟩

end SorobanMlDsa

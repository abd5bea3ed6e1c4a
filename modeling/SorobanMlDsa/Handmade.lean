import SorobanMlDsa.AuthorizeTool
import SorobanMlDsa.Prototype

/-!
# Entries made by hand

The tools of phase 0 have no adapter: they put an authorization entry together field by field
and sign through the `signature` traits. What they make is what the adapter makes under the
empty context, which is the one the prototype account reads.
-/

namespace SorobanMlDsa.Phase0

open ByteSlice MachineInt Cli Transition

/-- What the tools of phase 0 link besides. -/
structure ToolPlatform (L : XdrLeaves) (F : LedgerKeys) extends Platform L F where
  /-- `Signer::sign` with the key of a seed. -/
  sign : (seed : Arr 32) → (message : Bytes) → crate.Signature
  /-- `TransactionResult::from_xdr_base64`, of which only the fee charged is computed with. -/
  feeChargedFromXdrBase64 : String → Option Int64

variable {L : XdrLeaves} {F : LedgerKeys} (P : ToolPlatform L F)

/-- `Signer::sign` signs under the empty context. -/
def ToolPlatform.SignsPlainly : Prop :=
  ∀ seed m, P.crate.signDeterministic (P.crate.fromSeed seed) m [] = some (P.sign seed m)

def seed : Arr 32 := ⟨List.replicate 32 42,rfl⟩

def keypair (D : MlDsaCrate) : Keypair D :=
  ⟨⟨D.fromSeed seed⟩,⟨D.verifyingKey (D.fromSeed seed)⟩,⟨seed,rfl⟩,rfl⟩

def network : Arr 32 := networkId P.sha256 testnetPassphrase

def invocation (address : L.ScAddress) (name : L.ScSymbol) : SorobanAuthorizedInvocation L :=
  .node (.contractFn ⟨address,name,[]⟩) []

def payload (address : L.ScAddress) (name : L.ScSymbol) (nonce : Int64) (expiry : UInt32) :
    AuthorizationPayload L := ⟨network P,nonce,expiry,invocation address name⟩

def handmadeEntry (address : L.ScAddress) (name : L.ScSymbol) (nonce : Int64) (expiry : UInt32) :
    Command (SorobanAuthorizationEntry L) := do
  let preimage ← unwrap (payload P address name nonce expiry).preimage
  let hash := P.sha256 preimage
  let sig := P.sign seed hash.val
  if P.crate.verify (P.crate.verifyingKey (P.crate.fromSeed seed)) hash.val sig then
    let signature ← unwrap (ScBytes.tryFrom (P.crate.encodeSignature sig).val)
    return ⟨.address ⟨address,nonce,expiry,.bytes signature⟩,invocation address name⟩
  else .error (.expect "assertion failed: vk.verify(&payload, &mldsa_sig).is_ok()")

section

variable {P} (hS : P.crate.SizesMatch mldsa65) (hT : P.crate.TraitsAgree) (hC : P.crate.SigningCorrect)
  (hP : P.SignsPlainly) {address : L.ScAddress} {name : L.ScSymbol} {nonce : Int64} {expiry : UInt32}

include hS hP

theorem signInto_sign (m : Bytes) : ∃ out, (keypair P.crate).signingKey.signInto mldsa65 m []
    (Arr.zero mldsa65.sigLen) = .ok (.ok mldsa65.sigLen,out) ∧
      out.val.take mldsa65.sigLen = (P.crate.encodeSignature (P.sign seed m)).val := by
  obtain ⟨out,hw,hval⟩ := (keypair P.crate).signingKey.signInto_signed hS (Nat.zero_le _)
    (Arr.zero mldsa65.sigLen) (Nat.le_refl _) (hP seed m)
  have hlen : (P.crate.encodeSignature (P.sign seed m)).val.length = mldsa65.sigLen :=
    (Arr.length_val _).trans hS.signature
  refine ⟨out,hw,?_⟩
  rw [hval,List.take_left' hlen]

include hT hC

/-- Once the payload is encoded the entry is made, under the crate's own signature. -/
theorem handmadeEntry_of_preimage {preimage : Bytes}
    (hpre : (payload P address name nonce expiry).preimage = some preimage) : ∃ sig : ScBytes,
      sig.val = (P.crate.encodeSignature (P.sign seed (P.sha256 preimage).val)).val ∧
      handmadeEntry P address name nonce expiry =
        .ok ⟨.address ⟨address,nonce,expiry,.bytes sig⟩,invocation address name⟩ := by
  have hlen : (P.crate.encodeSignature (P.sign seed (P.sha256 preimage).val)).val.length = 3309 :=
    (Arr.length_val _).trans hS.signature
  have hfits : (P.crate.encodeSignature (P.sign seed (P.sha256 preimage).val)).val.length ≤ u32Max := by
    rw [hlen]
    decide
  have hverify : P.crate.verify (P.crate.verifyingKey (P.crate.fromSeed seed)) (P.sha256 preimage).val
      (P.sign seed (P.sha256 preimage).val) = true := by
    rw [hT.verify_eq]
    exact hC.verify_sign seed _ [] _ (hP seed _)
  refine ⟨⟨_,hfits⟩,rfl,?_⟩
  simp only [handmadeEntry,hpre,unwrap,ok_bind,hverify,if_true,ScBytes.tryFrom_of_le hfits,pure_eq_ok]

/-- By hand or through the adapter under the empty context: one entry, or none. -/
theorem handmadeEntry_eq_ok_iff {entry : SorobanAuthorizationEntry L} :
    handmadeEntry P address name nonce expiry = .ok entry ↔
      buildAuthEntry (scheme mldsa65 P.crate) P.sha256 address (keypair P.crate).signingKey
        (payload P address name nonce expiry) [] = .ok (.ok entry) := by
  cases hpre : (payload P address name nonce expiry).preimage with
  | none =>
    have hfails : (payload P address name nonce expiry).signaturePayload P.sha256 =
        .error (.xdr "failed to encode HashIdPreimage") := by rw [AuthorizationPayload.signaturePayload,hpre]
    have hbuilt : buildAuthEntry (scheme mldsa65 P.crate) P.sha256 address (keypair P.crate).signingKey
        (payload P address name nonce expiry) [] = .ok (.error (.xdr "failed to encode HashIdPreimage")) :=
      buildAuthEntry_of_payload_error (S := scheme mldsa65 P.crate) hfails
    rw [hbuilt]
    simp [handmadeEntry,hpre,unwrap]
  | some preimage =>
    have hhash : (payload P address name nonce expiry).signaturePayload P.sha256 = .ok (P.sha256 preimage) :=
      AuthorizationPayload.signaturePayload_eq_ok.mpr ⟨preimage,hpre,rfl⟩
    obtain ⟨out,hs,htake⟩ := signInto_sign hS hP (P.sha256 preimage).val
    obtain ⟨sig,hsig,hmade⟩ := handmadeEntry_of_preimage hS hT hC hP hpre
    rw [hmade,buildAuthEntry_of_signed (S := scheme mldsa65 P.crate) hhash hs,htake,← hsig,bytesToScval_ok sig.le]
    simp only [Except.map,Except.ok.injEq]
    rfl

end

/-- What the host reads off an entry: the hash it asks the account about, and the signature. -/
def Presents (networkId : Arr 32) (sha256 : Bytes → Arr 32) (entry : SorobanAuthorizationEntry L) (hash : Arr 32)
    (sig : ScBytes) : Prop :=
  ∃ creds, entry.credentials = .address creds ∧ creds.signature = .bytes sig ∧
    (creds.payload networkId entry.rootInvocation).signaturePayload sha256 = .ok hash

theorem ScBytes.tryFrom_val {b : Bytes} {v : ScBytes} (h : ScBytes.tryFrom b = some v) : v.val = b := by
  by_cases hfits : b.length ≤ u32Max
  · rw [ScBytes.tryFrom_of_le hfits] at h
    rw [← Option.some.inj h]
  · rw [ScBytes.tryFrom_eq_none (Nat.not_le.mp hfits)] at h
    cases h

section

variable {S : PqScheme} {sha256 : Bytes → Arr 32} {account : L.ScAddress} {sk : S.SigningKey}
  {p : AuthorizationPayload L} {c : Bytes} {entry : SorobanAuthorizationEntry L}

theorem signAuthorization_ok {sig : Bytes} (h : signAuthorization S sha256 sk p c = .ok (.ok sig)) :
    ∃ hash n, ∃ out : Arr S.signatureLen, p.signaturePayload sha256 = .ok hash ∧
      PqSigner.signInto sk hash.val c (Arr.zero S.signatureLen) = .ok (.ok n,out) ∧ sig = out.val.take n := by
  cases hhash : p.signaturePayload sha256 with
  | error e =>
    rw [signAuthorization,hhash] at h
    cases h
  | ok hash =>
    rw [signAuthorization,hhash] at h
    obtain ⟨⟨r,out⟩,hs,h⟩ := bind_eq_ok.mp h
    cases r with
    | error e => cases h
    | ok n => exact ⟨hash,n,out,rfl,hs,(Except.ok.inj (Except.ok.inj h)).symm⟩

theorem buildAuthEntry_presents (h : buildAuthEntry S sha256 account sk p c = .ok (.ok entry)) :
    ∃ hash n sig, ∃ out : Arr S.signatureLen, p.signaturePayload sha256 = .ok hash ∧
      PqSigner.signInto sk hash.val c (Arr.zero S.signatureLen) = .ok (.ok n,out) ∧
      sig.val = out.val.take n ∧ Presents p.networkId sha256 entry hash sig := by
  obtain ⟨r,hr,h⟩ := bind_eq_ok.mp h
  cases r with
  | error e => cases h
  | ok bytes =>
    obtain ⟨hash,n,out,hhash,hs,rfl⟩ := signAuthorization_ok hr
    cases hsig : ScBytes.tryFrom (out.val.take n) with
    | none =>
      simp only [bytesToScval,hsig] at h
      cases h
    | some sig =>
      simp only [bytesToScval,hsig] at h
      cases h
      exact ⟨hash,n,sig,out,hhash,hs,ScBytes.tryFrom_val hsig,_,rfl,rfl,hhash⟩

end

section

variable (P : ToolPlatform L F) (address : L.ScAddress) (name : L.ScSymbol) (nonce : Int64) (expiry : UInt32)

def adaptedEntry (c : Bytes) : Outcome (Except StellarError (SorobanAuthorizationEntry L)) :=
  buildAuthEntry (scheme mldsa65 P.crate) P.sha256 address (keypair P.crate).signingKey
    (payload P address name nonce expiry) c

/-- What becomes of an entry for `hash` under the context `c`: a prototype in state `s` grants
it under the empty context only, a successor in state `s'` under the account's only. -/
def ReadAlone {D : MlDsaCrate} (h : D.verifyingKeySize = 1952) (F : D.Framing)
    (s s' : SorobanMlDsa.PqAccount.Storage) (hash : Arr 32) (c sig : Bytes) : Prop :=
  (F.Binds (D.fromSeed seed) (frame hash.val c) (frame hash.val []) →
    (PqAccount.checkAuth D h s hash sig = .ok (.ok ()) ↔ c = [])) ∧
  (F.Binds (D.fromSeed seed) (frame hash.val c) (frame hash.val SorobanMlDsa.PqAccount.context) →
    (SorobanMlDsa.PqAccount.checkAuth D s' hash sig = .ok (.ok ()) ↔ c = SorobanMlDsa.PqAccount.context))

/-- Made by hand an entry is the adapter's under the empty context. Whichever context an
entry is made under, after any history that left the tools' key in storage the prototype
grants it exactly under the empty one, and the successor exactly under the account's. -/
theorem handmade_entries (hS : P.crate.SizesMatch mldsa65) (hT : P.crate.TraitsAgree) (hC : P.crate.SigningCorrect)
    (hP : P.SignsPlainly) (F' : P.crate.Framing) {A : Type}
    (is : List (SorobanMlDsa.PqAccount.Invocation A)) (key : Bytes)
    (hkey : VerifyingKey.fromBytes mldsa65 P.crate key = .ok (keypair P.crate).verifyingKey)
    (hstored : (is.foldl (PqAccount.step P.crate hS.verifyingKey) SorobanMlDsa.PqAccount.fresh).pubKey = some key) :
    (∀ entry, handmadeEntry P address name nonce expiry = .ok entry ↔
      adaptedEntry P address name nonce expiry [] = .ok (.ok entry)) ∧
    ∀ c entry, adaptedEntry P address name nonce expiry c = .ok (.ok entry) →
      ∃ hash sig, Presents (network P) P.sha256 entry hash sig ∧ ReadAlone hS.verifyingKey F'
        (is.foldl (PqAccount.step P.crate hS.verifyingKey) SorobanMlDsa.PqAccount.fresh)
        (is.foldl (SorobanMlDsa.PqAccount.step P.crate) SorobanMlDsa.PqAccount.fresh) hash c sig.val := by
  constructor
  · intro entry
    exact handmadeEntry_eq_ok_iff hS hT hC hP
  · intro c entry hentry
    obtain ⟨hash,n,sig,out,-,hs,hsig,hpresents⟩ := buildAuthEntry_presents hentry
    refine ⟨hash,sig,hpresents,?_,?_⟩
    · intro hbinds
      rw [hsig]
      simpa using PqAccount.checkAuth_signed_iff hS hT hC F' hkey hs hstored hbinds
    · intro hbinds
      rw [hsig,← PqAccount.run_eq hS.verifyingKey hS is]
      simpa using PqAccount.successor_signed_iff hS hC F' hkey hs hstored hbinds

end

@[reducible] def sampleTools : ToolPlatform contractLeaves codeKeys where
  toPlatform := {AuthorizeTool.samplePlatform with crate := TagCrate.crate mldsa65}
  sign seed m := TagCrate.tag mldsa65 (TagCrate.pad mldsa65.vkLen seed.val) (frame m [])
  feeChargedFromXdrBase64 _ := some 0

theorem sampleTools_signsPlainly : sampleTools.SignsPlainly := by
  intro seed m
  rfl

/-- An entry by hand for the zero account, granted by the prototype only. -/
theorem handmade_entries_sample : ∃ entry hash sig,
    handmadeEntry sampleTools (Arr.zero 32) Authorize.zeroSetting.functionName 1 1000 = .ok entry ∧
      Presents (network sampleTools) Sha256.digest entry hash sig ∧
      PqAccount.checkAuth sampleTools.crate (TagCrate.sizesMatch mldsa65).verifyingKey
        ⟨some (keypair sampleTools.crate).verifyingKey.inner.val⟩ hash sig.val = .ok (.ok ()) ∧
      SorobanMlDsa.PqAccount.checkAuth sampleTools.crate
        ⟨some (keypair sampleTools.crate).verifyingKey.inner.val⟩ hash sig.val ≠ .ok (.ok ()) := by
  have hS := TagCrate.sizesMatch mldsa65
  have hC := TagCrate.signingCorrect mldsa65
  let key : Arr mldsa65.vkLen := (keypair sampleTools.crate).verifyingKey.inner
  let i : SorobanMlDsa.PqAccount.Invocation ℕ := ⟨0,none,.init key.val⟩
  have hrun : [i].foldl (SorobanMlDsa.PqAccount.step sampleTools.crate) SorobanMlDsa.PqAccount.fresh =
      ⟨some key.val⟩ := by
    rw [List.foldl_cons,List.foldl_nil,SorobanMlDsa.PqAccount.step_init_ok hS rfl key.property]
  have hrun' := (PqAccount.run_eq hS.verifyingKey hS [i]).trans hrun
  have h := handmade_entries sampleTools (Arr.zero 32) Authorize.zeroSetting.functionName 1 1000 hS
    (TagCrate.traitsAgree mldsa65) hC sampleTools_signsPlainly (TagCrate.framing mldsa65) [i] key.val
    (VerifyingKey.fromBytes_encode hS (keypair sampleTools.crate).verifyingKey) (congrArg _ hrun')
  rw [hrun,hrun'] at h
  have hpreimage : (payload sampleTools (Arr.zero 32) Authorize.zeroSetting.functionName 1 1000).preimage =
      some ((payload sampleTools (Arr.zero 32) Authorize.zeroSetting.functionName 1 1000).preimage.getD []) := by
    decide +kernel
  obtain ⟨signature,-,hentry⟩ := handmadeEntry_of_preimage (P := sampleTools) hS (TagCrate.traitsAgree mldsa65) hC
    sampleTools_signsPlainly hpreimage
  obtain ⟨hash,sig,hpresents,hread⟩ := h.2 [] _ ((h.1 _).mp hentry)
  have hframe (c : Bytes) (hc : c.length ≤ 255) : (frame hash.val c).length + 40 ≤ 3309 := by
    have hlen := hash.property
    simp only [frame,List.length_cons,List.length_append]
    omega
  have hbinds (c : Bytes) (hc : c.length ≤ 255) := TagCrate.binds (P := mldsa65) (by decide) seed
    (hframe [] (Nat.zero_le _)) (hframe c hc)
  refine ⟨_,hash,sig,hentry,hpresents,(hread.1 (hbinds [] (by decide))).mpr rfl,?_⟩
  intro haccepted
  exact context_ne_nil ((hread.2 (hbinds _ (by decide))).mp haccepted).symm

end SorobanMlDsa.Phase0

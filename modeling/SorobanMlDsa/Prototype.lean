import SorobanMlDsa.DomainSeparation

/-!
# Two generations of the account

The prototype account next to its successor. Both keep one key and replace it alike, so one
history leaves them with one key; they differ in the context under which they read a
signature, and in what they call a signature that does not decode.
-/

namespace SorobanMlDsa.Phase0.PqAccount

open ByteSlice Transition
open SorobanMlDsa.PqAccount (Storage Env Error Call Invocation Value Slot Stores fresh)

section Machine

variable (D : MlDsaCrate) (h : D.verifyingKeySize = 1952)

/-- The prototype's `init` stores a key it has not decoded. -/
def init (env : Env) (pubkey : Bytes) : Outcome (Except Error Unit × Env) :=
  if pubkey.length ≠ 1952 then .ok (.error .badPubKeyLen,env)
  else .ok (.ok (),{env with storage := ⟨some pubkey⟩})

def requireAuth (env : Env) : Outcome Env :=
  match env.presented with
  | none => .error .trap
  | some a => do
    match ← checkAuth D h env.storage a.signaturePayload a.signature with
    | .error _ => .error .trap
    | .ok () => return {env with authorized := true}

def protectedCall (env : Env) : Outcome (UInt32 × Env) := do
  let env ← requireAuth D h env
  return (42,env)

def dispatch (env : Env) : Call → Outcome (Except Error Value × Env)
  | .init pubkey => do
    let (r,env) ← init env pubkey
    return (r.map fun _ => .unit,env)
  | .protectedCall => do
    let (n,env) ← protectedCall D h env
    return (.ok (.u32 n),env)
  | .checkAuth p sig => do
    let r ← checkAuth D h env.storage p sig
    return (r.map fun _ => .unit,env)

variable {A : Type}

def invoke (s : Storage) (i : Invocation A) : Outcome (Except Error Value × Env) :=
  dispatch D h ⟨s,i.presented,false⟩ i.call

def step (s : Storage) (i : Invocation A) : Storage :=
  match invoke D h s i with
  | .ok (.ok _,env) => env.storage
  | _ => s

end Machine

def verdict (D : MlDsaCrate) (slot : Slot) (signaturePayload signature : Bytes) : Except Error Unit :=
  match slot with
  | none => .error .notInited
  | some key =>
    if signature.length ≠ 3309 then .error .badSigLen
    else if D.tryFromSignature signature = none then .error .badSigLen
    else if D.AcceptsEncoded key.val signaturePayload [] signature then .ok ()
    else .error .sigVerifyFailed

section

variable {D : MlDsaCrate} (h : D.verifyingKeySize = 1952) {A : Type} {s : Storage} {i : Invocation A}

theorem requireAuth_storage {env env' : Env} (he : requireAuth D h env = .ok env') :
    env'.storage = env.storage := by
  cases hp : env.presented with
  | none => simp [requireAuth,hp] at he
  | some a =>
    simp only [requireAuth,hp] at he
    obtain ⟨r,-,hr⟩ := bind_eq_ok.mp he
    cases r with
    | error e => cases hr
    | ok u => rw [← Except.ok.inj hr]

theorem step_init {pubkey : Bytes} (hi : i.call = .init pubkey) :
    step D h s i = if pubkey.length = 1952 then ⟨some pubkey⟩ else s := by
  by_cases hk : pubkey.length = 1952 <;> simp [step,invoke,hi,dispatch,init,hk,Except.map]

theorem step_of_not_init (hi : ∀ pubkey, i.call ≠ .init pubkey) : step D h s i = s := by
  cases hcall : i.call with
  | init pubkey => exact absurd hcall (hi pubkey)
  | protectedCall =>
    cases hp : requireAuth D h ⟨s,i.presented,false⟩ with
    | error e => simp [step,invoke,hcall,dispatch,protectedCall,hp]
    | ok env =>
      have hstorage := requireAuth_storage h hp
      simpa [step,invoke,hcall,dispatch,protectedCall,hp] using hstorage
  | checkAuth p sig =>
    cases hc : checkAuth D h s p sig with
    | error e => simp [step,invoke,hcall,dispatch,hc]
    | ok r => cases r <;> simp [step,invoke,hcall,dispatch,hc,Except.map]

/-- Both generations write the same, from any storage. -/
theorem step_eq (hS : D.SizesMatch mldsa65) (s : Storage) (i : Invocation A) :
    step D h s i = SorobanMlDsa.PqAccount.step D s i := by
  cases hcall : i.call with
  | init pubkey =>
    rw [step_init h hcall]
    split
    · rename_i hk
      exact (SorobanMlDsa.PqAccount.step_init_ok hS hcall hk).symm
    · rename_i hk
      exact (SorobanMlDsa.PqAccount.step_init_wrongLength hcall hk).symm
  | protectedCall =>
    rw [step_of_not_init h (by simp [hcall]),SorobanMlDsa.PqAccount.step_of_not_init (by simp [hcall])]
  | checkAuth p sig =>
    rw [step_of_not_init h (by simp [hcall]),SorobanMlDsa.PqAccount.step_of_not_init (by simp [hcall])]

theorem run_eq (hS : D.SizesMatch mldsa65) (is : List (Invocation A)) :
    is.foldl (step D h) fresh = is.foldl (SorobanMlDsa.PqAccount.step D) fresh := by
  apply foldl_simulates (R := Eq) _ rfl
  rintro s t i rfl
  exact step_eq h hS s i

theorem checkAuth_refines (hT : D.TraitsAgree) {slot : Slot} (hs : Stores s slot) (p : Arr 32) (sig : Bytes) :
    checkAuth D h s p sig = .ok (verdict D slot p.val sig) := by
  cases slot with
  | none =>
    have hk : s.pubKey = none := hs
    simp [checkAuth,hk,verdict]
  | some key =>
    have hk : s.pubKey = some key.val := hs
    have hkey : key.val.length = 1952 := key.property
    have hacc := MlDsaCrate.acceptsEncoded_iff (hkey.trans h.symm) p.val [] sig
    by_cases hsig : sig.length = 3309
    · simp only [checkAuth,hk,if_neg (not_not.mpr hkey),if_neg (not_not.mpr hsig),copyIntoSlice_ok _ hkey,
        copyIntoSlice_ok _ hsig,copyIntoSlice_ok _ p.property,ok_bind,pure_eq_ok,encodedFrom,verdict,hacc,
        hT.accepts_iff]
      cases hd : D.tryFromSignature sig with
      | none => rfl
      | some sg => by_cases hv : D.verify (D.decode ⟨key.val,hkey.trans h.symm⟩) p.val sg = true <;> simp [hv]
    · simp [checkAuth,hk,hkey,hsig,copyIntoSlice_ok,verdict]

end

/-- The prototype's answers. A signature that does not decode counts as one of the wrong
length. -/
structure DecisionTable (D : MlDsaCrate) (h : D.verifyingKeySize = 1952) (s : Storage) (p : Arr 32)
    (sig : Bytes) : Prop where
  notInited_iff : checkAuth D h s p sig = .ok (.error .notInited) ↔ s.pubKey = none
  badSigLen_iff : checkAuth D h s p sig = .ok (.error .badSigLen) ↔
    s.pubKey ≠ none ∧ (sig.length ≠ 3309 ∨ D.tryFromSignature sig = none)
  ok_iff : checkAuth D h s p sig = .ok (.ok ()) ↔ ∃ k, s.pubKey = some k ∧ D.AcceptsEncoded k p.val [] sig
  sigVerifyFailed_iff : checkAuth D h s p sig = .ok (.error .sigVerifyFailed) ↔
    ∃ k, s.pubKey = some k ∧ sig.length = 3309 ∧ D.tryFromSignature sig ≠ none ∧
      ¬ D.AcceptsEncoded k p.val [] sig
  ne_badPubKeyLen : checkAuth D h s p sig ≠ .ok (.error .badPubKeyLen)
  no_panic : ∀ e, checkAuth D h s p sig ≠ .error e

/-- Where the two generations give one answer: without a key, at a wrong length, and else when
the signature decodes and the two contexts do not tell. -/
def Indifferent (D : MlDsaCrate) (s : Storage) (p : Arr 32) (sig : Bytes) : Prop :=
  s.pubKey = none ∨ sig.length ≠ 3309 ∨ D.tryFromSignature sig ≠ none ∧ ∀ k, s.pubKey = some k →
    (D.AcceptsEncoded k p.val [] sig ↔ D.AcceptsEncoded k p.val SorobanMlDsa.PqAccount.context sig)

section

variable {D : MlDsaCrate} (h : D.verifyingKeySize = 1952) {s : Storage} {slot : Slot}

theorem tryFromSignature_ne_none (hT : D.TraitsAgree) {k m c sig : Bytes} (hacc : D.AcceptsEncoded k m c sig) :
    D.tryFromSignature sig ≠ none := by
  obtain ⟨a,-,sg,hsg,-⟩ := hacc
  rw [hT.tryFrom_eq,hsg]
  simp

theorem decisionTable (hT : D.TraitsAgree) (hs : Stores s slot) (hsize : D.signatureSize = 3309) (p : Arr 32)
    (sig : Bytes) : DecisionTable D h s p sig := by
  have hc := checkAuth_refines h hT hs p sig
  have hok : checkAuth D h s p sig = .ok (.ok ()) ↔ ∃ k, s.pubKey = some k ∧ D.AcceptsEncoded k p.val [] sig :=
    checkAuth_eq_ok_iff hT h hsize p sig
  cases slot with
  | none =>
    have hk : s.pubKey = none := hs
    constructor <;> simp [hc,hk,verdict]
  | some key =>
    have hk : s.pubKey = some key.val := hs
    by_cases hlen : sig.length = 3309
    · by_cases hd : D.tryFromSignature sig = none
      · constructor <;> simp_all [verdict]
      · by_cases ha : D.AcceptsEncoded key.val p.val [] sig <;> constructor <;> simp [hc,hk,verdict,hlen,hd,ha]
    · constructor <;> simp_all [verdict]

theorem agree_iff (hS : D.SizesMatch mldsa65) (hT : D.TraitsAgree) (hs : Stores s slot) (p : Arr 32) (sig : Bytes) :
    checkAuth D h s p sig = SorobanMlDsa.PqAccount.checkAuth D s p sig ↔ Indifferent D s p sig := by
  rw [checkAuth_refines h hT hs p sig,SorobanMlDsa.PqAccount.checkAuth_refines hS hs p sig]
  have hlit : mldsa65.sigLen = 3309 := rfl
  cases slot with
  | none =>
    have hk : s.pubKey = none := hs
    simp [verdict,Slot.verdict,Indifferent,hk]
  | some key =>
    have hk : s.pubKey = some key.val := hs
    by_cases hlen : sig.length = 3309
    · by_cases hd : D.tryFromSignature sig = none
      · have hno : ¬ D.AcceptsEncoded key.val p.val SorobanMlDsa.PqAccount.context sig :=
          fun ha => tryFromSignature_ne_none hT ha hd
        simp [verdict,Slot.verdict,Indifferent,hk,hlit,hlen,hd,hno]
      · by_cases ha : D.AcceptsEncoded key.val p.val [] sig <;>
          by_cases hb : D.AcceptsEncoded key.val p.val SorobanMlDsa.PqAccount.context sig <;>
          simp [verdict,Slot.verdict,Indifferent,hk,hlit,hlen,hd,ha,hb]
    · simp [verdict,Slot.verdict,Indifferent,hk,hlit,hlen]

theorem invoke_init {A : Type} (hS : D.SizesMatch mldsa65) {i : Invocation A} {pubkey : Bytes}
    (hi : i.call = .init pubkey) : invoke D h s i = SorobanMlDsa.PqAccount.invoke D s i := by
  by_cases hk : pubkey.length = 1952
  · rw [SorobanMlDsa.PqAccount.invoke_init_ok hS hi hk]
    simp [invoke,hi,dispatch,init,hk,Except.map]
  · rw [SorobanMlDsa.PqAccount.invoke_init_wrongLength hi hk]
    simp [invoke,hi,dispatch,init,hk,Except.map]

end

/-- Both generations after one history of calls. -/
structure Generations (D : MlDsaCrate) (h : D.verifyingKeySize = 1952) {A : Type} (is : List (Invocation A)) :
    Prop where
  storage : is.foldl (step D h) fresh = is.foldl (SorobanMlDsa.PqAccount.step D) fresh
  table : ∀ p sig, DecisionTable D h (is.foldl (step D h) fresh) p sig
  agree_iff : ∀ p sig, checkAuth D h (is.foldl (step D h) fresh) p sig =
    SorobanMlDsa.PqAccount.checkAuth D (is.foldl (SorobanMlDsa.PqAccount.step D) fresh) p sig ↔
      Indifferent D (is.foldl (step D h) fresh) p sig
  inits : ∀ (i : Invocation A) pubkey, i.call = .init pubkey → invoke D h (is.foldl (step D h) fresh) i =
    SorobanMlDsa.PqAccount.invoke D (is.foldl (SorobanMlDsa.PqAccount.step D) fresh) i

/-- The same calls leave both generations with the same key; from then on they answer alike
exactly where context and decoding do not matter. -/
theorem generations_agree {A : Type} (D : MlDsaCrate) (hS : D.SizesMatch mldsa65) (hT : D.TraitsAgree)
    (is : List (Invocation A)) : Generations D hS.verifyingKey is := by
  have hrun := run_eq hS.verifyingKey hS is
  have hstores : Stores (is.foldl (step D hS.verifyingKey) fresh) (is.foldl Slot.step none) := by
    rw [hrun]
    exact SorobanMlDsa.PqAccount.run_refines hS is
  constructor
  · exact hrun
  · exact decisionTable hS.verifyingKey hT hstores hS.signature
  · intro p sig
    rw [← hrun]
    exact agree_iff hS.verifyingKey hS hT hstores p sig
  · intro i pubkey hi
    rw [← hrun]
    exact invoke_init hS.verifyingKey hS hi

def rekeyed : List (Invocation ℕ) :=
  [⟨0,none,.init (List.replicate 1952 1)⟩,⟨1,none,.init (List.replicate 1952 2)⟩]

/-- After it both generations say the same of a signature that is too short. -/
theorem generations_agree_rekeyed :
    checkAuth (TagCrate.crate mldsa65) (TagCrate.sizesMatch mldsa65).verifyingKey
      (rekeyed.foldl (step (TagCrate.crate mldsa65) (TagCrate.sizesMatch mldsa65).verifyingKey) fresh)
      (Arr.zero 32) [3] =
    SorobanMlDsa.PqAccount.checkAuth (TagCrate.crate mldsa65)
      (rekeyed.foldl (SorobanMlDsa.PqAccount.step (TagCrate.crate mldsa65)) fresh) (Arr.zero 32) [3] := by
  have h := generations_agree (TagCrate.crate mldsa65) (TagCrate.sizesMatch mldsa65) (TagCrate.traitsAgree mldsa65)
    rekeyed
  exact (h.agree_iff (Arr.zero 32) [3]).mpr (.inr (.inl (by decide)))

section

variable {D : MlDsaCrate} {kp : Keypair D} {key m c : Bytes} {k n : ℕ} {out out' : Arr k}

/-- What a pair has signed, the bytes of its verifying key accept for that message and
context, and for no other that signatures bind. -/
theorem acceptsEncoded_signed_iff (hS : D.SizesMatch mldsa65) (hC : D.SigningCorrect) (F : D.Framing)
    (hkey : VerifyingKey.fromBytes mldsa65 D key = .ok kp.verifyingKey)
    (hsign : kp.signingKey.signInto mldsa65 m c out = .ok (.ok n,out')) {m' c' : Bytes} (hc' : c'.length ≤ 255)
    (hbinds : F.Binds kp.signingKey.inner (frame m c) (frame m' c')) :
    D.AcceptsEncoded key m' c' (out'.val.take n) ↔ m = m' ∧ c = c' := by
  rw [VerifyingKey.acceptsEncoded_iff hS hkey]
  constructor
  · exact accepts_signed_only hS F kp hsign hc' hbinds
  · rintro ⟨rfl,rfl⟩
    obtain ⟨-,sig,hsig,htake⟩ := SigningKey.signInto_ok hS hsign
    rw [htake]
    have hacc := accepts_signed hC kp hsig
    rwa [← kp.matching] at hacc

theorem checkAuth_signed_iff (hS : D.SizesMatch mldsa65) (hT : D.TraitsAgree) (hC : D.SigningCorrect)
    (F : D.Framing) (hkey : VerifyingKey.fromBytes mldsa65 D key = .ok kp.verifyingKey)
    (hsign : kp.signingKey.signInto mldsa65 m c out = .ok (.ok n,out')) {s : Storage} (hs : s.pubKey = some key)
    {p : Arr 32} (hbinds : F.Binds kp.signingKey.inner (frame m c) (frame p.val [])) :
    checkAuth D hS.verifyingKey s p (out'.val.take n) = .ok (.ok ()) ↔ m = p.val ∧ c = [] := by
  rw [checkAuth_eq_ok_iff hT hS.verifyingKey hS.signature,hs]
  simp only [Option.some.injEq,exists_eq_left']
  exact acceptsEncoded_signed_iff hS hC F hkey hsign (Nat.zero_le _) hbinds

theorem successor_signed_iff (hS : D.SizesMatch mldsa65) (hC : D.SigningCorrect) (F : D.Framing)
    (hkey : VerifyingKey.fromBytes mldsa65 D key = .ok kp.verifyingKey)
    (hsign : kp.signingKey.signInto mldsa65 m c out = .ok (.ok n,out')) {s : Storage} (hs : s.pubKey = some key)
    {p : Arr 32} (hbinds : F.Binds kp.signingKey.inner (frame m c) (frame p.val SorobanMlDsa.PqAccount.context)) :
    SorobanMlDsa.PqAccount.checkAuth D s p (out'.val.take n) = .ok (.ok ()) ↔
      m = p.val ∧ c = SorobanMlDsa.PqAccount.context := by
  have hlen : key.length = mldsa65.vkLen := (VerifyingKey.fromBytes_ok_iff hS key).mp ⟨_,hkey⟩
  have hstores : Stores s (some ⟨key,hlen⟩) := hs
  obtain ⟨-,sig,-,htake⟩ := SigningKey.signInto_ok hS hsign
  have hsize : (out'.val.take n).length = 3309 := by
    rw [htake]
    exact (Arr.length_val _).trans hS.signature
  rw [(hstores.decisionTable hS p _).ok_iff,hs]
  simp only [Option.some.injEq,exists_eq_left',hsize,true_and]
  exact acceptsEncoded_signed_iff hS hC F hkey hsign SorobanMlDsa.PqAccount.context_le hbinds

/-- One key pair, stored in both generations by any one history: what it signs is accepted
for the signed hash alone, by the prototype under the empty context and by its successor
under the account's. -/
theorem signed_for_one_generation {A : Type} (D : MlDsaCrate) (hS : D.SizesMatch mldsa65) (hT : D.TraitsAgree)
    (hC : D.SigningCorrect) (F : D.Framing) (kp : Keypair D) (is : List (Invocation A)) (key : Bytes)
    (hkey : VerifyingKey.fromBytes mldsa65 D key = .ok kp.verifyingKey)
    (hstored : (is.foldl (step D hS.verifyingKey) fresh).pubKey = some key) (m c : Bytes) (p : Arr 32) {k n : ℕ}
    (out out' : Arr k) (hsign : kp.signingKey.signInto mldsa65 m c out = .ok (.ok n,out'))
    (hempty : F.Binds kp.signingKey.inner (frame m c) (frame p.val []))
    (hcontext : F.Binds kp.signingKey.inner (frame m c) (frame p.val SorobanMlDsa.PqAccount.context)) :
    (checkAuth D hS.verifyingKey (is.foldl (step D hS.verifyingKey) fresh) p (out'.val.take n) = .ok (.ok ()) ↔
      m = p.val ∧ c = []) ∧
    (SorobanMlDsa.PqAccount.checkAuth D (is.foldl (SorobanMlDsa.PqAccount.step D) fresh) p (out'.val.take n) =
      .ok (.ok ()) ↔ m = p.val ∧ c = SorobanMlDsa.PqAccount.context) := by
  constructor
  · exact checkAuth_signed_iff hS hT hC F hkey hsign hstored hempty
  · rw [← run_eq hS.verifyingKey hS is]
    exact successor_signed_iff hS hC F hkey hsign hstored hcontext

end

/-- The zero seed signs a hash the way the prototype's tools do. -/
theorem signed_for_one_generation_zero :
    ∃ (kp : Keypair (TagCrate.crate mldsa65)) (out' : Arr 3309), ∃ is : List (Invocation ℕ),
      kp.signingKey.signInto mldsa65 (Arr.zero 32).val [] (Arr.zero 3309) = .ok (.ok 3309,out') ∧
      checkAuth (TagCrate.crate mldsa65) (TagCrate.sizesMatch mldsa65).verifyingKey
        (is.foldl (step (TagCrate.crate mldsa65) (TagCrate.sizesMatch mldsa65).verifyingKey) fresh) (Arr.zero 32)
        (out'.val.take 3309) = .ok (.ok ()) ∧
      SorobanMlDsa.PqAccount.checkAuth (TagCrate.crate mldsa65)
        (is.foldl (SorobanMlDsa.PqAccount.step (TagCrate.crate mldsa65)) fresh) (Arr.zero 32)
        (out'.val.take 3309) ≠ .ok (.ok ()) := by
  have hS := TagCrate.sizesMatch mldsa65
  have hC := TagCrate.signingCorrect mldsa65
  let kp : Keypair (TagCrate.crate mldsa65) := ⟨⟨Arr.zero 32⟩,_,⟨Arr.zero 32,rfl⟩,rfl⟩
  let key := kp.verifyingKey.inner
  have hlen : key.val.length = mldsa65.vkLen := key.property
  obtain ⟨out',hsign,-⟩ := (signsInto hS hC (TagCrate.keysBijective mldsa65).keepsVerification kp
    (Arr.zero 32).val [] (Arr.zero 3309)).signs (Nat.zero_le _) (Nat.le_refl _)
  have hbinds (c : Bytes) (hc : (frame (Arr.zero 32).val c).length + 40 ≤ 3309) :=
    TagCrate.binds (P := mldsa65) (by decide) (Arr.zero 32)
      (by decide : (frame (Arr.zero 32).val []).length + 40 ≤ 3309) hc
  let i : Invocation ℕ := ⟨0,none,.init key.val⟩
  have hstored : ([i].foldl (step (TagCrate.crate mldsa65) hS.verifyingKey) fresh).pubKey = some key.val := by
    rw [run_eq hS.verifyingKey hS,List.foldl_cons,List.foldl_nil,SorobanMlDsa.PqAccount.step_init_ok hS rfl hlen]
  have h := signed_for_one_generation (TagCrate.crate mldsa65) hS (TagCrate.traitsAgree mldsa65) hC
    (TagCrate.framing mldsa65) kp [i] key.val (VerifyingKey.fromBytes_encode hS kp.verifyingKey) hstored
    (Arr.zero 32).val [] (Arr.zero 32) _ out' hsign (hbinds [] (by decide)) (hbinds _ (by decide))
  exact ⟨kp,out',[i],hsign,h.1.mpr ⟨rfl,rfl⟩,fun hacc => context_ne_nil (h.2.mp hacc).2.symm⟩

end SorobanMlDsa.Phase0.PqAccount

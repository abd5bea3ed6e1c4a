import SorobanMlDsa.Payload
import SorobanMlDsa.Signing

/-!
# Authorization entries

Everything here is generic over the scheme. A scheme may have signatures of
varying length, of which its constant is only the maximum, so the count returned
by `sign_into` and not the constant decides how many bytes an entry carries.
-/

namespace SorobanMlDsa

open ByteSlice

variable (L : XdrLeaves)

structure SorobanAddressCredentials where
  address : L.ScAddress
  nonce : Int64
  signatureExpirationLedger : UInt32
  signature : ScVal L.OtherVal

inductive SorobanCredentials
  | sourceAccount
  | address (credentials : SorobanAddressCredentials L)

structure SorobanAuthorizationEntry where
  credentials : SorobanCredentials L
  rootInvocation : SorobanAuthorizedInvocation L

variable {L} {Other : Type}

/-- The payload whose hash the host checks for an entry's credentials. The address
is not among its fields. -/
def SorobanAddressCredentials.payload (creds : SorobanAddressCredentials L) (networkId : Arr 32)
    (rootInvocation : SorobanAuthorizedInvocation L) : AuthorizationPayload L :=
  ⟨networkId,creds.nonce,creds.signatureExpirationLedger,rootInvocation⟩

def bytesToScval (b : Bytes) : Except StellarError (ScVal Other) :=
  match ScBytes.tryFrom b with
  | none => .error (.encoding "byte string exceeds XDR limit")
  | some b => .ok (.bytes b)

variable (S : PqScheme) (sha256 : Bytes → Arr 32)

def signAuthorization (signingKey : S.SigningKey) (payload : AuthorizationPayload L)
    (context : Bytes) : Outcome (Except StellarError Bytes) :=
  match payload.signaturePayload sha256 with
  | .error e => .ok (.error e)
  | .ok msg => do
    let (r,sig) ← PqSigner.signInto signingKey msg.val context (Arr.zero S.signatureLen)
    match r with
    | .error e => return .error (.pq e)
    | .ok n => return .ok (sig.val.take n)

def buildAuthEntry (account : L.ScAddress) (signingKey : S.SigningKey)
    (payload : AuthorizationPayload L) (context : Bytes) :
    Outcome (Except StellarError (SorobanAuthorizationEntry L)) := do
  match ← signAuthorization S sha256 signingKey payload context with
  | .error e => return .error e
  | .ok sig =>
    match bytesToScval sig with
    | .error e => return .error e
    | .ok signature =>
      return .ok {
        credentials := .address {
          address := account
          nonce := payload.nonce
          signatureExpirationLedger := payload.signatureExpirationLedger
          signature := signature }
        rootInvocation := payload.invocation }

def encodeVerifyingKey (vk : S.VerifyingKey) : Outcome (Except StellarError (ScVal Other)) := do
  let (r,buf) ← PqEncode.writeTo vk (Arr.zero S.verifyingKeyLen)
  match r with
  | .error e => return .error (.pq e)
  | .ok n => return bytesToScval (buf.val.take n)

def verifyAuthorization (verifyingKey : S.VerifyingKey) (payload : AuthorizationPayload L)
    (context signature : Bytes) : Outcome (Except StellarError Unit) :=
  match payload.signaturePayload sha256 with
  | .error e => .ok (.error e)
  | .ok msg => do
    match ← PqVerifier.verify verifyingKey msg.val context signature with
    | .error e => return .error (.pq e)
    | .ok () => return .ok ()

variable {S sha256}

theorem bytesToScval_ok {b : Bytes} (h : b.length ≤ u32Max) :
    bytesToScval b = .ok (.bytes ⟨b,h⟩ : ScVal Other) := by
  rw [bytesToScval,ScBytes.tryFrom_of_le h]

theorem bytesToScval_error {b : Bytes} (h : u32Max < b.length) :
    (bytesToScval b : Except StellarError (ScVal Other)) =
      .error (.encoding "byte string exceeds XDR limit") := by
  rw [bytesToScval,ScBytes.tryFrom_eq_none h]

theorem encodeVerifyingKey_of_written {vk : S.VerifyingKey} {n : ℕ} {buf : Arr S.verifyingKeyLen}
    (h : PqEncode.writeTo vk (Arr.zero S.verifyingKeyLen) = .ok (.ok n,buf)) :
    encodeVerifyingKey S vk = .ok (bytesToScval (buf.val.take n) : Except StellarError (ScVal Other)) := by
  simp only [encodeVerifyingKey,h]
  rfl

theorem verifyAuthorization_of_payload {vk : S.VerifyingKey} {p : AuthorizationPayload L}
    {msg : Arr 32} (hp : p.signaturePayload sha256 = .ok msg) {c sig : Bytes}
    {r : Except PqError Unit} (hv : PqVerifier.verify vk msg.val c sig = .ok r) :
    verifyAuthorization S sha256 vk p c sig = .ok (r.mapError StellarError.pq) := by
  rw [verifyAuthorization,hp]
  simp only [hv]
  cases r <;> rfl

def SorobanAuthorizationEntry.nonce (entry : SorobanAuthorizationEntry L) : Option Int64 :=
  match entry.credentials with
  | .sourceAccount => none
  | .address creds => some creds.nonce

section Build

variable {account : L.ScAddress} {sk : S.SigningKey} {p : AuthorizationPayload L} {c : Bytes}

theorem buildAuthEntry_of_payload_error {e : StellarError} (hp : p.signaturePayload sha256 = .error e) :
    buildAuthEntry S sha256 account sk p c = .ok (.error e) := by
  simp only [buildAuthEntry,signAuthorization,hp]
  rfl

theorem buildAuthEntry_of_sign_error {msg : Arr 32} (hp : p.signaturePayload sha256 = .ok msg)
    {e : PqError} {out : Arr S.signatureLen}
    (hs : PqSigner.signInto sk msg.val c (Arr.zero S.signatureLen) = .ok (.error e,out)) :
    buildAuthEntry S sha256 account sk p c = .ok (.error (.pq e)) := by
  simp only [buildAuthEntry,signAuthorization,hp,hs]
  rfl

theorem buildAuthEntry_of_signed {msg : Arr 32} (hp : p.signaturePayload sha256 = .ok msg)
    {n : ℕ} {out : Arr S.signatureLen}
    (hs : PqSigner.signInto sk msg.val c (Arr.zero S.signatureLen) = .ok (.ok n,out)) :
    buildAuthEntry S sha256 account sk p c =
      .ok ((bytesToScval (out.val.take n)).map fun v =>
        ⟨.address ⟨account,p.nonce,p.signatureExpirationLedger,v⟩,p.invocation⟩) := by
  simp only [buildAuthEntry,signAuthorization,hp,hs,ok_bind,pure_eq_ok]
  cases (bytesToScval (out.val.take n) : Except StellarError (ScVal L.OtherVal)) <;> rfl

theorem buildAuthEntry_nonce {entry : SorobanAuthorizationEntry L}
    (h : buildAuthEntry S sha256 account sk p c = .ok (.ok entry)) : entry.nonce = some p.nonce := by
  obtain ⟨r,-,hr⟩ := bind_eq_ok.mp h
  cases r with
  | error e => cases hr
  | ok sig =>
    cases hsig : (bytesToScval sig : Except StellarError (ScVal L.OtherVal)) with
    | error e =>
      simp only [hsig] at hr
      cases hr
    | ok signature =>
      simp only [hsig] at hr
      cases hr
      rfl

end Build

/-- Signing as the adapter calls it: into a zeroed buffer of the maximum length. -/
def PqScheme.signFresh (S : PqScheme) (kp : S.Keypair) (m c : Bytes) :
    Outcome (Except PqError ℕ × Arr S.signatureLen) :=
  PqSigner.signInto (PqKeypair.signingKey kp : S.SigningKey) m c (Arr.zero S.signatureLen)

/-- The scheme's own verdict, under the key matching a pair. -/
def PqScheme.Verifies (S : PqScheme) (kp : S.Keypair) (m c sig : Bytes) : Prop :=
  PqVerifier.verify (PqKeypair.verifyingKey kp : S.VerifyingKey) m c sig = .ok (.ok ())

/-- A scheme whose signer, given a buffer of the maximum length, fails or reports
how many of its first bytes are a signature the matching key accepts. -/
def PqScheme.SignsLawfully (S : PqScheme) : Prop :=
  ∀ (kp : S.Keypair) (m c : Bytes) (out : Arr S.signatureLen),
    (∃ e out', PqSigner.signInto (PqKeypair.signingKey kp : S.SigningKey) m c out = .ok (.error e,out')) ∨
    ∃ n out', PqSigner.signInto (PqKeypair.signingKey kp : S.SigningKey) m c out = .ok (.ok n,out') ∧
      n ≤ S.signatureLen ∧ S.Verifies kp m c (out'.val.take n)

theorem PqScheme.SignsLawfully.signed {S : PqScheme} (hS : S.SignsLawfully) {kp : S.Keypair} {m c : Bytes}
    {n : ℕ} {out : Arr S.signatureLen} (hs : S.signFresh kp m c = .ok (.ok n,out)) :
    n ≤ S.signatureLen ∧ S.Verifies kp m c (out.val.take n) := by
  rw [signFresh] at hs
  rcases hS kp m c (Arr.zero S.signatureLen) with ⟨e,out',he⟩ | ⟨n',out',hn,hle,hv⟩
  · rw [he] at hs
    cases hs
  · rw [hn] at hs
    cases hs
    exact ⟨hle,hv⟩

theorem scheme_signsLawfully {P : ParamSet} {D : MlDsaCrate} (hS : D.SizesMatch P)
    (hC : D.SigningCorrect) (hV : D.KeepsVerification) : (scheme P D).SignsLawfully := by
  intro kp m c out
  have h := signsInto hS hC hV kp m c out
  rcases Nat.lt_or_ge maxContextLen c.length with hc | hc
  · exact Or.inl ⟨_,_,h.contextTooLong hc⟩
  · obtain ⟨out',hw,-,ha⟩ := h.signs hc (Nat.le_refl _)
    exact Or.inr ⟨P.sigLen,out',hw,Nat.le_refl _,congrArg Except.ok ha.stored⟩

/-- The constants of a scheme are what its operations keep to. -/
structure PqScheme.Declared (S : PqScheme) : Prop where
  verifyingKey : ∀ vk : S.VerifyingKey, PqEncode.encodedLen vk = S.verifyingKeyLen
  signingKey : ∀ sk : S.SigningKey, PqEncode.encodedLen sk = S.signingKeyLen
  seed : ∀ b e, (PqKeypair.fromSeed b : Outcome (Except PqError S.Keypair)) = .ok (.error e) ↔
    b.length ≠ S.seedLen ∧ e = .invalidLength S.seedLen b.length
  derived : ∀ (kp : S.Keypair) (m c s : Bytes),
    PqSigner.derivedVerifier.verify (PqSigner.verifyingKey (PqKeypair.signingKey kp : S.SigningKey)) m c s =
      PqVerifier.verify (PqKeypair.verifyingKey kp : S.VerifyingKey) m c s

theorem scheme_declared (P : ParamSet) (D : MlDsaCrate) : (scheme P D).Declared where
  verifyingKey _ := rfl
  signingKey _ := rfl
  seed _ _ := Keypair.fromSeed_eq_error_iff
  derived kp m c s := by
    show Except.ok (kp.signing.verifyingKey.verify P m c s) = .ok (kp.verifying.verify P m c s)
    rw [kp.matching]

/-- Stable on-chain discriminant for a scheme. -/
inductive SchemeId
  | mlDsa44
  | mlDsa65
  | mlDsa87
  | slhDsaSha2_128s
  | falcon512
  deriving DecidableEq, Repr

namespace SchemeId

def fromName (name : String) : Option SchemeId :=
  if name = "ML-DSA-44" then some mlDsa44
  else if name = "ML-DSA-65" then some mlDsa65
  else if name = "ML-DSA-87" then some mlDsa87
  else if name = "SLH-DSA-SHA2-128s" then some slhDsaSha2_128s
  else if name = "FN-DSA-512" ∨ name = "Falcon-512" then some falcon512
  else none

def of (S : PqScheme) : Option SchemeId := fromName S.name

/-- Two schemes under one discriminant go by one name, Falcon's two names apart. -/
theorem of_inj {S S' : PqScheme} {i : SchemeId} (h : of S = some i) (h' : of S' = some i) :
    S.name = S'.name ∨ i = falcon512 := by
  simp only [of,fromName] at h h'
  split_ifs at h h' <;> grind

example (D : MlDsaCrate) : of (scheme mldsa44 D) = some mlDsa44 ∧ of (scheme mldsa65 D) = some mlDsa65 := ⟨rfl,rfl⟩

end SchemeId

/-- An entry that carries the first `n` bytes of `out` and the fields of `p`, and
whose own fields make that signature verify. -/
def EntryCarries (S : PqScheme) (sha256 : Bytes → Arr 32) (kp : S.Keypair) (account : L.ScAddress)
    (p : AuthorizationPayload L) (c : Bytes) (n : ℕ) (out : Arr S.signatureLen)
    (entry : SorobanAuthorizationEntry L) : Prop :=
  ∃ creds sig, entry.credentials = .address creds ∧ creds.signature = .bytes sig ∧
    sig.val = out.val.take n ∧ sig.val.length = n ∧ creds.address = account ∧
    creds.nonce = p.nonce ∧ creds.signatureExpirationLedger = p.signatureExpirationLedger ∧
    entry.rootInvocation = p.invocation ∧
    verifyAuthorization S sha256 (PqKeypair.verifyingKey kp) (creds.payload p.networkId entry.rootInvocation)
      c sig.val = .ok (.ok ())

/-- Building an entry, step by step: each failing step's own error, or an entry
consistent with itself. -/
structure BuildsEntry (S : PqScheme) (sha256 : Bytes → Arr 32) (kp : S.Keypair) (account : L.ScAddress)
    (p : AuthorizationPayload L) (c : Bytes) : Prop where
  payloadFails : ∀ e, p.signaturePayload sha256 = .error e →
    buildAuthEntry S sha256 account (PqKeypair.signingKey kp) p c = .ok (.error e)
  signingFails : ∀ msg e out, p.signaturePayload sha256 = .ok msg →
    S.signFresh kp msg.val c = .ok (.error e,out) →
    buildAuthEntry S sha256 account (PqKeypair.signingKey kp) p c = .ok (.error (.pq e))
  exceedsXdr : ∀ msg n out, p.signaturePayload sha256 = .ok msg →
    S.signFresh kp msg.val c = .ok (.ok n,out) → u32Max < n →
    buildAuthEntry S sha256 account (PqKeypair.signingKey kp) p c =
      .ok (.error (.encoding "byte string exceeds XDR limit"))
  builds : ∀ msg n out, p.signaturePayload sha256 = .ok msg →
    S.signFresh kp msg.val c = .ok (.ok n,out) → n ≤ u32Max →
    ∃ entry, buildAuthEntry S sha256 account (PqKeypair.signingKey kp) p c = .ok (.ok entry) ∧
      EntryCarries S sha256 kp account p c n out entry
  succeeds_iff : (∃ entry, buildAuthEntry S sha256 account (PqKeypair.signingKey kp) p c = .ok (.ok entry)) ↔
    ∃ msg n out, p.signaturePayload sha256 = .ok msg ∧ S.signFresh kp msg.val c = .ok (.ok n,out) ∧ n ≤ u32Max

section Lawful

variable {kp : S.Keypair} {account : L.ScAddress} {p : AuthorizationPayload L} {c : Bytes} {msg : Arr 32}
  {n : ℕ} {out : Arr S.signatureLen}

theorem signed_length (hS : S.SignsLawfully) (hs : S.signFresh kp msg.val c = .ok (.ok n,out)) :
    (out.val.take n).length = n := by
  have hle := (hS.signed hs).1
  rw [List.length_take,out.property]
  omega

theorem buildAuthEntry_exceedsXdr (hS : S.SignsLawfully) (hp : p.signaturePayload sha256 = .ok msg)
    (hs : S.signFresh kp msg.val c = .ok (.ok n,out)) (hn : u32Max < n) :
    buildAuthEntry S sha256 account (PqKeypair.signingKey kp) p c =
      .ok (.error (.encoding "byte string exceeds XDR limit")) := by
  have hlen := signed_length hS hs
  rw [buildAuthEntry_of_signed hp hs,bytesToScval_error (by omega)]
  rfl

/-- The payload rebuilt from the entry is the payload that was signed. -/
theorem buildAuthEntry_carries (hS : S.SignsLawfully) (hp : p.signaturePayload sha256 = .ok msg)
    (hs : S.signFresh kp msg.val c = .ok (.ok n,out)) (hn : n ≤ u32Max) :
    ∃ entry, buildAuthEntry S sha256 account (PqKeypair.signingKey kp) p c = .ok (.ok entry) ∧
      EntryCarries S sha256 kp account p c n out entry := by
  have hlen := signed_length hS hs
  have hfits : (out.val.take n).length ≤ u32Max := by omega
  let creds : SorobanAddressCredentials L :=
    ⟨account,p.nonce,p.signatureExpirationLedger,.bytes ⟨out.val.take n,hfits⟩⟩
  have hrebuilt : creds.payload p.networkId p.invocation = p := rfl
  have hverify : verifyAuthorization S sha256 (PqKeypair.verifyingKey kp)
      (creds.payload p.networkId p.invocation) c (out.val.take n) = .ok (.ok ()) := by
    rw [hrebuilt]
    exact verifyAuthorization_of_payload hp (hS.signed hs).2
  refine ⟨⟨.address creds,p.invocation⟩,?_,creds,_,rfl,rfl,rfl,hlen,rfl,rfl,rfl,rfl,hverify⟩
  rw [buildAuthEntry_of_signed hp hs,bytesToScval_ok hfits]
  rfl

theorem buildAuthEntry_succeeds_iff (hS : S.SignsLawfully) :
    (∃ entry, buildAuthEntry S sha256 account (PqKeypair.signingKey kp) p c = .ok (.ok entry)) ↔
      ∃ msg n out, p.signaturePayload sha256 = .ok msg ∧ S.signFresh kp msg.val c = .ok (.ok n,out) ∧
        n ≤ u32Max := by
  constructor
  · rintro ⟨entry,he⟩
    cases hp : p.signaturePayload sha256 with
    | error e => simp [buildAuthEntry_of_payload_error hp] at he
    | ok msg =>
      rcases hS kp msg.val c (Arr.zero S.signatureLen) with ⟨e,out,hs⟩ | ⟨n,out,hs,-,-⟩
      · simp [buildAuthEntry_of_sign_error hp hs] at he
      · refine ⟨msg,n,out,rfl,hs,?_⟩
        by_contra hn
        simp [buildAuthEntry_exceedsXdr hS hp hs (Nat.not_le.mp hn)] at he
  · rintro ⟨msg,n,out,hp,hs,hn⟩
    obtain ⟨entry,he,-⟩ := buildAuthEntry_carries hS hp hs hn
    exact ⟨entry,he⟩

end Lawful

/-- For every lawful scheme, building an entry fails exactly as its first failing
step does, and otherwise the entry is consistent with itself. -/
theorem auth_entry_self_consistent (S : PqScheme) (hS : S.SignsLawfully) (L : XdrLeaves)
    (sha256 : Bytes → Arr 32) (kp : S.Keypair) (account : L.ScAddress) (p : AuthorizationPayload L)
    (c : Bytes) : BuildsEntry S sha256 kp account p c where
  payloadFails _ hp := buildAuthEntry_of_payload_error hp
  signingFails _ _ _ hp hs := buildAuthEntry_of_sign_error hp hs
  exceedsXdr _ _ _ hp hs hn := buildAuthEntry_exceedsXdr hS hp hs hn
  builds _ _ _ hp hs hn := buildAuthEntry_carries hS hp hs hn
  succeeds_iff := buildAuthEntry_succeeds_iff hS

/-- An entry for the payload vector, signed with the key of the zero seed. -/
theorem auth_entry_self_consistent_vector :
    ∃ (kp : Keypair (TagCrate.crate mldsa65)) (entry : SorobanAuthorizationEntry contractLeaves),
      buildAuthEntry (scheme mldsa65 (TagCrate.crate mldsa65)) Sha256.digest (Arr.zero 32) kp.signingKey
        (vectorPayload 1) [1] = .ok (.ok entry) := by
  have hC := TagCrate.signingCorrect mldsa65
  have hV := (TagCrate.keysBijective mldsa65).keepsVerification
  let kp : Keypair (TagCrate.crate mldsa65) := ⟨⟨Arr.zero 32⟩,_,⟨Arr.zero 32,rfl⟩,rfl⟩
  obtain ⟨out,hs,-⟩ := (signsInto (TagCrate.sizesMatch mldsa65) hC hV kp
    (Sha256.digest ((vectorPayload 1).preimage.getD [])).val [1] (Arr.zero 3309)).signs
      (by decide) (Nat.le_refl _)
  have h := auth_entry_self_consistent (scheme mldsa65 (TagCrate.crate mldsa65))
    (scheme_signsLawfully (TagCrate.sizesMatch mldsa65) hC hV) contractLeaves Sha256.digest kp
    (Arr.zero 32) (vectorPayload 1) [1]
  obtain ⟨entry,he⟩ := h.succeeds_iff.mpr ⟨_,_,out,vectorPayload_hash,hs,by decide⟩
  exact ⟨kp,entry,he⟩

end SorobanMlDsa

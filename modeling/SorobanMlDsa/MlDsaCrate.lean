import SorobanMlDsa.ByteSlice

/-!
# The `ml-dsa` crate

The lattice arithmetic lives in a third-party crate. It enters as the record of
the operations the binding calls, one record per parameter type, and as the laws
its documentation states for them. Nothing below says how they compute.
-/

namespace SorobanMlDsa

open ByteSlice

/-- The operations of `ml_dsa` at one parameter type, with the array lengths its
encodings have. -/
structure MlDsaCrate where
  VerifyingKey : Type
  ExpandedSigningKey : Type
  Signature : Type
  verifyingKeySize : ℕ
  expandedSigningKeySize : ℕ
  signatureSize : ℕ
  encode : VerifyingKey → Arr verifyingKeySize
  decode : Arr verifyingKeySize → VerifyingKey
  encodeSignature : Signature → Arr signatureSize
  decodeSignature : Arr signatureSize → Option Signature
  tryFromSignature : Bytes → Option Signature
  verifyWithContext : VerifyingKey → (message context : Bytes) → Signature → Bool
  verify : VerifyingKey → (message : Bytes) → Signature → Bool
  fromSeed : Arr 32 → ExpandedSigningKey
  toExpanded : ExpandedSigningKey → Arr expandedSigningKeySize
  /-- Unvalidated; documented to panic on malformed keys. -/
  fromExpanded : Arr expandedSigningKeySize → Outcome ExpandedSigningKey
  signDeterministic : ExpandedSigningKey → (message context : Bytes) → Option Signature
  verifyingKey : ExpandedSigningKey → VerifyingKey

/-- The literals given to one expansion of `impl_mldsa!`. -/
structure ParamSet where
  name : String
  vkLen : ℕ
  skLen : ℕ
  sigLen : ℕ
  deriving DecidableEq, Repr

def mldsa44 : ParamSet := ⟨"ML-DSA-44",1312,2560,2420⟩

def mldsa65 : ParamSet := ⟨"ML-DSA-65",1952,4032,3309⟩

/-- What FIPS 204 puts in front of a message before it is hashed. The length byte
is a single byte whatever the context. -/
def frame (message context : Bytes) : Bytes :=
  0 :: UInt8.ofNat context.length :: (context ++ message)

theorem frame_inj {m m' c c' : Bytes} (hc : c.length ≤ 255) (hc' : c'.length ≤ 255)
    (h : frame m c = frame m' c') : m = m' ∧ c = c' := by
  simp only [frame,List.cons.injEq,true_and] at h
  have hlen : c.length = c'.length := by
    have hb := congrArg UInt8.toNat h.1
    simp only [UInt8.toNat_ofNat'] at hb
    omega
  obtain ⟨hctx,hmsg⟩ := List.append_inj h.2 hlen
  exact ⟨hmsg,hctx⟩

/-- One byte past the limit the length byte wraps, and a context is mistaken for
the start of a message. -/
theorem frame_wraps (m c : Bytes) (hc : c.length = 256) : frame m c = frame (c ++ m) [] := by
  simp [frame,hc]

namespace MlDsaCrate

variable (P : ParamSet) (D : MlDsaCrate)

/-- The crate's arrays have the lengths written in the macro arguments. -/
structure SizesMatch : Prop where
  verifyingKey : D.verifyingKeySize = P.vkLen
  signingKey : D.expandedSigningKeySize = P.skLen
  signature : D.signatureSize = P.sigLen

/-- A verifying key read back from its encoding accepts what the key accepts. -/
def KeepsVerification : Prop :=
  ∀ vk m c s, D.verifyWithContext (D.decode (D.encode vk)) m c s = D.verifyWithContext vk m c s

/-- Verifying keys and their encodings are in bijection. -/
structure KeysBijective : Prop where
  decode_encode : ∀ vk, D.decode (D.encode vk) = vk
  encode_decode : ∀ a, D.encode (D.decode a) = a

/-- The expanded form of a seed-derived signing key reads back as that key. -/
def ExpandedReadsBack : Prop :=
  ∀ seed, D.fromExpanded (D.toExpanded (D.fromSeed seed)) = .ok (D.fromSeed seed)

/-- With a seed-derived key, deterministic signing refuses long contexts only, its
signatures survive encoding, and they verify under the matching key. -/
structure SigningCorrect : Prop where
  sign_some : ∀ seed m c, c.length ≤ 255 →
    ∃ s, D.signDeterministic (D.fromSeed seed) m c = some s
  decode_encode : ∀ seed m c s, D.signDeterministic (D.fromSeed seed) m c = some s →
    D.decodeSignature (D.encodeSignature s) = some s
  verify_sign : ∀ seed m c s, D.signDeterministic (D.fromSeed seed) m c = some s →
    D.verifyWithContext (D.verifyingKey (D.fromSeed seed)) m c s = true

/-- The `signature` traits are the context interface at the empty context, and
slices convert through the fixed-size encoding. -/
structure TraitsAgree : Prop where
  verify_eq : ∀ vk m s, D.verify vk m s = D.verifyWithContext vk m [] s
  tryFrom_eq : ∀ b, D.tryFromSignature b = (tryFrom D.signatureSize b).bind D.decodeSignature

/-- Within the context limit both directions act on the framed message alone. -/
structure Framing where
  signFramed : D.ExpandedSigningKey → Bytes → D.Signature
  verifyFramed : D.VerifyingKey → Bytes → D.Signature → Bool
  sign_eq : ∀ sk m c s, c.length ≤ 255 → D.signDeterministic sk m c = some s →
    s = signFramed sk (frame m c)
  verify_eq : ∀ vk m c s, c.length ≤ 255 →
    D.verifyWithContext vk m c s = verifyFramed vk (frame m c) s

/-- The encoded signature over `M` is accepted on `M'` only when the two framed
messages are the same. -/
def Framing.Binds {D : MlDsaCrate} (F : D.Framing) (sk : D.ExpandedSigningKey) (M M' : Bytes) : Prop :=
  ∀ s, D.decodeSignature (D.encodeSignature (F.signFramed sk M)) = some s →
    F.verifyFramed (D.verifyingKey sk) M' s = true → M' = M

/-- ML-DSA verification of signature bytes: the array decodes and the equation
holds. -/
def Accepts (vk : D.VerifyingKey) (message context signature : Bytes) : Prop :=
  ∃ s, (tryFrom D.signatureSize signature).bind D.decodeSignature = some s ∧
    D.verifyWithContext vk message context s = true

instance (vk : D.VerifyingKey) (message context signature : Bytes) :
    Decidable (D.Accepts vk message context signature) :=
  match h : (tryFrom D.signatureSize signature).bind D.decodeSignature with
  | none => .isFalse (by simp [Accepts,h])
  | some s => decidable_of_iff (D.verifyWithContext vk message context s = true) (by simp [Accepts,h])

def AcceptsEncoded (key message context signature : Bytes) : Prop :=
  ∃ a, tryFrom D.verifyingKeySize key = some a ∧ D.Accepts (D.decode a) message context signature

instance (key message context signature : Bytes) :
    Decidable (D.AcceptsEncoded key message context signature) :=
  match h : tryFrom D.verifyingKeySize key with
  | none => .isFalse (by simp [AcceptsEncoded,h])
  | some a => decidable_of_iff (D.Accepts (D.decode a) message context signature)
      (by simp [AcceptsEncoded,h])

variable {P D}

theorem acceptsEncoded_iff {key : Bytes} (h : key.length = D.verifyingKeySize) (m c s : Bytes) :
    D.AcceptsEncoded key m c s ↔ D.Accepts (D.decode ⟨key,h⟩) m c s := by
  simp [AcceptsEncoded,tryFrom_of_length h]

theorem Accepts.length {vk : D.VerifyingKey} {m c s : Bytes} (h : D.Accepts vk m c s) :
    s.length = D.signatureSize := by
  obtain ⟨sig,hs,-⟩ := h
  by_contra hne
  simp [tryFrom_eq_none hne] at hs

theorem AcceptsEncoded.length {key m c s : Bytes} (h : D.AcceptsEncoded key m c s) :
    key.length = D.verifyingKeySize ∧ s.length = D.signatureSize := by
  obtain ⟨a,ha,hs⟩ := h
  refine ⟨?_,hs.length⟩
  by_contra hne
  simp [tryFrom_eq_none hne] at ha

theorem KeysBijective.keepsVerification (h : D.KeysBijective) : D.KeepsVerification := by
  intro vk m c s
  rw [h.decode_encode]

theorem KeepsVerification.accepts_iff (h : D.KeepsVerification) (vk : D.VerifyingKey)
    (m c s : Bytes) : D.Accepts (D.decode (D.encode vk)) m c s ↔ D.Accepts vk m c s := by
  simp only [Accepts,h vk]

theorem TraitsAgree.accepts_iff (h : D.TraitsAgree) (vk : D.VerifyingKey) (m s : Bytes) :
    D.Accepts vk m [] s ↔ ∃ sig, D.tryFromSignature s = some sig ∧ D.verify vk m sig = true := by
  simp only [Accepts,h.tryFrom_eq,h.verify_eq]

end MlDsaCrate
end SorobanMlDsa

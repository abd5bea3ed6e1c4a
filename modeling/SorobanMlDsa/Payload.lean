import SorobanMlDsa.Traits
import SorobanMlDsa.Xdr
import SorobanMlDsa.Sha256

/-! The 32 bytes an account signs: SHA-256 of the XDR of the authorization preimage.
The hash is a parameter; only runs on fixed inputs fix it. -/
namespace SorobanMlDsa

open ByteSlice PrefixCode

/-- Errors of the Stellar adapter layer. -/
inductive StellarError
  | pq (e : PqError)
  | xdr (message : String)
  | encoding (message : String)
  deriving DecidableEq, Repr

def testnetPassphrase : String := "Test SDF Network ; September 2015"

def mainnetPassphrase : String := "Public Global Stellar Network ; September 2015"

def networkId (sha256 : Bytes → Arr 32) (passphrase : String) : Arr 32 :=
  sha256 passphrase.toByteArray.data.toList

example : (networkId Sha256.digest testnetPassphrase).val.take 4 = [0xce,0xe0,0x30,0x2d] := by
  decide +kernel

variable {L : XdrLeaves}

variable (L) in
/-- What the host binds into an authorization signature. -/
structure AuthorizationPayload where
  networkId : Arr 32
  nonce : Int64
  signatureExpirationLedger : UInt32
  invocation : SorobanAuthorizedInvocation L

namespace AuthorizationPayload

def hashXdr : Encoder (Arr 32) UInt8 := fun a => some a.val

def i64Xdr : Encoder Int64 UInt8 := fun n => uint 8 n.toUInt64.toNat

def u32Xdr : Encoder UInt32 UInt8 := fun n => uint 4 n.toNat

/-- `HashIdPreimage::SorobanAuthorization`, the union arm with tag 9. -/
def preimage (p : AuthorizationPayload L) : Option Bytes :=
  tagged (bigEndian 4 9)
    (both hashXdr (both i64Xdr (both u32Xdr SorobanAuthorizedInvocation.toXdr)))
    (p.networkId,p.nonce,p.signatureExpirationLedger,p.invocation)

def signaturePayload (sha256 : Bytes → Arr 32) (p : AuthorizationPayload L) :
    Except StellarError (Arr 32) :=
  match p.preimage with
  | none => .error (.xdr "failed to encode HashIdPreimage")
  | some bytes => .ok (sha256 bytes)

theorem signaturePayload_eq_ok {sha256 : Bytes → Arr 32} {p : AuthorizationPayload L} {h : Arr 32} :
    p.signaturePayload sha256 = .ok h ↔ ∃ b, p.preimage = some b ∧ sha256 b = h := by
  cases hp : p.preimage <;> simp [signaturePayload,hp]

theorem hashXdr_selfDelimiting : SelfDelimiting hashXdr := by
  apply SelfDelimiting.of_length 32
  · intro a u hu
    rw [← Option.some.inj hu]
    exact a.property
  · intro a b u ha hb
    exact Subtype.ext ((Option.some.inj ha).trans (Option.some.inj hb).symm)

theorem i64Xdr_selfDelimiting : SelfDelimiting i64Xdr := by
  intro n
  apply DelimitedAt.comap (uint_selfDelimiting 8 _)
  intro m h
  cases n; cases m
  exact congrArg Int64.ofUInt64 (UInt64.toNat_inj.mp h)

theorem u32Xdr_selfDelimiting : SelfDelimiting u32Xdr := by
  intro n
  apply DelimitedAt.comap (uint_selfDelimiting 4 _)
  intro m h
  exact UInt32.toNat_inj.mp h

theorem fields_selfDelimiting (hL : L.Unambiguous) :
    SelfDelimiting (both hashXdr (both i64Xdr (both u32Xdr
      (SorobanAuthorizedInvocation.toXdr (L := L))))) :=
  hashXdr_selfDelimiting.both (i64Xdr_selfDelimiting.both
    (u32Xdr_selfDelimiting.both (SorobanAuthorizedInvocation.toXdr_selfDelimiting hL)))

/-- Equal hash inputs come from equal payloads. -/
theorem preimage_inj (hL : L.Unambiguous) {p q : AuthorizationPayload L} {b : Bytes}
    (hp : p.preimage = some b) (hq : q.preimage = some b) : p = q := by
  obtain ⟨-,u,v,hu,hv,huv⟩ := tagged_split hp hq rfl (rfl : b ++ [] = b ++ [])
  obtain ⟨he,-⟩ := fields_selfDelimiting hL _ _ u v [] [] hu hv huv
  cases p; cases q
  simp only [Prod.mk.injEq] at he
  obtain ⟨rfl,rfl,rfl,rfl⟩ := he
  rfl

/-- The nonce stands at a fixed place, whatever the leaves of the tree encode to. -/
theorem preimage_nonce {p q : AuthorizationPayload L} {b : Bytes}
    (hp : p.preimage = some b) (hq : q.preimage = some b) : p.nonce = q.nonce := by
  obtain ⟨-,u,v,hu,hv,huv⟩ := tagged_split hp hq rfl (rfl : b ++ [] = b ++ [])
  obtain ⟨-,u',v',hu',hv',huv'⟩ := both_split (hashXdr_selfDelimiting _) hu hv huv
  exact (both_split (i64Xdr_selfDelimiting _) hu' hv' huv').1.symm

end AuthorizationPayload

/-- The signature payload binds every field and the whole call tree. -/
theorem signature_payload_binds (L : XdrLeaves) (hL : L.Unambiguous) :
    (∀ (p q : AuthorizationPayload L) (b : Bytes), p.preimage = some b → q.preimage = some b →
      p.networkId = q.networkId ∧ p.nonce = q.nonce ∧
      p.signatureExpirationLedger = q.signatureExpirationLedger ∧ p.invocation = q.invocation) ∧
    (∀ (t t' : SorobanAuthorizedInvocation L) (b b' : Bytes), t.toXdr = some b → t'.toXdr = some b' →
      b <+: b' → b = b') ∧
    ∀ (sha256 : Bytes → Arr 32) (p q : AuthorizationPayload L) (b b' : Bytes),
      p.preimage = some b → q.preimage = some b' → (sha256 b = sha256 b' → b = b') → p ≠ q →
      ∃ h h', p.signaturePayload sha256 = .ok h ∧ q.signaturePayload sha256 = .ok h' ∧ h ≠ h' := by
  refine ⟨?_,?_,?_⟩
  · intro p q b hp hq
    obtain rfl := AuthorizationPayload.preimage_inj hL hp hq
    exact ⟨rfl,rfl,rfl,rfl⟩
  · exact (SorobanAuthorizedInvocation.toXdr_selfDelimiting hL).prefixFree
  · intro sha256 p q b b' hp hq hcoll hne
    refine ⟨sha256 b,sha256 b',AuthorizationPayload.signaturePayload_eq_ok.mpr ⟨b,hp,rfl⟩,
      AuthorizationPayload.signaturePayload_eq_ok.mpr ⟨b',hq,rfl⟩,?_⟩
    intro h
    obtain rfl := hcoll h
    exact hne (AuthorizationPayload.preimage_inj hL hp hq)

/-- The call the repository's payload vector authorizes: `protected` on one account. -/
def vectorPayload (nonce : Int64) : AuthorizationPayload contractLeaves where
  networkId := networkId Sha256.digest testnetPassphrase
  nonce := nonce
  signatureExpirationLedger := 4218130
  invocation := .node (.contractFn ⟨⟨[
    0xe6,0x42,0xca,0x44,0x92,0xb3,0xf3,0x7a,0xc5,0x42,0xd4,0x66,0x8f,0x8d,0x13,0x76,
    0x1b,0x1a,0x32,0x7a,0xd7,0x4d,0x26,0x6a,0xf6,0x68,0x78,0xff,0xf0,0x5c,0xcd,0x25],rfl⟩,
    ⟨[112,114,111,116,101,99,116,101,100],by decide⟩,[]⟩) []

/-- The payload the network accepted, byte for byte. -/
example : (vectorPayload 4217142651407).signaturePayload Sha256.digest = .ok ⟨[
    0x6c,0x91,0xec,0x2a,0xbd,0xdf,0xcd,0xbd,0x38,0xb8,0xc3,0x45,0xf7,0x68,0xa3,0x2f,
    0xd7,0x3b,0xa0,0xf9,0xbc,0x06,0x4a,0x2d,0xbb,0x7a,0x5f,0xc4,0xd0,0xe6,0x49,0x27],rfl⟩ := by
  decide +kernel

theorem vectorPayload_hash : (vectorPayload 1).signaturePayload Sha256.digest =
    .ok (Sha256.digest ((vectorPayload 1).preimage.getD [])) :=
  AuthorizationPayload.signaturePayload_eq_ok.mpr ⟨_,by decide +kernel,rfl⟩

theorem signature_payload_binds_vector :
    ∃ h h', (vectorPayload 4217142651407).signaturePayload Sha256.digest = .ok h ∧
      (vectorPayload 4217142651408).signaturePayload Sha256.digest = .ok h' ∧ h ≠ h' := by
  apply (signature_payload_binds contractLeaves contractLeaves_unambiguous).2.2 Sha256.digest
    (vectorPayload 4217142651407) (vectorPayload 4217142651408)
    ((vectorPayload 4217142651407).preimage.getD []) ((vectorPayload 4217142651408).preimage.getD [])
  · decide +kernel
  · decide +kernel
  · intro h
    exact absurd h (by decide +kernel)
  · intro h
    exact absurd (congrArg AuthorizationPayload.nonce h) (by decide)

end SorobanMlDsa

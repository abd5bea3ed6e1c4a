import SorobanMlDsa.Account

/-! The prototypes of phase 0. They call the `ml-dsa` crate directly, through its
slice conversions and the `signature` traits, instead of the trait layer. -/
namespace SorobanMlDsa.Phase0

open ByteSlice

variable (D : MlDsaCrate)

variable {D} in
/-- `EncodedVerifyingKey::from` an array of the key's size; no other size
type-checks. -/
def encodedFrom {n : ℕ} (h : D.verifyingKeySize = n) (a : Arr n) : Arr D.verifyingKeySize :=
  ⟨a.val,a.property.trans h.symm⟩

namespace PqProbe

/-- The body of both `verify` functions, for the sizes written into each. -/
def verifyWith (pkLen sigLen : ℕ) (h : D.verifyingKeySize = pkLen) (pk msg sig : Bytes) : Outcome Bool :=
  if pk.length ≠ pkLen then .ok false
  else do
    let pkA ← copyIntoSlice pk (Arr.zero pkLen)
    if sig.length ≠ sigLen then return false
    else do
      let sigA ← copyIntoSlice sig (Arr.zero sigLen)
      let mlen := msg.length
      if 256 < mlen then return false
      else do
        let msgA ← copyPrefix (Arr.zero 256) mlen msg
        let vk := D.decode (encodedFrom h pkA)
        match D.tryFromSignature sigA.val with
        | none => return false
        | some s => return D.verify vk (msgA.val.take mlen) s

def verify (h : D.verifyingKeySize = 1952) : (pk msg sig : Bytes) → Outcome Bool :=
  verifyWith D 1952 3309 h

def verify44 (h : D.verifyingKeySize = 1312) : (pk msg sig : Bytes) → Outcome Bool :=
  verifyWith D 1312 2420 h

variable {D}

theorem verifyWith_sized (hT : D.TraitsAgree) {pkLen sigLen : ℕ} (h : D.verifyingKeySize = pkLen)
    {pk msg sig : Bytes} (hpk : pk.length = pkLen) (hsig : sig.length = sigLen) (hmsg : msg.length ≤ 256) :
    verifyWith D pkLen sigLen h pk msg sig =
      .ok (decide (D.Accepts (D.decode ⟨pk,hpk.trans h.symm⟩) msg [] sig)) := by
  have hcopy := copyPrefix_ok (Arr.zero 256) (rfl : msg.length = msg.length) hmsg
  simp only [verifyWith,if_neg (not_not.mpr hpk),if_neg (not_not.mpr hsig),if_neg (Nat.not_lt.mpr hmsg),
    copyIntoSlice_ok _ hpk,copyIntoSlice_ok _ hsig,hcopy,ok_bind,pure_eq_ok,encodedFrom,
    Arr.overwrite_take,hT.accepts_iff]
  cases hs : D.tryFromSignature sig with
  | none => simp
  | some s => simp

theorem verifyWith_eq (hT : D.TraitsAgree) {pkLen sigLen : ℕ} (h : D.verifyingKeySize = pkLen)
    (hs : D.signatureSize = sigLen) (pk msg sig : Bytes) :
    verifyWith D pkLen sigLen h pk msg sig =
      .ok (decide (msg.length ≤ 256 ∧ D.AcceptsEncoded pk msg [] sig)) := by
  by_cases hpk : pk.length = pkLen
  · by_cases hsig : sig.length = sigLen
    · by_cases hmsg : msg.length ≤ 256
      · have hacc := MlDsaCrate.acceptsEncoded_iff (hpk.trans h.symm) msg [] sig
        simp only [verifyWith_sized hT h hpk hsig hmsg,hmsg,true_and,hacc]
      · simp [verifyWith,hpk,hsig,hmsg,Nat.not_le.mp hmsg,copyIntoSlice_ok]
    · have hno : ¬ D.AcceptsEncoded pk msg [] sig := fun ha => hsig (ha.length.2.trans hs)
      simp [verifyWith,hpk,hsig,hno,copyIntoSlice_ok]
  · have hno : ¬ D.AcceptsEncoded pk msg [] sig := fun ha => hpk (ha.length.1.trans h)
    simp [verifyWith,hpk,hno]

end PqProbe

/-- The prototype account's `__check_auth`: no context, and a signature that does not
decode is reported as one of the wrong length. -/
def PqAccount.checkAuth (h : D.verifyingKeySize = 1952) (storage : PqAccount.Storage)
    (signaturePayload : Arr 32) (signature : Bytes) : Outcome (Except PqAccount.Error Unit) :=
  match storage.pubKey with
  | none => .ok (.error .notInited)
  | some pk =>
    if pk.length ≠ 1952 then .ok (.error .badPubKeyLen)
    else do
      let pkA ← copyIntoSlice pk (Arr.zero 1952)
      if signature.length ≠ 3309 then return .error .badSigLen
      else do
        let sigA ← copyIntoSlice signature (Arr.zero 3309)
        let msg ← copyIntoSlice signaturePayload.val (Arr.zero 32)
        let vk := D.decode (encodedFrom h pkA)
        match D.tryFromSignature sigA.val with
        | none => return .error .badSigLen
        | some s => if D.verify vk msg.val s then return .ok () else return .error .sigVerifyFailed

variable {D}

theorem PqAccount.checkAuth_eq_ok_iff (hT : D.TraitsAgree) (h : D.verifyingKeySize = 1952)
    (hs : D.signatureSize = 3309) {storage : PqAccount.Storage} (p : Arr 32) (sig : Bytes) :
    PqAccount.checkAuth D h storage p sig = .ok (.ok ()) ↔
      ∃ pk, storage.pubKey = some pk ∧ D.AcceptsEncoded pk p.val [] sig := by
  cases hk : storage.pubKey with
  | none => simp [PqAccount.checkAuth,hk]
  | some pk =>
    by_cases hpk : pk.length = 1952
    · by_cases hsig : sig.length = 3309
      · have hacc := MlDsaCrate.acceptsEncoded_iff (hpk.trans h.symm) p.val [] sig
        simp only [PqAccount.checkAuth,hk,if_neg (not_not.mpr hpk),if_neg (not_not.mpr hsig),
          copyIntoSlice_ok _ hpk,copyIntoSlice_ok _ hsig,copyIntoSlice_ok _ p.property,ok_bind,pure_eq_ok,
          encodedFrom,Option.some.injEq,exists_eq_left',hacc,hT.accepts_iff]
        cases hd : D.tryFromSignature sig with
        | none => simp
        | some s => cases hv : D.verify (D.decode ⟨pk,hpk.trans h.symm⟩) p.val s <;> simp [hv]
      · have hno : ¬ D.AcceptsEncoded pk p.val [] sig := fun ha => hsig (ha.length.2.trans hs)
        simp [PqAccount.checkAuth,hk,hpk,hsig,hno,copyIntoSlice_ok]
    · have hno : ¬ D.AcceptsEncoded pk p.val [] sig := fun ha => hpk (ha.length.1.trans h)
      simp [PqAccount.checkAuth,hk,hpk,hno]

end SorobanMlDsa.Phase0

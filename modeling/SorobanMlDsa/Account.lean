import SorobanMlDsa.MlDsaScheme
import SorobanMlDsa.TagCrate
import SorobanMlDsa.Transition

/-!
# The account contract

`PqAccount` as a machine over its instance storage. The host's `require_auth` runs the account's
own `__check_auth` on the authorization presented with the invocation, and an invocation that
fails writes nothing. `Slot` is what the storage is meant to be.
-/

namespace SorobanMlDsa.PqAccount

open ByteSlice Transition

/-- `DataKey::PubKey` in instance storage. -/
structure Storage where
  pubKey : Option Bytes
  deriving DecidableEq, Repr

def fresh : Storage := ⟨none⟩

inductive Error
  | notInited
  | badPubKeyLen
  | badSigLen
  | sigVerifyFailed
  deriving DecidableEq, Repr

/-- Domain-separation context, bound into every signature this account accepts. -/
def context : Bytes := "pq-account-v1".toByteArray.data.toList

structure Authorization where
  signaturePayload : Arr 32
  signature : Bytes

/-- The part of the host environment the contract uses. `authorized` records that
`require_auth` on the contract's own address was satisfied. -/
structure Env where
  storage : Storage
  presented : Option Authorization
  authorized : Bool

variable (D : MlDsaCrate)

def init (env : Env) (pubkey : Bytes) : Outcome (Except Error Unit × Env) :=
  if pubkey.length ≠ mldsa65.vkLen then .ok (.error .badPubKeyLen,env)
  else do
    let buf ← copyIntoSlice pubkey (Arr.zero mldsa65.vkLen)
    match VerifyingKey.fromBytes mldsa65 D buf.val with
    | .error _ => return (.error .badPubKeyLen,env)
    | .ok _ => return (.ok (),{env with storage := ⟨some pubkey⟩})

/-- `__check_auth`; the authorization contexts are not looked at. -/
def checkAuth (storage : Storage) (signaturePayload : Arr 32) (signature : Bytes) :
    Outcome (Except Error Unit) :=
  match storage.pubKey with
  | none => .ok (.error .notInited)
  | some stored =>
    if stored.length ≠ mldsa65.vkLen then .ok (.error .badPubKeyLen)
    else if signature.length ≠ mldsa65.sigLen then .ok (.error .badSigLen)
    else do
      let vkBuf ← copyIntoSlice stored (Arr.zero mldsa65.vkLen)
      let sigBuf ← copyIntoSlice signature (Arr.zero mldsa65.sigLen)
      let msg ← copyIntoSlice signaturePayload.val (Arr.zero 32)
      match VerifyingKey.fromBytes mldsa65 D vkBuf.val with
      | .error _ => return .error .badPubKeyLen
      | .ok vk =>
        match vk.verify mldsa65 msg.val context sigBuf.val with
        | .error _ => return .error .sigVerifyFailed
        | .ok () => return .ok ()

/-- The host's `require_auth` on the contract's own address. -/
def requireAuth (env : Env) : Outcome Env :=
  match env.presented with
  | none => .error .trap
  | some a => do
    match ← checkAuth D env.storage a.signaturePayload a.signature with
    | .error _ => .error .trap
    | .ok () => return {env with authorized := true}

/-- The entry point named `protected`, over a `require_auth` on the contract's own address. -/
def protectedWith (requireAuth : Env → Outcome Env) (env : Env) : Outcome (UInt32 × Env) := do
  let env ← requireAuth env
  return (42,env)

def protectedCall (env : Env) : Outcome (UInt32 × Env) := protectedWith (requireAuth D) env

inductive Call
  | init (pubkey : Bytes)
  | protectedCall
  | checkAuth (signaturePayload : Arr 32) (signature : Bytes)

variable {A : Type}

/-- An external invocation. The contract is never told who `caller` is. -/
structure Invocation (A : Type) where
  caller : A
  presented : Option Authorization
  call : Call

inductive Value
  | unit
  | u32 (n : UInt32)
  deriving DecidableEq, Repr

def dispatch (env : Env) : Call → Outcome (Except Error Value × Env)
  | .init pubkey => do
    let (r,env) ← init D env pubkey
    return (r.map fun _ => .unit,env)
  | .protectedCall => do
    let (n,env) ← protectedCall D env
    return (.ok (.u32 n),env)
  | .checkAuth p sig => do
    let r ← checkAuth D env.storage p sig
    return (r.map fun _ => .unit,env)

def invoke (s : Storage) (i : Invocation A) : Outcome (Except Error Value × Env) :=
  dispatch D ⟨s,i.presented,false⟩ i.call

/-- The storage after an invocation; only a successful one commits its writes. -/
def step (s : Storage) (i : Invocation A) : Storage :=
  match invoke D s i with
  | .ok (.ok _,env) => env.storage
  | _ => s

def acceptedInit (e : Edge Storage (Invocation A)) : Option Bytes :=
  match e.input.call,invoke D e.before e.input with
  | .init pubkey,.ok (.ok _,_) => some pubkey
  | _,_ => none

/-- The key slot the storage is meant to be: empty, or one whole encoded key. -/
abbrev Slot := Option (Arr mldsa65.vkLen)

namespace Slot

def put (slot : Slot) (pubkey : Bytes) : Slot := (tryFrom mldsa65.vkLen pubkey).or slot

def verdict (slot : Slot) (signaturePayload signature : Bytes) : Except Error Unit :=
  match slot with
  | none => .error .notInited
  | some key =>
    if signature.length ≠ mldsa65.sigLen then .error .badSigLen
    else if D.AcceptsEncoded key.val signaturePayload context signature then .ok ()
    else .error .sigVerifyFailed

def step (slot : Slot) (i : Invocation A) : Slot :=
  match i.call with
  | .init pubkey => slot.put pubkey
  | _ => slot

end Slot

def Stores (s : Storage) (slot : Slot) : Prop := s.pubKey = slot.map Subtype.val

section

variable {D}

theorem context_le : context.length ≤ maxContextLen := by decide

theorem init_wrongLength (env : Env) {pubkey : Bytes} (h : pubkey.length ≠ mldsa65.vkLen) :
    init D env pubkey = .ok (.error .badPubKeyLen,env) := if_pos h

theorem init_ok (hS : D.SizesMatch mldsa65) (env : Env) {pubkey : Bytes}
    (h : pubkey.length = mldsa65.vkLen) :
    init D env pubkey = .ok (.ok (),{env with storage := ⟨some pubkey⟩}) := by
  rw [init,if_neg (not_not.mpr h),copyIntoSlice_ok _ h]
  simp only [ok_bind,VerifyingKey.fromBytes_ok hS h]
  rfl

theorem checkAuth_notInited {s : Storage} (h : s.pubKey = none) (p : Arr 32) (sig : Bytes) :
    checkAuth D s p sig = .ok (.error .notInited) := by
  rw [checkAuth,h]

theorem checkAuth_badPubKeyLen {s : Storage} {k : Bytes} (h : s.pubKey = some k)
    (hk : k.length ≠ mldsa65.vkLen) (p : Arr 32) (sig : Bytes) :
    checkAuth D s p sig = .ok (.error .badPubKeyLen) := by
  rw [checkAuth,h]
  exact if_pos hk

theorem checkAuth_badSigLen {s : Storage} {k : Bytes} (h : s.pubKey = some k)
    (hk : k.length = mldsa65.vkLen) (p : Arr 32) {sig : Bytes} (hsig : sig.length ≠ mldsa65.sigLen) :
    checkAuth D s p sig = .ok (.error .badSigLen) := by
  rw [checkAuth,h]
  simp only [if_neg (not_not.mpr hk),if_pos hsig]

/-- Past the length checks every copy fits, and what remains is decoding the stored
key and verifying under it, each with its error replaced. -/
theorem checkAuth_sized {s : Storage} {k : Bytes} (h : s.pubKey = some k) (hk : k.length = mldsa65.vkLen)
    (p : Arr 32) {sig : Bytes} (hsig : sig.length = mldsa65.sigLen) :
    checkAuth D s p sig = .ok ((VerifyingKey.fromBytes mldsa65 D k).mapError (fun _ => .badPubKeyLen) >>=
      fun vk => (vk.verify mldsa65 p.val context sig).mapError fun _ => .sigVerifyFailed) := by
  rw [checkAuth,h]
  simp only [if_neg (not_not.mpr hk),if_neg (not_not.mpr hsig),copyIntoSlice_ok _ hk,
    copyIntoSlice_ok _ hsig,copyIntoSlice_ok _ p.property,ok_bind]
  cases VerifyingKey.fromBytes mldsa65 D k with
  | error e => rfl
  | ok vk =>
    simp only [Except.mapError,ok_bind]
    cases vk.verify mldsa65 p.val context sig <;> rfl

theorem checkAuth_verify (hS : D.SizesMatch mldsa65) {s : Storage} {k : Bytes} (h : s.pubKey = some k)
    (hk : k.length = mldsa65.vkLen) (p : Arr 32) {sig : Bytes} (hsig : sig.length = mldsa65.sigLen) :
    checkAuth D s p sig = .ok
      ((VerifyingKey.verify mldsa65 ⟨D.decode ⟨k,hk.trans hS.verifyingKey.symm⟩⟩ p.val context sig).mapError
        fun _ => .sigVerifyFailed) := by
  rw [checkAuth_sized h hk p hsig,VerifyingKey.fromBytes_ok hS hk]
  rfl

/-- On a slot the contract computes the slot's verdict, and nothing panics. -/
theorem checkAuth_refines (hS : D.SizesMatch mldsa65) {s : Storage} {slot : Slot} (h : Stores s slot)
    (p : Arr 32) (sig : Bytes) : checkAuth D s p sig = .ok (slot.verdict D p.val sig) := by
  cases slot with
  | none => exact checkAuth_notInited h p sig
  | some key =>
    obtain ⟨k,hk⟩ := key
    by_cases hsig : sig.length = mldsa65.sigLen
    · have hacc := MlDsaCrate.acceptsEncoded_iff (hk.trans hS.verifyingKey.symm) p.val context sig
      rw [checkAuth_verify hS h hk p hsig,VerifyingKey.verify_decides _ context_le hsig]
      simp only [Slot.verdict,if_neg (not_not.mpr hsig),hacc]
      split <;> rfl
    · rw [checkAuth_badSigLen h hk p hsig]
      simp only [Slot.verdict,if_pos hsig]

/-- Satisfying `require_auth` takes a signature that `__check_auth` accepts under
the key stored at that moment, and only records the fact. -/
theorem requireAuth_ok {env env' : Env} (h : requireAuth D env = .ok env') :
    ∃ a, env.presented = some a ∧ checkAuth D env.storage a.signaturePayload a.signature = .ok (.ok ()) ∧
      env' = {env with authorized := true} := by
  cases hp : env.presented with
  | none => simp [requireAuth,hp] at h
  | some a =>
    simp only [requireAuth,hp] at h
    obtain ⟨r,hc,hr⟩ := bind_eq_ok.mp h
    cases r with
    | error e => cases hr
    | ok u => exact ⟨a,rfl,hc,(Except.ok.inj hr).symm⟩

theorem protectedCall_ok {env : Env} {r : UInt32 × Env} (h : protectedCall D env = .ok r) :
    ∃ a, env.presented = some a ∧ checkAuth D env.storage a.signaturePayload a.signature = .ok (.ok ()) ∧
      r = (42,{env with authorized := true}) := by
  obtain ⟨env',hr,hret⟩ := bind_eq_ok.mp h
  obtain ⟨a,ha,hc,rfl⟩ := requireAuth_ok hr
  exact ⟨a,ha,hc,(Except.ok.inj hret).symm⟩

variable {A : Type} {s : Storage} {i : Invocation A}

theorem invoke_init_ok (hS : D.SizesMatch mldsa65) {pubkey : Bytes} (hi : i.call = .init pubkey)
    (hk : pubkey.length = mldsa65.vkLen) :
    invoke D s i = .ok (.ok .unit,⟨⟨some pubkey⟩,i.presented,false⟩) := by
  rw [invoke,hi]
  simp only [dispatch,init_ok hS _ hk]
  rfl

theorem invoke_init_wrongLength {pubkey : Bytes} (hi : i.call = .init pubkey)
    (hk : pubkey.length ≠ mldsa65.vkLen) :
    invoke D s i = .ok (.error .badPubKeyLen,⟨s,i.presented,false⟩) := by
  rw [invoke,hi]
  simp only [dispatch,init_wrongLength _ hk]
  rfl

theorem step_init_ok (hS : D.SizesMatch mldsa65) {pubkey : Bytes} (hi : i.call = .init pubkey)
    (hk : pubkey.length = mldsa65.vkLen) : step D s i = ⟨some pubkey⟩ := by
  simp only [step,invoke_init_ok hS hi hk]

theorem step_init_wrongLength {pubkey : Bytes} (hi : i.call = .init pubkey)
    (hk : pubkey.length ≠ mldsa65.vkLen) : step D s i = s := by
  simp only [step,invoke_init_wrongLength hi hk]

theorem step_of_not_init (hi : ∀ pubkey, i.call ≠ .init pubkey) : step D s i = s := by
  cases hcall : i.call with
  | init pubkey => exact absurd hcall (hi pubkey)
  | protectedCall =>
    cases hp : protectedCall D ⟨s,i.presented,false⟩ with
    | error e => simp [step,invoke,hcall,dispatch,hp]
    | ok r =>
      obtain ⟨-,-,-,rfl⟩ := protectedCall_ok hp
      simp [step,invoke,hcall,dispatch,hp]
  | checkAuth p sig =>
    cases hc : checkAuth D s p sig with
    | error e => simp [step,invoke,hcall,dispatch,hc]
    | ok r => cases r <;> simp [step,invoke,hcall,dispatch,hc,Except.map]

/-- The contract keeps to the slot's steps. -/
theorem step_refines (hS : D.SizesMatch mldsa65) {slot : Slot} (h : Stores s slot) (i : Invocation A) :
    Stores (step D s i) (slot.step i) := by
  cases hcall : i.call with
  | init pubkey =>
    by_cases hk : pubkey.length = mldsa65.vkLen
    · rw [step_init_ok hS hcall hk]
      simp [Stores,Slot.step,Slot.put,hcall,tryFrom_of_length hk]
    · rw [step_init_wrongLength hcall hk]
      simpa [Stores,Slot.step,Slot.put,hcall,tryFrom_eq_none hk] using h
  | protectedCall =>
    rw [step_of_not_init (by simp [hcall])]
    simpa only [Slot.step,hcall] using h
  | checkAuth p sig =>
    rw [step_of_not_init (by simp [hcall])]
    simpa only [Slot.step,hcall] using h

/-- Whatever is called, in whatever order, the storage stays a slot. -/
theorem run_refines (hS : D.SizesMatch mldsa65) (is : List (Invocation A)) :
    Stores (is.foldl (step D) fresh) (is.foldl Slot.step none) :=
  foldl_simulates (R := Stores) (s := fresh) (t := none) (fun _ _ i h => step_refines hS h i) rfl is

theorem acceptedInit_eq_some {e : Edge Storage (Invocation A)} (hS : D.SizesMatch mldsa65) {pubkey : Bytes} :
    acceptedInit D e = some pubkey ↔ e.input.call = .init pubkey ∧ pubkey.length = mldsa65.vkLen := by
  cases hcall : e.input.call with
  | init k =>
    by_cases hk : k.length = mldsa65.vkLen
    · simp only [acceptedInit,hcall,invoke_init_ok hS hcall hk,Option.some.injEq,Call.init.injEq]
      constructor
      · rintro rfl
        exact ⟨rfl,hk⟩
      · exact fun h => h.1
    · simp only [acceptedInit,hcall,invoke_init_wrongLength hcall hk,Call.init.injEq]
      constructor
      · intro h
        cases h
      · rintro ⟨rfl,h⟩
        exact absurd h hk
  | protectedCall => simp [acceptedInit,hcall]
  | checkAuth p sig => simp [acceptedInit,hcall]

theorem requireAuth_error (hS : D.SizesMatch mldsa65) {slot : Slot} {env : Env}
    (h : Stores env.storage slot) {e : Panic} (he : requireAuth D env = .error e) : e = .trap := by
  cases hp : env.presented with
  | none =>
    have htrap : Except.error Panic.trap = (.error e : Outcome Env) := by simpa only [requireAuth,hp] using he
    exact (Except.error.inj htrap).symm
  | some a =>
    have hc := checkAuth_refines hS h a.signaturePayload a.signature
    cases hv : slot.verdict D a.signaturePayload.val a.signature with
    | error r =>
      simp only [requireAuth,hp,hc,hv,ok_bind,Except.error.injEq] at he
      exact he.symm
    | ok u => simp [requireAuth,hp,hc,hv] at he

theorem invoke_error (hS : D.SizesMatch mldsa65) {slot : Slot} (h : Stores s slot) {e : Panic}
    (he : invoke D s i = .error e) : e = .trap := by
  cases hcall : i.call with
  | init k =>
    by_cases hk : k.length = mldsa65.vkLen
    · rw [invoke_init_ok hS hcall hk] at he
      cases he
    · rw [invoke_init_wrongLength hcall hk] at he
      cases he
  | protectedCall =>
    cases hr : requireAuth D ⟨s,i.presented,false⟩ with
    | error p =>
      simp only [invoke,hcall,dispatch,protectedCall,protectedWith,hr,error_bind,Except.error.injEq] at he
      rw [← he]
      exact requireAuth_error hS h hr
    | ok env => simp [invoke,hcall,dispatch,protectedCall,protectedWith,hr] at he
  | checkAuth p sig =>
    simp [invoke,hcall,dispatch,checkAuth_refines hS h p sig] at he

theorem step_rejected (hS : D.SizesMatch mldsa65) (h : acceptedInit D ⟨s,i,step D s i⟩ = none) :
    step D s i = s := by
  cases hcall : i.call with
  | init k =>
    have hk : k.length ≠ mldsa65.vkLen := by
      intro hk
      have hsome := (acceptedInit_eq_some (e := ⟨s,i,step D s i⟩) hS).mpr ⟨hcall,hk⟩
      simp [h] at hsome
    exact step_init_wrongLength hcall hk
  | protectedCall => exact step_of_not_init (by simp [hcall])
  | checkAuth p sig => exact step_of_not_init (by simp [hcall])

theorem step_pubKey (hS : D.SizesMatch mldsa65) (s : Storage) (i : Invocation A) :
    (step D s i).pubKey = (acceptedInit D ⟨s,i,step D s i⟩).or s.pubKey := by
  cases ha : acceptedInit D ⟨s,i,step D s i⟩ with
  | some pubkey =>
    obtain ⟨hcall,hk⟩ := (acceptedInit_eq_some hS).mp ha
    rw [step_init_ok hS hcall hk]
    rfl
  | none =>
    rw [step_rejected hS ha]
    rfl

/-- The stored key is the argument of the last accepted `init`. -/
theorem run_pubKey (hS : D.SizesMatch mldsa65) (is : List (Invocation A)) :
    (is.foldl (step D) fresh).pubKey = ((trace (step D) fresh is).filterMap (acceptedInit D)).getLast? := by
  have hcell := foldl_lastWrite (step_pubKey hS) fresh is
  rw [hcell]
  exact Option.or_none

end

/-- `__check_auth` answers each case of its table and nothing else. -/
structure DecisionTable (D : MlDsaCrate) (s : Storage) (p : Arr 32) (sig : Bytes) : Prop where
  notInited_iff : checkAuth D s p sig = .ok (.error .notInited) ↔ s.pubKey = none
  badSigLen_iff : checkAuth D s p sig = .ok (.error .badSigLen) ↔
    s.pubKey ≠ none ∧ sig.length ≠ 3309
  ok_iff : checkAuth D s p sig = .ok (.ok ()) ↔
    ∃ k, s.pubKey = some k ∧ sig.length = 3309 ∧ D.AcceptsEncoded k p.val context sig
  sigVerifyFailed_iff : checkAuth D s p sig = .ok (.error .sigVerifyFailed) ↔
    ∃ k, s.pubKey = some k ∧ sig.length = 3309 ∧ ¬ D.AcceptsEncoded k p.val context sig
  ne_badPubKeyLen : checkAuth D s p sig ≠ .ok (.error .badPubKeyLen)
  no_panic : ∀ e, checkAuth D s p sig ≠ .error e

theorem Stores.decisionTable {D : MlDsaCrate} (hS : D.SizesMatch mldsa65) {s : Storage} {slot : Slot}
    (h : Stores s slot) (p : Arr 32) (sig : Bytes) : DecisionTable D s p sig := by
  have hc := checkAuth_refines hS h p sig
  have hlen : mldsa65.sigLen = 3309 := rfl
  cases slot with
  | none =>
    have hs : s.pubKey = none := h
    constructor <;> simp [hc,hs,Slot.verdict]
  | some key =>
    have hs : s.pubKey = some key.val := h
    by_cases hsig : sig.length = 3309
    · by_cases ha : D.AcceptsEncoded key.val p.val context sig <;>
        constructor <;> simp [hc,hs,Slot.verdict,hlen,hsig,ha]
    · constructor <;> simp [hc,hs,Slot.verdict,hlen,hsig]

/-- What holds of the contract after a run: which key is stored, what left it alone,
and how `__check_auth` answers. -/
structure RunInvariant (D : MlDsaCrate) {A : Type} (is : List (Invocation A)) : Prop where
  lastInit : (is.foldl (step D) fresh).pubKey =
    ((trace (step D) fresh is).filterMap (acceptedInit D)).getLast?
  absent_iff : (is.foldl (step D) fresh).pubKey = none ↔
    ∀ e ∈ trace (step D) fresh is, acceptedInit D e = none
  decodes : ∀ k, (is.foldl (step D) fresh).pubKey = some k →
    k.length = 1952 ∧ ∃ vk, VerifyingKey.fromBytes mldsa65 D k = .ok vk
  unchanged : ∀ e ∈ trace (step D) fresh is, acceptedInit D e = none → e.after = e.before
  initReturns : ∀ env pubkey, ∃ r env', init D env pubkey = .ok (r,env') ∧ ∀ e, r = .error e → env' = env
  noCopyPanic : ∀ (i : Invocation A) dst src,
    invoke D (is.foldl (step D) fresh) i ≠ .error (.copyLength dst src)
  table : ∀ p sig, DecisionTable D (is.foldl (step D) fresh) p sig

theorem init_returns {D : MlDsaCrate} (hS : D.SizesMatch mldsa65) (env : Env) (pubkey : Bytes) :
    ∃ r env', init D env pubkey = .ok (r,env') ∧ ∀ e, r = .error e → env' = env := by
  by_cases hk : pubkey.length = mldsa65.vkLen
  · exact ⟨_,_,init_ok hS env hk,by simp⟩
  · exact ⟨_,_,init_wrongLength env hk,fun _ _ => rfl⟩

/-- The storage invariant and the decision table, over every run from a fresh
contract. -/
theorem check_auth_decision_table {A : Type} (D : MlDsaCrate) (hS : D.SizesMatch mldsa65)
    (is : List (Invocation A)) : RunInvariant D is where
  lastInit := run_pubKey hS is
  absent_iff := by rw [run_pubKey hS is,List.getLast?_eq_none_iff,List.filterMap_eq_nil_iff]
  decodes k hk := by
    have hslot : some k = (is.foldl Slot.step none).map Subtype.val := hk.symm.trans (run_refines hS is)
    obtain ⟨key,-,rfl⟩ := Option.map_eq_some_iff.mp hslot.symm
    exact ⟨key.property,_,VerifyingKey.fromBytes_ok hS key.property⟩
  unchanged := by
    rintro ⟨s,i,s'⟩ he hrej
    obtain rfl : s' = step D s i := trace_after he
    exact step_rejected hS hrej
  initReturns := init_returns hS
  noCopyPanic i dst src he := by
    have htrap := invoke_error hS (run_refines hS is) he
    cases htrap
  table := (run_refines hS is).decisionTable hS

/-- A failed second `init` leaves the first key in charge. -/
theorem check_auth_decision_table_failed_init :
    checkAuth (TagCrate.crate mldsa65)
      ([⟨0,none,.init (List.replicate 1952 1)⟩,⟨1,none,.init [2]⟩].foldl
        (step (A := ℕ) (TagCrate.crate mldsa65)) fresh) (Arr.zero 32) [3] = .ok (.error .badSigLen) := by
  have hS := TagCrate.sizesMatch mldsa65
  have h := check_auth_decision_table (TagCrate.crate mldsa65) hS
    [(⟨0,none,.init (List.replicate 1952 1)⟩ : Invocation ℕ),⟨1,none,.init [2]⟩]
  refine (h.table (Arr.zero 32) [3]).badSigLen_iff.mpr ⟨?_,by decide⟩
  intro hnone
  have hfirst := h.absent_iff.mp hnone _ List.mem_cons_self
  rw [(acceptedInit_eq_some hS).mpr ⟨rfl,List.length_replicate⟩] at hfirst
  cases hfirst

end SorobanMlDsa.PqAccount

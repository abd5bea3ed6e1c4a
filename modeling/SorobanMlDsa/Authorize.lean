import SorobanMlDsa.Auth
import SorobanMlDsa.Cli
import SorobanMlDsa.TagCrate
import SorobanMlDsa.Transition

/-!
# Runs of `authorize`

In auth mode everything that could vary between two runs against one account is the
latest ledger they are told: nonce and expiry are computed from it, and the network,
the call and the key are fixed. The host lets a nonce of an account through once.
-/

namespace SorobanMlDsa.Authorize

open ByteSlice MachineInt PrefixCode SerdeJson Transition Cli

/-- Must match the contract's constant exactly. -/
def context : Bytes := "pq-account-v1".toByteArray.data.toList

def seed : Bytes := List.replicate 32 42

def keypairOf (D : MlDsaCrate) (seed : Bytes) : Command (Keypair D) :=
  unwrapCall .panic .unwrap (Keypair.fromSeed D seed)

/-- What the runs of a history have in common: the build, the crates behind the tool,
the account on the command line and the symbol `protected`. -/
structure Setting (L : XdrLeaves) where
  build : Build
  crate : MlDsaCrate
  sha256 : Bytes → Arr 32
  account : L.ScAddress
  functionName : L.ScSymbol

variable {L : XdrLeaves} (E : Setting L)

namespace Setting

def net : Arr 32 := networkId E.sha256 testnetPassphrase

def keypair : Command (Keypair E.crate) := keypairOf E.crate seed

def payload (latest : UInt32) : Checked (AuthorizationPayload L) := do
  let scaled ← mul E.build (cast Int64 latest) 1000003
  let nonce ← add E.build scaled 29
  let expiry ← add E.build latest 1000
  return {
    networkId := E.net
    nonce := nonce
    signatureExpirationLedger := expiry
    invocation := .node (.contractFn ⟨E.account,E.functionName,[]⟩) [] }

end Setting

variable (L) in
/-- What a run holds once its entry is built. -/
structure Authorized where
  payload : AuthorizationPayload L
  signaturePayload : Arr 32
  entry : SorobanAuthorizationEntry L

def authorization (kp : Keypair E.crate) (latest : UInt32) : Command (Authorized L) := do
  let payload ← arithmetic (E.payload latest)
  let signaturePayload ← unwrap (payload.signaturePayload E.sha256).toOption
  match buildAuthEntry (scheme mldsa65 E.crate) E.sha256 E.account kp.signingKey payload context with
  | .error p => .error (.panic p)
  | .ok (.error _) => .error (.expect "build_auth_entry")
  | .ok (.ok entry) => return ⟨payload,signaturePayload,entry⟩

/-- Auth mode up to the entry, from the reply that `account_state` reads. -/
def authMode (reply : Value) : Command (Authorized L) := do
  let kp ← E.keypair
  let (_,latest) ← accountState reply
  authorization E kp latest

/-- One run in a history, with what `account_state` returned to it. -/
structure Run where
  reply : Value
  seq : Int64
  latest : UInt32
  returned : accountState reply = .ok (seq,latest)

def stateReply (seq : Int64) (latest : UInt32) : Value :=
  .object [("result",.object [("latestLedger",.number (.posInt (cast UInt64 latest))),
    ("entries",.array [.object [("dataJson",.object [("account",.object
      [("seq_num",.string (decimal seq))])])]])])]

/-- `account_state` can return any sequence number and any ledger. -/
theorem accountState_stateReply (seq : Int64) (latest : UInt32) :
    accountState (stateReply seq latest) = .ok (seq,latest) := by
  have hlt := latest.toNat_lt
  have hwide : toInt (cast UInt64 latest) = toInt latest := toInt_cast (by
    rw [uint32_toInt,fits_uint64]
    omega)
  have hnarrow : cast UInt32 (cast UInt64 latest) = latest := by
    apply toInt_inj.mp
    rw [toInt_cast (hwide ▸ fits_toInt latest),hwide]
  have hseq : parse Int64 (decimal seq) = some seq := parse_decimal seq
  simp [accountState,stateReply,Value.asI64,Value.asStr,Value.asU64,expect,unwrap,hseq,hnarrow]

def Run.ofState (seq : Int64) (latest : UInt32) : Run :=
  ⟨stateReply seq latest,seq,latest,accountState_stateReply seq latest⟩

/-- The nonce a run presents to the host, where it gets so far. -/
def Run.nonce (r : Run) : Option Int64 := (authMode E r.reply).toOption.bind fun a => a.entry.nonce

def presented (runs : List Run) : List Int64 := runs.filterMap (Run.nonce E)

/-- No two distinct payloads of a history hash alike. -/
def Setting.CollisionFree (runs : List Run) : Prop :=
  ∀ r ∈ runs, ∀ r' ∈ runs, ∀ p p' b b', E.payload r.latest = .ok p → E.payload r'.latest = .ok p' →
    p.preimage = some b → p'.preimage = some b' → E.sha256 b = E.sha256 b' → b = b'

/-- In a history against one account both numbers are computed without overflow, no
nonce and no signed value comes back, and the host, which remembers the nonces of the
account, rejects none as used. -/
structure UniqueNonces (runs : List Run) : Prop where
  exact : ∀ r ∈ runs, ∃ p, E.payload r.latest = .ok p ∧
    p.nonce.toInt = r.latest.toNat * 1000003 + 29 ∧
    p.signatureExpirationLedger.toNat = r.latest.toNat + 1000
  nonces : runs.Pairwise fun r r' => ∀ p p', E.payload r.latest = .ok p → E.payload r'.latest = .ok p' →
    p.nonce ≠ p'.nonce
  signed : runs.Pairwise fun r r' => ∀ a a', authMode E r.reply = .ok a → authMode E r'.reply = .ok a' →
    a.signaturePayload ≠ a'.signaturePayload
  notReused : ∀ e ∈ trace remember [] (presented E runs), e.input ∉ e.before

variable {E}

/-- The nonce never overflows, so a payload fails or wraps in the expiry only. -/
theorem payload_eq (latest : UInt32) :
    ∃ nonce : Int64, nonce.toInt = latest.toNat * 1000003 + 29 ∧
      E.payload latest = (add E.build latest 1000).map fun expiry =>
        ⟨E.net,nonce,expiry,.node (.contractFn ⟨E.account,E.functionName,[]⟩) []⟩ := by
  have hlt := latest.toNat_lt
  have hcast : toInt (cast Int64 latest) = latest.toNat := toInt_cast (by
    rw [uint32_toInt,fits_int64]
    omega)
  have hfactor : toInt (1000003 : Int64) = 1000003 := rfl
  have hoffset : toInt (29 : Int64) = 29 := rfl
  obtain ⟨scaled,hmul,hscaled⟩ := mul_exact E.build (x := cast Int64 latest) (y := 1000003) (by
    rw [hcast,hfactor,fits_int64]
    omega)
  rw [hcast,hfactor] at hscaled
  obtain ⟨nonce,hadd,hnonce⟩ := add_exact E.build (x := scaled) (y := 29) (by
    rw [hscaled,hoffset,fits_int64]
    omega)
  rw [hscaled,hoffset] at hnonce
  refine ⟨nonce,hnonce,?_⟩
  simp only [Setting.payload,hmul,hadd,ok_bind]
  cases add E.build latest 1000 <;> rfl

theorem payload_nonce {latest : UInt32} {p : AuthorizationPayload L} (h : E.payload latest = .ok p) :
    p.nonce.toInt = latest.toNat * 1000003 + 29 := by
  obtain ⟨nonce,hnonce,hp⟩ := payload_eq (E := E) latest
  cases hadd : add E.build latest 1000 with
  | error f =>
    rw [hp,hadd] at h
    cases h
  | ok expiry =>
    rw [hp,hadd] at h
    cases h
    exact hnonce

theorem payload_nonce_ne {latest latest' : UInt32} {p p' : AuthorizationPayload L}
    (h : E.payload latest = .ok p) (h' : E.payload latest' = .ok p') (hne : latest ≠ latest') :
    p.nonce ≠ p'.nonce := by
  intro he
  have hn := payload_nonce h
  have hn' := payload_nonce h'
  rw [he] at hn
  exact hne (UInt32.toNat_inj.mp (by omega))

theorem payload_exact_iff (latest : UInt32) :
    (∃ p, E.payload latest = .ok p ∧ p.nonce.toInt = latest.toNat * 1000003 + 29 ∧
      p.signatureExpirationLedger.toNat = latest.toNat + 1000) ↔ latest.toNat ≤ 4294966295 := by
  obtain ⟨nonce,hnonce,hp⟩ := payload_eq (E := E) latest
  have hmargin : toInt latest + toInt (1000 : UInt32) = latest.toNat + 1000 := rfl
  constructor
  · rintro ⟨p,-,-,hexpiry⟩
    have hlt := p.signatureExpirationLedger.toNat_lt
    omega
  · intro hle
    obtain ⟨expiry,hadd,hexpiry⟩ := add_exact E.build (x := latest) (y := 1000) (by
      rw [hmargin,fits_uint32]
      omega)
    rw [hmargin,uint32_toInt] at hexpiry
    refine ⟨_,by rw [hp,hadd]; rfl,hnonce,?_⟩
    show expiry.toNat = latest.toNat + 1000
    omega

/-- A finished run has hashed its payload, and its entry presents the payload's nonce. -/
theorem authorization_ok {kp : Keypair E.crate} {latest : UInt32} {a : Authorized L}
    (h : authorization E kp latest = .ok a) :
    E.payload latest = .ok a.payload ∧ a.payload.signaturePayload E.sha256 = .ok a.signaturePayload ∧
      a.entry.nonce = some a.payload.nonce := by
  obtain ⟨p,hp,h⟩ := bind_eq_ok.mp h
  obtain ⟨hash,hhash,h⟩ := bind_eq_ok.mp h
  have hsigned := toOption_eq_some.mp (unwrap_eq_ok.mp hhash)
  split at h
  · cases h
  · cases h
  · rename_i entry hentry
    cases h
    exact ⟨arithmetic_eq_ok.mp hp,hsigned,buildAuthEntry_nonce hentry⟩

theorem authMode_ok {r : Run} {a : Authorized L} (h : authMode E r.reply = .ok a) :
    E.payload r.latest = .ok a.payload ∧ a.payload.signaturePayload E.sha256 = .ok a.signaturePayload ∧
      a.entry.nonce = some a.payload.nonce := by
  obtain ⟨kp,-,hrun⟩ := bind_eq_ok.mp h
  rw [r.returned] at hrun
  exact authorization_ok hrun

theorem signed_ne {r r' : Run} {a a' : Authorized L} (hne : r.latest ≠ r'.latest)
    (hsha : ∀ b b', a.payload.preimage = some b → a'.payload.preimage = some b' →
      E.sha256 b = E.sha256 b' → b = b')
    (h : authMode E r.reply = .ok a) (h' : authMode E r'.reply = .ok a') :
    a.signaturePayload ≠ a'.signaturePayload := by
  intro he
  obtain ⟨hp,hs,-⟩ := authMode_ok h
  obtain ⟨hp',hs',-⟩ := authMode_ok h'
  obtain ⟨b,hb,hhash⟩ := AuthorizationPayload.signaturePayload_eq_ok.mp hs
  obtain ⟨b',hb',hhash'⟩ := AuthorizationPayload.signaturePayload_eq_ok.mp hs'
  obtain rfl : b = b' := hsha b b' hb hb' (hhash.trans (he.trans hhash'.symm))
  exact payload_nonce_ne hp hp' hne (AuthorizationPayload.preimage_nonce hb hb')

theorem Run.nonce_eq {r : Run} {n : Int64} (h : r.nonce E = some n) :
    n.toInt = r.latest.toNat * 1000003 + 29 := by
  obtain ⟨a,ha,hn⟩ := Option.bind_eq_some_iff.mp h
  obtain ⟨hp,-,hentry⟩ := authMode_ok (toOption_eq_some.mp ha)
  rw [← Option.some.inj (hentry.symm.trans hn)]
  exact payload_nonce hp

theorem presented_nodup {runs : List Run} (h : (runs.map Run.latest).Nodup) : (presented E runs).Nodup := by
  have hpairs : runs.Pairwise fun r r' => r.latest ≠ r'.latest := List.pairwise_map.mp h
  refine List.Pairwise.filterMap _ ?_ hpairs
  intro r r' hne n hn n' hn' he
  have h1 := Run.nonce_eq hn
  have h2 := Run.nonce_eq hn'
  rw [he] at h1
  exact hne (UInt32.toNat_inj.mp (by omega))

/-- Nonces are unique exactly in the histories in which no two runs see one ledger and
no expiry passes the last ledger number. -/
theorem nonces_unique_iff (L : XdrLeaves) (E : Setting L) (runs : List Run) (hsha : E.CollisionFree runs) :
    UniqueNonces E runs ↔ (runs.map Run.latest).Nodup ∧ ∀ r ∈ runs, r.latest.toNat ≤ 4294966295 := by
  constructor
  · intro h
    refine ⟨List.pairwise_map.mpr ?_,fun r hr => (payload_exact_iff r.latest).mp (h.exact r hr)⟩
    apply List.Pairwise.imp_of_mem ?_ h.nonces
    intro r r' hr _ hne he
    obtain ⟨p,hp,-⟩ := h.exact r hr
    exact hne p p hp (he ▸ hp) rfl
  · rintro ⟨hledgers,hle⟩
    have hpairs : runs.Pairwise fun r r' => r.latest ≠ r'.latest := List.pairwise_map.mp hledgers
    constructor
    · exact fun r hr => (payload_exact_iff r.latest).mpr (hle r hr)
    · exact hpairs.imp fun hne p p' hp hp' => payload_nonce_ne hp hp' hne
    · apply List.Pairwise.imp_of_mem ?_ hpairs
      intro r r' hr hr' hne a a' ha ha'
      exact signed_ne hne (fun b b' => hsha r hr r' hr' a.payload a'.payload b b' (authMode_ok ha).1
        (authMode_ok ha').1) ha ha'
    · exact (forall_fresh_iff [] (presented E runs)).mpr ⟨presented_nodup hledgers,by simp⟩

def zeroSetting : Setting contractLeaves where
  build := .release
  crate := TagCrate.crate mldsa65
  sha256 := Sha256.digest
  account := Arr.zero 32
  functionName := ⟨"protected".toByteArray.data.toList,by decide⟩

/-- Two runs within one ledger both reach the host with one nonce. -/
theorem nonce_collides_within_ledger :
    presented zeroSetting [Run.ofState 7 4217130,Run.ofState 7 4217130] =
      [4217142651419,4217142651419] ∧
    ¬ UniqueNonces zeroSetting [Run.ofState 7 4217130,Run.ofState 7 4217130] := by
  have hpresented : presented zeroSetting [Run.ofState 7 4217130,Run.ofState 7 4217130] =
      [4217142651419,4217142651419] := by
    decide +kernel
  refine ⟨hpresented,?_⟩
  intro h
  have hnodup := (forall_fresh_iff [] _).mp h.notReused
  rw [hpresented] at hnodup
  exact absurd hnodup.1 (by decide)

variable (E) in
/-- The value a run told `latest` would sign. -/
def Setting.hashed (latest : UInt32) : Option (Arr 32) :=
  (E.payload latest).toOption.bind fun p => p.preimage.map E.sha256

theorem Setting.hashed_eq {latest : UInt32} {p : AuthorizationPayload L} {b : Bytes}
    (hp : E.payload latest = .ok p) (hb : p.preimage = some b) : E.hashed latest = some (E.sha256 b) := by
  rw [hashed,toOption_eq_some.mpr hp,Option.bind_some,hb]
  rfl

theorem Setting.collisionFree_of_hashed {runs : List Run} (h : ∀ r ∈ runs, ∀ r' ∈ runs,
    E.hashed r.latest = E.hashed r'.latest → r.latest = r'.latest) : E.CollisionFree runs := by
  intro r hr r' hr' p p' b b' hp hp' hb hb' he
  have hlatest := h r hr r' hr' (by rw [hashed_eq hp hb,hashed_eq hp' hb',he])
  rw [hlatest,hp',Except.ok.injEq] at hp
  rw [← hp,hb'] at hb
  exact (Option.some.inj hb).symm

theorem zeroSetting_collisionFree :
    zeroSetting.CollisionFree [Run.ofState 7 4217130,Run.ofState 8 4217131] := by
  have hne : zeroSetting.hashed 4217130 ≠ zeroSetting.hashed 4217131 := by decide +kernel
  apply Setting.collisionFree_of_hashed
  intro r hr r' hr' hhash
  simp only [List.mem_cons,List.not_mem_nil,or_false] at hr hr'
  rcases hr with rfl | rfl <;> rcases hr' with rfl | rfl
  · rfl
  · exact absurd hhash hne
  · exact absurd hhash.symm hne
  · rfl

/-- In two successive ledgers the nonces differ. -/
theorem nonces_unique_iff_next_ledger :
    UniqueNonces zeroSetting [Run.ofState 7 4217130,Run.ofState 8 4217131] := by
  apply (nonces_unique_iff contractLeaves zeroSetting _ zeroSetting_collisionFree).mpr
  exact ⟨by decide,by decide⟩

end SorobanMlDsa.Authorize

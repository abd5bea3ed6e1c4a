import SorobanMlDsa.PolicyLog
import SorobanMlDsa.Replay

/-!
# Accounts under a host

What accounts answer, store and return is computed by the contract. When they are asked, and
which of their calls are authorized, is up to the host, a policy over everything that has
happened; of it nothing is used but the laws it documents.
-/

namespace SorobanMlDsa

open ByteSlice PolicyLog PqAccount

variable {L : XdrLeaves} {Form Other : Type}

namespace SorobanAuthorizedInvocation

mutual

/-- The calls of a tree, each with the way to it from the root. -/
def nodes : SorobanAuthorizedInvocation L → List (List ℕ × SorobanAuthorizedFunction L)
  | .node f subs => ([],f)::nodesFrom 0 subs

def nodesFrom : ℕ → List (SorobanAuthorizedInvocation L) → List (List ℕ × SorobanAuthorizedFunction L)
  | _,[] => []
  | i,t::ts => (t.nodes.map fun n => (i::n.1,n.2)) ++ nodesFrom (i + 1) ts

end

theorem mem_nodesFrom {i : ℕ} {ts : List (SorobanAuthorizedInvocation L)} {path : List ℕ}
    {f : SorobanAuthorizedFunction L} : (path,f) ∈ nodesFrom i ts ↔
      ∃ j t rest, ts[j]? = some t ∧ path = (i + j)::rest ∧ (rest,f) ∈ t.nodes := by
  induction ts generalizing i with
  | nil => simp [nodesFrom]
  | cons t ts ih =>
    rw [nodesFrom,List.mem_append,ih]
    constructor
    · rintro (h | ⟨j,t',rest,ht,rfl,h⟩)
      · obtain ⟨⟨rest,g⟩,hmem,he⟩ := List.mem_map.mp h
        obtain ⟨rfl,rfl⟩ := Prod.mk.inj he
        exact ⟨0,t,rest,rfl,rfl,hmem⟩
      · exact ⟨j + 1,t',rest,ht,by rw [Nat.add_right_comm]; rfl,h⟩
    · rintro ⟨j,t',rest,ht,rfl,h⟩
      cases j with
      | zero =>
        obtain rfl : t = t' := Option.some.inj ht
        exact .inl (List.mem_map.mpr ⟨_,h,rfl⟩)
      | succ j => exact .inr ⟨j,t',rest,ht,by rw [Nat.add_right_comm]; rfl,h⟩

theorem nodes_inj {t : SorobanAuthorizedInvocation L} {path : List ℕ} {f g : SorobanAuthorizedFunction L}
    (hf : (path,f) ∈ t.nodes) (hg : (path,g) ∈ t.nodes) : f = g := by
  induction t using SorobanAuthorizedInvocation.induction generalizing path with
  | node h subs ih =>
    rw [nodes,List.mem_cons,mem_nodesFrom] at hf hg
    rcases hf with hf | ⟨j,t,rest,ht,rfl,hf⟩
    · obtain ⟨rfl,rfl⟩ := Prod.mk.inj hf
      rcases hg with hg | ⟨j,t,rest,ht,hpath,-⟩
      · exact (Prod.mk.inj hg).2.symm
      · cases hpath
    · rcases hg with hg | ⟨j',t',rest',ht',hpath,hg⟩
      · cases (Prod.mk.inj hg).1
      · obtain ⟨hj,rfl⟩ := List.cons.inj hpath
        obtain rfl : j = j' := by omega
        obtain rfl : t = t' := Option.some.inj (ht.symm.trans ht')
        exact ih t (List.mem_of_getElem? ht) hf hg

end SorobanAuthorizedInvocation

/-- What stays the same on one network: its id, and the code behind its accounts. -/
structure Network (L : XdrLeaves) where
  crate : MlDsaCrate
  sha256 : Bytes → Arr 32
  networkId : Arr 32
  /-- The symbol `protected`. -/
  functionName : L.ScSymbol

/-- An entry with address credentials. The form is `none` in the `Address` arm; whatever the
other arms carry besides is left to the host. -/
structure AddressEntry (L : XdrLeaves) (Form : Type) where
  credentials : SorobanAddressCredentials L
  form : Option Form
  rootInvocation : SorobanAuthorizedInvocation L

def AddressEntry.of (entry : SorobanAuthorizationEntry L) : Option (AddressEntry L Form) :=
  match entry.credentials with
  | .sourceAccount => none
  | .address creds => some ⟨creds,none,entry.rootInvocation⟩

/-- The fields that entries of every form have in common, as a payload. -/
def AddressEntry.payload (W : Network L) (e : AddressEntry L Form) : AuthorizationPayload L :=
  e.credentials.payload W.networkId e.rootInvocation

/-- What happens on a ledger, as far as accounts are concerned: an account is initialised by
whomever, is asked about an entry, or has its `protected` called, from wherever. -/
inductive Event (L : XdrLeaves) (Form Other : Type)
  | close
  | init (contract : L.ScAddress) (pubkey : Bytes)
  | authenticate (entry : AddressEntry L Form)
  | protectedCall (contract : L.ScAddress)
  | other (o : Other)

namespace Event

def closes : Event L Form Other → Bool
  | .close => true
  | _ => false

def isProtected : Event L Form Other → Bool
  | .protectedCall _ => true
  | _ => false

variable [DecidableEq L.ScAddress]

def initOf (a : L.ScAddress) : Event L Form Other → Option (Invocation Unit)
  | .init contract pubkey => if contract = a then some ⟨(),none,.init pubkey⟩ else none
  | _ => none

def offered (a : L.ScAddress) : Event L Form Other → Option Bytes
  | .init contract pubkey => if contract = a ∧ pubkey.length = mldsa65.vkLen then some pubkey else none
  | _ => none

theorem offered_init {a contract : L.ScAddress} {pubkey k : Bytes} :
    offered a (.init contract pubkey : Event L Form Other) = some k ↔
      contract = a ∧ pubkey = k ∧ k.length = mldsa65.vkLen := by
  simp only [offered,Option.ite_none_right_eq_some,Option.some.injEq]
  constructor
  · rintro ⟨⟨ha,hk⟩,rfl⟩
    exact ⟨ha,rfl,hk⟩
  · rintro ⟨ha,rfl,hk⟩
    exact ⟨⟨ha,hk⟩,rfl⟩

end Event

/-- The node of an entry by which a call is authorized, the entry by its place in the log. -/
structure Grant where
  entry : ℕ
  path : List ℕ
  deriving DecidableEq

/-- The host, by all that has happened: which entries it asks their accounts about, and by
which node, if any, it lets `require_auth` pass in a call of `protected`. -/
structure Host (W : Network L) (Form Other : Type) where
  /-- The ledger in which the log begins. -/
  genesis : ℕ
  /-- What is hashed for an entry of one of the other forms. -/
  formPreimage : Form → SorobanAddressCredentials L → SorobanAuthorizedInvocation L → Option Bytes
  admits : List (Event L Form Other) → AddressEntry L Form → Bool
  grants : List (Event L Form Other) → L.ScAddress → Option Grant

variable {W : Network L} [DecidableEq L.ScAddress]

variable (W) in
/-- What an account stores; of its entry points only `init` writes. -/
def Network.account (a : L.ScAddress) (log : List (Event L Form Other)) : Storage :=
  (log.filterMap (Event.initOf a)).foldl (PqAccount.step W.crate) fresh

namespace Host

variable (H : Host W Form Other)

def now (log : List (Event L Form Other)) : ℕ := H.genesis + log.countP Event.closes

/-- The bytes hashed for an entry; in the `Address` arm those of its own fields. -/
def preimage (e : AddressEntry L Form) : Option Bytes :=
  match e.form with
  | none => (e.payload W).preimage
  | some f => H.formPreimage f e.credentials e.rootInvocation

/-- The answer of the account that an entry names. -/
def answer (log : List (Event L Form Other)) (e : AddressEntry L Form) : Outcome (Except Error Unit) :=
  match H.preimage e,e.credentials.signature with
  | some b,.bytes sig => checkAuth W.crate (W.account e.credentials.address log) (W.sha256 b) sig.val
  | _,_ => .error .trap

/-- What a call of `protected` returns, its `require_auth` decided by the host. -/
def returns (log : List (Event L Form Other)) (contract : L.ScAddress) : Outcome (UInt32 × Env) :=
  protectedWith (fun env =>
    match H.grants log contract with
    | none => .error .trap
    | some _ => .ok {env with authorized := true}) ⟨W.account contract log,none,false⟩

/-- Whether an attempt succeeds. What fails is rolled back and leaves nothing. -/
def takesEffect : Policy (Event L Form Other) := fun log i =>
  match i with
  | .close => true
  | .init contract pubkey =>
    match PqAccount.init W.crate ⟨W.account contract log,none,false⟩ pubkey with
    | .ok (.ok (),_) => true
    | _ => false
  | .authenticate e =>
    H.admits log e && match H.answer log e with
    | .ok (.ok ()) => true
    | _ => false
  | .protectedCall contract =>
    match H.returns log contract with
    | .ok (n,_) => n == 42
    | .error _ => false
  | .other _ => true

/-- The laws of authorization, of any log that can come about. -/
structure Lawful : Prop where
  /-- The other forms are hashed under tags of their own. -/
  apart : ∀ f creds root b, H.formPreimage f creds root = some b → ∀ p : AuthorizationPayload L, p.preimage ≠ some b
  /-- An entry is good up to its last ledger. -/
  inDate : ∀ log, Kept H.takesEffect log → ∀ e, H.admits log e = true →
    H.now log ≤ e.credentials.signatureExpirationLedger.toNat
  /-- A nonce of an account is taken until the entry that took it has expired. -/
  nonce : ∀ log, Kept H.takesEffect log → ∀ e e', H.admits log e = true → .authenticate e' ∈ log →
    e'.credentials.address = e.credentials.address → e'.credentials.nonce = e.credentials.nonce →
    e'.credentials.signatureExpirationLedger.toNat < H.now log
  /-- `require_auth` passes on a node of an authenticated entry of the account, and the node is
  this very call. An account calls nobody, so it is never its own invoker. -/
  node : ∀ log, Kept H.takesEffect log → ∀ a g, H.grants log a = some g → ∃ e,
    log[g.entry]? = some (.authenticate e) ∧ e.credentials.address = a ∧
    (g.path,.contractFn ⟨a,W.functionName,[]⟩) ∈ e.rootInvocation.nodes
  /-- A node is good for one call. -/
  once : ∀ log, Kept H.takesEffect log → ∀ a g, H.grants log a = some g →
    ∀ before a', before ++ [.protectedCall a'] <+: log → H.grants before a' ≠ some g
  /-- An entry is admitted when its root is called, and the root is then granted. -/
  root : ∀ log, Kept H.takesEffect log → ∀ e, H.takesEffect log (.authenticate e) = true →
    ∀ subs, e.rootInvocation = .node (.contractFn ⟨e.credentials.address,W.functionName,[]⟩) subs →
    H.grants (log ++ [.authenticate e]) e.credentials.address = some ⟨log.length,[]⟩

end Host

section Accounts

variable {H : Host W Form Other} {log : List (Event L Form Other)} {a : L.ScAddress}

theorem Network.account_append_singleton (a : L.ScAddress) (log : List (Event L Form Other))
    (i : Event L Form Other) : W.account a (log ++ [i]) =
      (i.initOf a).elim (W.account a log) (PqAccount.step W.crate (W.account a log)) := by
  rw [Network.account,List.filterMap_append,List.foldl_append]
  cases hi : i.initOf a with
  | none => simp [hi,Network.account]
  | some v => simp [hi,Network.account]

/-- Whatever happens on a ledger, the storage of an account stays a slot. -/
theorem Network.account_stores (hS : W.crate.SizesMatch mldsa65) (a : L.ScAddress) (log : List (Event L Form Other)) :
    ∃ slot, Stores (W.account a log) slot := ⟨_,run_refines hS _⟩

theorem Event.initOf_pubKey {D : MlDsaCrate} (hS : D.SizesMatch mldsa65) (a : L.ScAddress)
    (i : Event L Form Other) (s : Storage) :
    ((i.initOf a).elim s (PqAccount.step D s)).pubKey = (i.offered a).or s.pubKey := by
  cases i with
  | init contract pubkey =>
    by_cases ha : contract = a
    · by_cases hk : pubkey.length = mldsa65.vkLen
      · have hstep := step_init_ok hS (s := s) (i := (⟨(),none,.init pubkey⟩ : Invocation Unit)) rfl hk
        simp [initOf,offered,ha,hk,hstep]
      · have hstep : PqAccount.step D s (⟨(),none,.init pubkey⟩ : Invocation Unit) = s :=
          step_init_wrongLength rfl hk
        simp [initOf,offered,ha,hk,hstep]
    · simp [initOf,offered,ha]
  | close => rfl
  | authenticate e => rfl
  | protectedCall contract => rfl
  | other o => rfl

/-- The key an account stores is the last one that was offered to it. -/
theorem Network.account_pubKey (hS : W.crate.SizesMatch mldsa65) (a : L.ScAddress) (log : List (Event L Form Other)) :
    (W.account a log).pubKey = (log.filterMap (Event.offered a)).getLast? := by
  induction log using List.reverseRecOn with
  | nil => rfl
  | append_singleton log i ih =>
    rw [account_append_singleton,Event.initOf_pubKey hS,ih,List.filterMap_append,List.getLast?_append]
    cases hi : i.offered a <;> simp [hi]

namespace Host

theorem takesEffect_init (hS : W.crate.SizesMatch mldsa65) {contract : L.ScAddress} {pubkey : Bytes}
    (hk : pubkey.length = mldsa65.vkLen) : H.takesEffect log (.init contract pubkey) = true := by
  simp only [takesEffect,init_ok hS _ hk]

theorem filterMap_offered_run (hS : W.crate.SizesMatch mldsa65) (a : L.ScAddress) (is : List (Event L Form Other)) :
    (run H.takesEffect is).filterMap (Event.offered a) = is.filterMap (Event.offered a) := by
  induction is using List.reverseRecOn with
  | nil => rfl
  | append_singleton is i ih =>
    rw [run_append_singleton,List.filterMap_append,← ih]
    by_cases hi : H.takesEffect (run H.takesEffect is) i = true
    · rw [append_accepted hi,List.filterMap_append]
    · have hnone : i.offered a = none := by
        apply Option.eq_none_iff_forall_ne_some.mpr
        intro k hk
        cases i with
        | init contract pubkey =>
          obtain ⟨-,rfl,hlen⟩ := Event.offered_init.mp hk
          exact hi (takesEffect_init hS hlen)
        | close => cases hk
        | authenticate e => cases hk
        | protectedCall contract => cases hk
        | other o => cases hk
      rw [PolicyLog.append,if_neg hi]
      simp [hnone]

theorem takesEffect_authenticate {e : AddressEntry L Form} : H.takesEffect log (.authenticate e) = true ↔
    H.admits log e = true ∧ H.answer log e = .ok (.ok ()) := by
  simp only [takesEffect,Bool.and_eq_true]
  apply and_congr_right
  intro _
  rcases H.answer log e with p | r | u <;> simp

theorem takesEffect_protectedCall : H.takesEffect log (.protectedCall a) = true ↔
    ∃ env, H.returns log a = .ok (42,env) := by
  simp only [takesEffect]
  rcases H.returns log a with p | ⟨n,env⟩ <;> simp

theorem returns_eq_ok {r : UInt32 × Env} : H.returns log a = .ok r ↔
    (∃ g, H.grants log a = some g) ∧ r = (42,⟨W.account a log,none,true⟩) := by
  simp only [returns,protectedWith]
  cases H.grants log a with
  | none => simp
  | some g => simp [eq_comm]

theorem answer_eq_ok_iff (hS : W.crate.SizesMatch mldsa65) {e : AddressEntry L Form} :
    H.answer log e = .ok (.ok ()) ↔ ∃ b sig k, H.preimage e = some b ∧ e.credentials.signature = .bytes sig ∧
      (W.account e.credentials.address log).pubKey = some k ∧ sig.val.length = 3309 ∧
      W.crate.AcceptsEncoded k (W.sha256 b).val context sig.val := by
  obtain ⟨slot,hslot⟩ := Network.account_stores hS e.credentials.address log
  cases hb : H.preimage e with
  | none => simp [answer,hb]
  | some b =>
    cases hsig : e.credentials.signature with
    | other v => simp [answer,hb,hsig]
    | bytes sig =>
      simp only [answer,hb,hsig]
      rw [(hslot.decisionTable hS (W.sha256 b) sig.val).ok_iff]
      simp

/-- In the `Address` arm this is the check of a single entry. -/
theorem answer_address {creds : SorobanAddressCredentials L} {root : SorobanAuthorizedInvocation L} :
    H.answer log ⟨creds,none,root⟩ =
      hostCheck W.crate W.sha256 W.networkId (fun a => W.account a log) creds root := by
  simp only [answer,preimage,AddressEntry.payload,hostCheck,AuthorizationPayload.signaturePayload]
  cases (creds.payload W.networkId root).preimage with
  | none => rfl
  | some b => cases creds.signature <;> rfl

/-- An entry that is hashed like a payload is an entry for that payload. -/
theorem payload_of_preimage (hL : L.Unambiguous) (hH : H.Lawful) {e : AddressEntry L Form}
    {p : AuthorizationPayload L} {b : Bytes} (he : H.preimage e = some b) (hp : p.preimage = some b) :
    e.payload W = p := by
  rw [preimage] at he
  cases hform : e.form with
  | none =>
    rw [hform] at he
    exact AuthorizationPayload.preimage_inj hL he hp
  | some f =>
    rw [hform] at he
    exact absurd hp (hH.apart f _ _ b he p)

end Host
end Accounts

section Names

variable (W) [DecidableEq L.ScSymbol]

def Network.names (a : L.ScAddress) : SorobanAuthorizedFunction L → Bool
  | .contractFn ⟨contract,name,args⟩ => contract = a ∧ name = W.functionName ∧ args.isEmpty
  | _ => false

variable {W}

theorem Network.names_iff {a : L.ScAddress} {f : SorobanAuthorizedFunction L} :
    W.names a f = true ↔ f = .contractFn ⟨a,W.functionName,[]⟩ := by
  cases f with
  | contractFn args =>
    rcases args with ⟨contract,name,args⟩
    simp [names]
  | createContractHostFn args => simp [names]
  | createContractV2HostFn args => simp [names]

end Names

end SorobanMlDsa

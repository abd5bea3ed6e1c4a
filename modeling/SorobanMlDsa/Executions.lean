import SorobanMlDsa.PlainHost

/-!
# Executions of `protected`

Every call of `protected` that returns, in whatever tree of calls it stands, is traced back
to the entry behind it and to the key its account stored when it was asked.
-/

namespace SorobanMlDsa

open ByteSlice PolicyLog PqAccount

variable {L : XdrLeaves} {Form Other : Type} {W : Network L} [DecidableEq L.ScAddress]

def Event.entry? : Event L Form Other → Option (AddressEntry L Form)
  | .authenticate e => some e
  | _ => none

/-- What an execution is traced back to: a node of an entry, and the key stored when the
account was asked about the entry. -/
structure Spending (L : XdrLeaves) (Form : Type) where
  account : L.ScAddress
  key : Bytes
  entry : AddressEntry L Form
  path : List ℕ

def Spending.node (W : Network L) (x : Spending L Form) : AuthorizationPayload L × List ℕ :=
  (x.entry.payload W,x.path)

namespace Host

variable (H : Host W Form Other)

def spending (before : List (Event L Form Other)) : Event L Form Other → Option (Spending L Form)
  | .protectedCall a => do
    let g ← H.grants before a
    let e ← before[g.entry]?.bind Event.entry?
    let k ← (W.account a (before.take g.entry)).pubKey
    return ⟨a,k,e,g.path⟩
  | _ => none

def spendings (log : List (Event L Form Other)) : List (Spending L Form) := recorded H.spending log

/-- The account has been asked about an entry, and accepted it under the key offered to it
last, by whomever. -/
def Accepted (before : List (Event L Form Other)) (k : Bytes) (e : AddressEntry L Form) : Prop :=
  ∃ past b sig, past ++ [.authenticate e] <+: before ∧
    H.now past ≤ e.credentials.signatureExpirationLedger.toNat ∧
    (past.filterMap (Event.offered e.credentials.address)).getLast? = some k ∧
    H.preimage e = some b ∧ e.credentials.signature = .bytes sig ∧ sig.val.length = 3309 ∧
    W.crate.AcceptsEncoded k (W.sha256 b).val context sig.val

/-- What stands behind an execution. -/
structure Backed (before : List (Event L Form Other)) (x : Spending L Form) : Prop where
  accepted : H.Accepted before x.key x.entry
  addressed : x.entry.credentials.address = x.account
  named : (x.path,.contractFn ⟨x.account,W.functionName,[]⟩) ∈ x.entry.rootInvocation.nodes

section

variable {H} {log before : List (Event L Form Other)} {a : L.ScAddress} {x y : Spending L Form}
  {i j : Event L Form Other}

theorem spending_eq_some : H.spending before i = some x ↔ ∃ g, i = .protectedCall x.account ∧
    H.grants before x.account = some g ∧ before[g.entry]? = some (.authenticate x.entry) ∧
    (W.account x.account (before.take g.entry)).pubKey = some x.key ∧ g.path = x.path := by
  constructor
  · intro h
    cases i with
    | protectedCall a =>
      obtain ⟨g,hg,h⟩ := Option.bind_eq_some_iff.mp h
      obtain ⟨e,he,h⟩ := Option.bind_eq_some_iff.mp h
      obtain ⟨k,hk,h⟩ := Option.bind_eq_some_iff.mp h
      obtain ⟨event,hevent,he⟩ := Option.bind_eq_some_iff.mp he
      cases event <;> simp only [Event.entry?,reduceCtorEq,Option.some.injEq] at he
      subst he
      rw [← Option.some.inj h]
      exact ⟨g,rfl,hg,hevent,hk,rfl⟩
    | close => cases h
    | init contract pubkey => cases h
    | authenticate e => cases h
    | other o => cases h
  · rintro ⟨g,rfl,hg,he,hk,hpath⟩
    simp [spending,hg,he,Event.entry?,hk,hpath]

variable (hH : H.Lawful) (hlog : Kept H.takesEffect log)

include hH hlog

/-- An account is asked once about one payload. -/
theorem authenticated_once {m n : ℕ} {e e' : AddressEntry L Form} (hm : log[m]? = some (.authenticate e))
    (hn : log[n]? = some (.authenticate e')) (haddress : e.credentials.address = e'.credentials.address)
    (hpayload : e.payload W = e'.payload W) : m = n := by
  have hnot (m n : ℕ) (e e' : AddressEntry L Form) (hm : log[m]? = some (.authenticate e))
      (hn : log[n]? = some (.authenticate e')) (haddress : e.credentials.address = e'.credentials.address)
      (hpayload : e.payload W = e'.payload W) : ¬ m < n := by
    intro hlt
    have hpast := take_prefix_of_getElem? hn
    have hkept := hlog.of_prefix ((List.prefix_append _ _).trans hpast)
    obtain ⟨hadmits,-⟩ := takesEffect_authenticate.mp (hlog _ _ hpast)
    have hmem : .authenticate e ∈ log.take n := by
      apply List.mem_of_getElem? (i := m)
      rw [List.getElem?_take_of_lt hlt]
      exact hm
    have hdead := hH.nonce _ hkept e' e hadmits hmem haddress (congrArg AuthorizationPayload.nonce hpayload)
    have halive := hH.inDate _ hkept e' hadmits
    have hexpiry : e.credentials.signatureExpirationLedger = e'.credentials.signatureExpirationLedger :=
      congrArg AuthorizationPayload.signatureExpirationLedger hpayload
    rw [hexpiry] at hdead
    omega
  have h1 := hnot m n e e' hm hn haddress hpayload
  have h2 := hnot n m e' e hn hm haddress.symm hpayload.symm
  omega

variable (hS : W.crate.SizesMatch mldsa65)

include hS

theorem accepted_of_getElem? {n : ℕ} {e : AddressEntry L Form} (h : log[n]? = some (.authenticate e)) :
    ∃ k, (W.account e.credentials.address (log.take n)).pubKey = some k ∧ H.Accepted log k e := by
  have hpast := take_prefix_of_getElem? h
  have hkept := hlog.of_prefix ((List.prefix_append _ _).trans hpast)
  obtain ⟨hadmits,hanswer⟩ := takesEffect_authenticate.mp (hlog _ _ hpast)
  obtain ⟨b,sig,k,hb,hsig,hk,hlen,haccepts⟩ := (answer_eq_ok_iff hS).mp hanswer
  refine ⟨k,hk,log.take n,b,sig,hpast,hH.inDate _ hkept e hadmits,?_,hb,hsig,hlen,haccepts⟩
  rw [← Network.account_pubKey hS]
  exact hk

theorem spending_of_protectedCall (h : before ++ [.protectedCall a] <+: log) :
    ∃ x, H.spending before (.protectedCall a) = some x := by
  have hkept := hlog.of_prefix ((List.prefix_append _ _).trans h)
  obtain ⟨env,henv⟩ := takesEffect_protectedCall.mp (hlog _ _ h)
  obtain ⟨⟨g,hg⟩,-⟩ := returns_eq_ok.mp henv
  obtain ⟨e,he,rfl,-⟩ := hH.node _ hkept a g hg
  obtain ⟨k,hk,-⟩ := accepted_of_getElem? hH hkept hS he
  exact ⟨⟨e.credentials.address,k,e,g.path⟩,spending_eq_some.mpr ⟨g,rfl,hg,he,hk,rfl⟩⟩

theorem backed_of_spending (h : before ++ [i] <+: log) (hx : H.spending before i = some x) : H.Backed before x := by
  have hkept := hlog.of_prefix ((List.prefix_append _ _).trans h)
  obtain ⟨g,rfl,hg,he,hk,hpath⟩ := spending_eq_some.mp hx
  obtain ⟨e,he',haddress,hnamed⟩ := hH.node _ hkept x.account g hg
  obtain rfl : x.entry = e := Event.authenticate.inj (Option.some.inj (he.symm.trans he'))
  obtain ⟨k,hk',haccepted⟩ := accepted_of_getElem? hH hkept hS he
  rw [haddress] at hk'
  obtain rfl : x.key = k := Option.some.inj (hk.symm.trans hk')
  exact ⟨haccepted,haddress,hpath ▸ hnamed⟩

omit hS in
/-- Two executions never come from one node of one payload: the node names the account, the
account is asked once, and the host grants a node once. -/
theorem spending_node_ne {between : List (Event L Form Other)} (h : before ++ [i] ++ between ++ [j] <+: log)
    (hx : H.spending before i = some x) (hy : H.spending (before ++ [i] ++ between) j = some y) :
    x.node W ≠ y.node W := by
  intro hnode
  obtain ⟨hpayload,hpath⟩ := Prod.mk.inj hnode
  have hlater : before ++ [i] ++ between <+: log := (List.prefix_append _ _).trans h
  have hearlier : before ++ [i] <+: before ++ [i] ++ between := List.prefix_append _ _
  have hkept := hlog.of_prefix hlater
  have hkept' := hkept.of_prefix ((List.prefix_append _ _).trans hearlier)
  obtain ⟨g,rfl,hg,he,-,hgx⟩ := spending_eq_some.mp hx
  obtain ⟨g',rfl,hg',he',-,hgy⟩ := spending_eq_some.mp hy
  obtain ⟨e,hxe,haddress,hnamed⟩ := hH.node _ hkept' x.account g hg
  obtain ⟨e',hye,haddress',hnamed'⟩ := hH.node _ hkept y.account g' hg'
  obtain rfl : x.entry = e := Event.authenticate.inj (Option.some.inj (he.symm.trans hxe))
  obtain rfl : y.entry = e' := Event.authenticate.inj (Option.some.inj (he'.symm.trans hye))
  have htree : x.entry.rootInvocation = y.entry.rootInvocation := congrArg AuthorizationPayload.invocation hpayload
  rw [hgx,hpath,htree] at hnamed
  rw [hgy] at hnamed'
  have hcall := SorobanAuthorizedInvocation.nodes_inj hnamed hnamed'
  have haccount : x.account = y.account := by
    simp only [SorobanAuthorizedFunction.contractFn.injEq,InvokeContractArgs.mk.injEq] at hcall
    exact hcall.1
  have hentry : (before ++ [.protectedCall x.account] ++ between)[g.entry]? = some (.authenticate x.entry) := by
    have hlt := (List.getElem?_eq_some_iff.mp he).1
    rw [List.append_assoc,List.getElem?_append_left hlt]
    exact he
  have hsame : g.entry = g'.entry := authenticated_once hH hkept hentry he'
    (haddress.trans (haccount.trans haddress'.symm)) hpayload
  have hgrant : g = g' := by
    cases g; cases g'
    simp only [Grant.mk.injEq]
    exact ⟨hsame,hgx.trans (hpath.trans hgy.symm)⟩
  exact hH.once _ hkept y.account g' hg' before x.account hearlier (hgrant ▸ hg)

end

/-- What holds of the executions in a log: none is missing, each has an accepted entry behind
it, none writes, and no node of a payload is behind two of them. -/
structure Accounted (log : List (Event L Form Other)) : Prop where
  all : (H.spendings log).length = log.countP Event.isProtected
  backed : ∀ before i x, before ++ [i] <+: log → H.spending before i = some x → H.Backed before x
  wroteNothing : ∀ before a, before ++ [.protectedCall a] <+: log → ∃ env, H.returns before a = .ok (42,env) ∧
    env.storage = W.account a before ∧ W.account a (before ++ [.protectedCall a]) = W.account a before
  distinct : ((H.spendings log).map (Spending.node W)).Nodup

/-- Whatever is attempted in whatever order, every call of `protected` that returns is backed
by a node of a payload that the account's own key has accepted, and no two by the same. -/
theorem executions_accounted (L : XdrLeaves) (Form Other : Type) [DecidableEq L.ScAddress] (W : Network L)
    (hS : W.crate.SizesMatch mldsa65) (H : Host W Form Other) (hH : H.Lawful) (is : List (Event L Form Other)) :
    H.Accounted (run H.takesEffect is) := by
  have hkept := kept_run H.takesEffect is
  constructor
  · apply length_recorded
    intro before i h
    cases i with
    | protectedCall a =>
      obtain ⟨x,hx⟩ := spending_of_protectedCall hH hkept hS h
      rw [hx]
      rfl
    | close => rfl
    | init contract pubkey => rfl
    | authenticate e => rfl
    | other o => rfl
  · exact fun before i x h hx => backed_of_spending hH hkept hS h hx
  · intro before a h
    obtain ⟨env,henv⟩ := takesEffect_protectedCall.mp (hkept _ _ h)
    obtain ⟨-,he⟩ := returns_eq_ok.mp henv
    obtain ⟨-,rfl⟩ := Prod.mk.inj he
    exact ⟨_,henv,rfl,Network.account_append_singleton a before _⟩
  · apply List.pairwise_map.mpr
    apply pairwise_recorded
    intro before i between j x y h hx hy
    exact spending_node_ne hH hkept h hx hy

/-- After whatever anyone attempted, an account accepts an entry exactly if the last key of
the right length that was offered to it accepts the signature, for the entry's own hash and in
the account's context. -/
theorem answer_under_last_offered (L : XdrLeaves) (Form Other : Type) [DecidableEq L.ScAddress] (W : Network L)
    (hS : W.crate.SizesMatch mldsa65) (H : Host W Form Other) (is : List (Event L Form Other))
    (e : AddressEntry L Form) : H.answer (run H.takesEffect is) e = .ok (.ok ()) ↔ ∃ b sig k,
      H.preimage e = some b ∧ e.credentials.signature = .bytes sig ∧
      (is.filterMap (Event.offered e.credentials.address)).getLast? = some k ∧ sig.val.length = 3309 ∧
      W.crate.AcceptsEncoded k (W.sha256 b).val context sig.val := by
  rw [answer_eq_ok_iff hS,Network.account_pubKey hS,filterMap_offered_run hS]

end Host

def vectorArgs : InvokeContractArgs contractLeaves :=
  match (vectorPayload 1).invocation with
  | .node (.contractFn args) _ => args
  | _ => ⟨Arr.zero 32,⟨[],Nat.zero_le _⟩,[]⟩

def vectorAccount : Arr 32 := vectorArgs.contractAddress

def vectorNetwork : Network contractLeaves :=
  ⟨TagCrate.crate mldsa65,Sha256.digest,(vectorPayload 1).networkId,vectorArgs.functionName⟩

def vectorHost : Host vectorNetwork Empty Unit := PlainHost.host vectorNetwork 4217130 3110400

def vectorEntry (p : AuthorizationPayload contractLeaves) : AddressEntry contractLeaves Empty :=
  let hash := Sha256.digest (p.preimage.getD [])
  let sig := TagCrate.tag mldsa65 (Arr.zero 1952) (frame hash.val context)
  ⟨⟨vectorAccount,p.nonce,p.signatureExpirationLedger,
    .bytes ⟨sig.val,by simp [Arr.length_val,mldsa65,u32Max]⟩⟩,none,p.invocation⟩

def vectorInit : Event contractLeaves Empty Unit := .init vectorAccount (Arr.zero 1952).val

theorem answer_under_last_offered_vector : ∃ b sig k, vectorHost.preimage (vectorEntry (vectorPayload 1)) = some b ∧
    (vectorEntry (vectorPayload 1)).credentials.signature = .bytes sig ∧
    ([vectorInit].filterMap (Event.offered vectorAccount)).getLast? = some k ∧ sig.val.length = 3309 ∧
    (TagCrate.crate mldsa65).AcceptsEncoded k (Sha256.digest b).val context sig.val := by
  have hanswer : vectorHost.answer (run vectorHost.takesEffect [vectorInit]) (vectorEntry (vectorPayload 1)) =
      .ok (.ok ()) := by
    decide +kernel
  exact (Host.answer_under_last_offered contractLeaves Empty Unit vectorNetwork (TagCrate.sizesMatch mldsa65)
    vectorHost [vectorInit] (vectorEntry (vectorPayload 1))).mp hanswer

/-- The vector's call twice, below a call of another contract. -/
def nestedPayload : AuthorizationPayload contractLeaves where
  networkId := (vectorPayload 1).networkId
  nonce := 1
  signatureExpirationLedger := 4218130
  invocation := .node (.contractFn ⟨twinAddress,vectorArgs.functionName,[]⟩)
    [(vectorPayload 1).invocation,(vectorPayload 1).invocation]

/-- The account is called once more than the tree allows, and asked once more than the nonce. -/
def nestedRun : List (Event contractLeaves Empty Unit) :=
  [vectorInit,.authenticate (vectorEntry nestedPayload),.protectedCall vectorAccount,.protectedCall vectorAccount,
    .protectedCall vectorAccount,.authenticate (vectorEntry nestedPayload),.protectedCall vectorAccount]

theorem executions_accounted_nested : (vectorHost.spendings (run vectorHost.takesEffect nestedRun)).length = 2 ∧
    ((vectorHost.spendings (run vectorHost.takesEffect nestedRun)).map (Spending.node vectorNetwork)).Nodup := by
  have h := Host.executions_accounted contractLeaves Empty Unit vectorNetwork (TagCrate.sizesMatch mldsa65)
    vectorHost (PlainHost.lawful 4217130 3110400) nestedRun
  have htwo : (run vectorHost.takesEffect nestedRun).countP Event.isProtected = 2 := by decide +kernel
  exact ⟨h.all.trans htwo,h.distinct⟩

end SorobanMlDsa

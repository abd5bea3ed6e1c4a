import Mathlib.Data.List.Perm.Subperm
import SorobanMlDsa.Executions

/-!
# One key on several networks

The contract is deployed, and a key stored, on as many networks as its holder likes. Their
hosts know nothing of each other; what keeps a signature to the one it was made for is the
network id in the payload.
-/

namespace SorobanMlDsa

open ByteSlice PolicyLog PqAccount

/-- Networks with the same code behind the contract, told apart by their ids. -/
structure Networks (L : XdrLeaves) (N : Type) where
  crate : MlDsaCrate
  sha256 : Bytes → Arr 32
  functionName : L.ScSymbol
  networkId : N → Arr 32
  distinct : Function.Injective networkId

namespace Networks

variable {L : XdrLeaves} {N Form Other : Type} [DecidableEq N] [DecidableEq L.ScAddress]
  (W : Networks L N)

def network (n : N) : Network L := ⟨W.crate,W.sha256,W.networkId n,W.functionName⟩

/-- The calls of `protected` in the tree of a payload, at whichever account. -/
def calls [DecidableEq L.ScSymbol] (p : AuthorizationPayload L) : List (List ℕ × SorobanAuthorizedFunction L) :=
  p.invocation.nodes.filter fun n =>
    match n.2 with
    | .contractFn args => args.functionName = W.functionName ∧ args.args.isEmpty
    | _ => false

variable {W} (hosts : ∀ n, Host (W.network n) Form Other)

def takesEffect : Policy (N × Event L Form Other) := beside fun n => (hosts n).takesEffect

/-- An execution under `k`, with the network it happens on. -/
def spendingUnder (k : Bytes) (before : List (N × Event L Form Other)) (i : N × Event L Form Other) :
    Option (N × Spending L Form) :=
  (((hosts i.1).spending (part i.1 before) i.2).filter fun x => x.key = k).map fun x => (i.1,x)

def spendingsUnder (k : Bytes) (log : List (N × Event L Form Other)) : List (N × Spending L Form) :=
  recorded (spendingUnder hosts k) log

/-- What is executed under `k`, over all networks, against what its holder signed. -/
structure AsSigned [DecidableEq L.ScSymbol] (log : List (N × Event L Form Other)) (k : Bytes)
    (signed : List (AuthorizationPayload L)) : Prop where
  made : ∀ n x, (n,x) ∈ spendingsUnder hosts k log →
    ∃ p ∈ signed, p.networkId = W.networkId n ∧ x.entry.payload (W.network n) = p ∧
      (x.path,.contractFn ⟨x.account,W.functionName,[]⟩) ∈ p.invocation.nodes
  once : ((spendingsUnder hosts k log).map fun x => x.2.node (W.network x.1)).Nodup
  atMost : ∀ q : AuthorizationPayload L → Bool,
    (spendingsUnder hosts k log).countP (fun x => q (x.2.entry.payload (W.network x.1))) ≤
      ((signed.filter q).map fun p => (W.calls p).length).sum

section

variable {hosts} {k : Bytes} {log before : List (N × Event L Form Other)} {n : N} {x : Spending L Form}
  {i : N × Event L Form Other}

theorem spendingUnder_eq_some (h : spendingUnder hosts k before i = some (n,x)) :
    i.1 = n ∧ (hosts n).spending (part n before) i.2 = some x := by
  obtain ⟨x',hx,he⟩ := Option.map_eq_some_iff.mp h
  obtain ⟨rfl,rfl⟩ := Prod.mk.inj he
  exact ⟨rfl,(Option.filter_eq_some_iff.mp hx).1⟩

variable (hH : ∀ n, (hosts n).Lawful) (hlog : Kept (takesEffect hosts) log)

include hH hlog

/-- On one network the host sees to it; on two, the payloads differ in the id. -/
theorem nodes_nodup (k : Bytes) : ((spendingsUnder hosts k log).map fun x => x.2.node (W.network x.1)).Nodup := by
  apply List.pairwise_map.mpr
  apply pairwise_recorded
  rintro before i between j ⟨n,x⟩ ⟨m,y⟩ h hx hy
  obtain ⟨rfl,hx⟩ := spendingUnder_eq_some hx
  obtain ⟨rfl,hy⟩ := spendingUnder_eq_some hy
  by_cases hnm : i.1 = j.1
  · have hpart := part_snoc h
    rw [part_append,part_append,← hnm,part_self] at hpart
    rw [part_append,part_append,← hnm,part_self] at hy
    rw [← hnm]
    exact Host.spending_node_ne (hH i.1) (hlog.part i.1) hpart hx hy
  · intro he
    have hid : W.networkId i.1 = W.networkId j.1 :=
      congrArg AuthorizationPayload.networkId (Prod.mk.inj he).1
    exact hnm (W.distinct hid)

variable (hS : W.crate.SizesMatch mldsa65)

include hS

theorem spendingsUnder_backed (h : (n,x) ∈ spendingsUnder hosts k log) :
    ∃ past, (hosts n).Backed past x := by
  obtain ⟨before,i,hp,hi⟩ := mem_recorded.mp h
  obtain ⟨rfl,hx⟩ := spendingUnder_eq_some hi
  exact ⟨_,Host.backed_of_spending (hH i.1) (hlog.part i.1) hS (part_snoc hp) hx⟩

end

/-- Whatever is executed under `k` was accepted for a hash that its holder signed. -/
def Unforged (log : List (N × Event L Form Other)) (k : Bytes) (signed : List (AuthorizationPayload L)) : Prop :=
  ∀ n x, (n,x) ∈ spendingsUnder hosts k log → ∃ p ∈ signed, ∃ b, (hosts n).preimage x.entry = some b ∧
    p.signaturePayload W.sha256 = .ok (W.sha256 b)

/-- None of these hashes is of two preimages. -/
def CollisionFree (log : List (N × Event L Form Other)) (k : Bytes) (signed : List (AuthorizationPayload L)) : Prop :=
  ∀ n x, (n,x) ∈ spendingsUnder hosts k log → ∀ p ∈ signed, ∀ b b', (hosts n).preimage x.entry = some b →
    p.preimage = some b' → W.sha256 b = W.sha256 b' → b = b'

/-- In whatever order things happen on whatever networks, a call that is in the tree of a
signed payload is executed once at most, at the account and on the network it is for. -/
theorem executed_as_signed (L : XdrLeaves) (N Form Other : Type) [DecidableEq N] [DecidableEq L.ScAddress]
    [DecidableEq L.ScSymbol] (hL : L.Unambiguous) (W : Networks L N) (hS : W.crate.SizesMatch mldsa65)
    (hosts : ∀ n, Host (W.network n) Form Other) (hH : ∀ n, (hosts n).Lawful)
    (is : List (N × Event L Form Other)) (k : Bytes) (signed : List (AuthorizationPayload L))
    (hsigned : Unforged hosts (run (takesEffect hosts) is) k signed)
    (hsha : CollisionFree hosts (run (takesEffect hosts) is) k signed) :
    AsSigned hosts (run (takesEffect hosts) is) k signed := by
  have hkept := kept_run (takesEffect hosts) is
  have hmade (n : N) (x : Spending L Form) (hx : (n,x) ∈ spendingsUnder hosts k (run (takesEffect hosts) is)) :
      x.entry.payload (W.network n) ∈ signed ∧
        (x.path,.contractFn ⟨x.account,W.functionName,[]⟩) ∈ x.entry.rootInvocation.nodes := by
    obtain ⟨past,hbacked⟩ := spendingsUnder_backed hH hkept hS hx
    obtain ⟨p,hp,b,hb,hhash⟩ := hsigned n x hx
    obtain ⟨b',hb',hsame⟩ := AuthorizationPayload.signaturePayload_eq_ok.mp hhash
    obtain rfl : b = b' := hsha n x hx p hp b b' hb hb' hsame.symm
    rw [Host.payload_of_preimage hL (hH n) hb hb']
    exact ⟨hp,hbacked.named⟩
  have hnodup := nodes_nodup hH hkept k
  refine ⟨fun n x hx => ⟨_,(hmade n x hx).1,rfl,rfl,(hmade n x hx).2⟩,hnodup,?_⟩
  intro q
  let executed := (spendingsUnder hosts k (run (takesEffect hosts) is)).filter
    fun x => q (x.2.entry.payload (W.network x.1))
  let allowed := (signed.filter q).flatMap fun p => (W.calls p).map fun n => (p,n.1)
  have hsub : (executed.map fun x => x.2.node (W.network x.1)) ⊆ allowed := by
    intro t ht
    obtain ⟨⟨n,x⟩,hx,rfl⟩ := List.mem_map.mp ht
    obtain ⟨hx,hq⟩ := List.mem_filter.mp hx
    obtain ⟨hp,hnamed⟩ := hmade n x hx
    exact List.mem_flatMap.mpr ⟨_,List.mem_filter.mpr ⟨hp,hq⟩,List.mem_map.mpr
      ⟨(x.path,.contractFn ⟨x.account,W.functionName,[]⟩),List.mem_filter.mpr ⟨hnamed,by simp⟩,rfl⟩⟩
  have hdistinct : (executed.map fun x => x.2.node (W.network x.1)).Nodup :=
    hnodup.sublist (List.filter_sublist.map _)
  have hlen := (hdistinct.subperm hsub).length_le
  rw [List.length_map,← List.countP_eq_length_filter,List.length_flatMap] at hlen
  simpa only [List.length_map] using hlen

inductive PublicNetwork
  | testnet
  | mainnet
  deriving DecidableEq

def PublicNetwork.passphrase : PublicNetwork → String
  | .testnet => testnetPassphrase
  | .mainnet => mainnetPassphrase

def publicNetworks : Networks contractLeaves PublicNetwork where
  crate := TagCrate.crate mldsa65
  sha256 := Sha256.digest
  functionName := vectorArgs.functionName
  networkId n := SorobanMlDsa.networkId Sha256.digest n.passphrase
  distinct := by
    have hne : SorobanMlDsa.networkId Sha256.digest testnetPassphrase ≠
        SorobanMlDsa.networkId Sha256.digest mainnetPassphrase := by decide +kernel
    intro n n' h
    cases n <;> cases n'
    · rfl
    · exact absurd h hne
    · exact absurd h.symm hne
    · rfl

def publicHosts (n : PublicNetwork) : Host (publicNetworks.network n) Empty Unit :=
  PlainHost.host (publicNetworks.network n) 4217130 3110400

/-- An entry signed for testnet is brought to both networks, and to testnet once more. -/
def publicRun : List (PublicNetwork × Event contractLeaves Empty Unit) :=
  [(.testnet,vectorInit),(.mainnet,vectorInit)] ++
    ([PublicNetwork.testnet,.mainnet,.testnet].flatMap fun n =>
      [(n,.authenticate (vectorEntry nestedPayload)),(n,.protectedCall vectorAccount),
        (n,.protectedCall vectorAccount)])

theorem executed_as_signed_nested :
    AsSigned publicHosts (run (takesEffect publicHosts) publicRun) (Arr.zero 1952).val [nestedPayload] := by
  have hall : ∀ x ∈ spendingsUnder publicHosts (Arr.zero 1952).val (run (takesEffect publicHosts) publicRun),
      (publicHosts x.1).preimage x.2.entry = nestedPayload.preimage := by
    decide +kernel
  have hsome : nestedPayload.preimage.isSome := by decide +kernel
  obtain ⟨b,hb⟩ := Option.isSome_iff_exists.mp hsome
  apply executed_as_signed contractLeaves PublicNetwork Empty Unit contractLeaves_unambiguous publicNetworks
    (TagCrate.sizesMatch mldsa65) publicHosts fun n => PlainHost.lawful 4217130 3110400
  · intro n x hx
    exact ⟨_,List.mem_singleton_self _,b,(hall _ hx).trans hb,
      AuthorizationPayload.signaturePayload_eq_ok.mpr ⟨b,hb,rfl⟩⟩
  · intro n x hx p hp c c' hc hc' _
    rw [List.mem_singleton.mp hp,hb] at hc'
    exact Option.some.inj (hc.symm.trans ((hall _ hx).trans (hb.trans hc')))

end Networks
end SorobanMlDsa

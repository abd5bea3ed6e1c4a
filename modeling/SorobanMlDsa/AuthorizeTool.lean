import SorobanMlDsa.Authorize
import SorobanMlDsa.Rpc
import SorobanMlDsa.Wire

/-!
# `authorize` as a whole

From the command line to the exit, in both modes: one question for the account, one
simulation, and only then a signature, a submission and the wait for it.
-/

namespace SorobanMlDsa.Cli

open ByteSlice MachineInt SerdeJson Dialogue

/-- `stellar_strkey::Strkey`, as far as the tools tell its arms apart. -/
inductive Strkey
  | publicKeyEd25519 (k : Arr 32)
  | privateKeyEd25519 (k : Arr 32)
  | contract (c : Arr 32)
  | other

/-- The build and the crates behind the tools. -/
structure Platform (L : XdrLeaves) (F : LedgerKeys) where
  build : Build
  crate : MlDsaCrate
  sha256 : Bytes → Arr 32
  ed25519 : Ed25519
  strkey : String → Option Strkey
  contract : Arr 32 → L.ScAddress
  symbol : String → Option L.ScSymbol
  dataFromXdrBase64 : String → Except String (SorobanTransactionData F)

variable {L : XdrLeaves} {F : LedgerKeys} (P : Platform L F)

namespace Platform

@[reducible] def xdr : StellarXdr := wireXdr L F P.dataFromXdrBase64

/-- Read a key of one kind from its text form. -/
def decodeStrkey (bad wrong : String) (pick : Strkey → Option (Arr 32)) (s : String) : Command (Arr 32) := do
  let k ← expect (P.strkey s) bad
  expect (pick k) wrong

def accountPk : String → Command (Arr 32) :=
  P.decodeStrkey "bad G-strkey" "expected a G... account" fun
    | .publicKeyEd25519 k => some k
    | _ => none

def contractAddr (s : String) : Command L.ScAddress := do
  let c ← P.decodeStrkey "bad C-strkey" "expected a C... contract" (fun
    | .contract c => some c
    | _ => none) s
  return P.contract c

def secretSeed : String → Command (Arr 32) :=
  P.decodeStrkey "bad S-strkey" "expected an S... secret" fun
    | .privateKeyEd25519 k => some k
    | _ => none

def invokeOp (contract function : String) (args : List (ScVal L.OtherVal))
    (auth : List (SorobanAuthorizationEntry L)) : Command (Operation L) := do
  let address ← P.contractAddr contract
  let name ← unwrap (P.symbol function)
  return ⟨⟨address,name,args⟩,auth⟩

end Platform

namespace AuthorizeTool

def arg (args : List String) (i : ℕ) : Command String :=
  match args[i]? with
  | none => .error (.panic (.sliceRange i args.length))
  | some a => .ok a

def setting (address : L.ScAddress) (name : L.ScSymbol) : Authorize.Setting L :=
  ⟨P.build,P.crate,P.sha256,address,name⟩

def keypair : Command (Keypair P.crate) := Authorize.keypairOf P.crate Authorize.seed

def verifyingKeyVal (kp : Keypair P.crate) : Command (ScVal L.OtherVal) :=
  match encodeVerifyingKey (scheme mldsa65 P.crate) kp.verifyingKey with
  | .error p => .error (.panic p)
  | .ok (.error _) => .error .unwrap
  | .ok (.ok v) => .ok v

/-- What a command line comes to before anything is asked. -/
structure Start where
  account : String
  mode : String
  seed : Arr 32
  source : Arr 32
  keypair : Keypair P.crate

def start (args : List String) (secret : Option String) : Command (Start P) := do
  let sourceStr ← arg args 1
  let account ← arg args 2
  let mode := args[3]?.getD "auth"
  let seed ← P.secretSeed (← expect secret "PQ_SECRET")
  let source ← P.accountPk sourceStr
  let kp ← keypair P
  return ⟨account,mode,seed,source,kp⟩

variable {P} (s : Start P)

def initTx (seq : Int64) : Command (SorobanTransaction L F) := do
  let vk ← verifyingKeyVal P s.keypair
  let seq ← arithmetic (add P.build seq 1)
  let op ← P.invokeOp s.account "init" [vk] []
  return buildTx P.xdr s.source seq op

/-- The transaction that calls `protected`, authorized through the adapter. -/
def authTx (seq : Int64) (latest : UInt32) : Command (SorobanTransaction L F) := do
  let address ← P.contractAddr s.account
  let name ← unwrap (P.symbol "protected")
  let a ← Authorize.authorization (setting P address name) s.keypair latest
  let seq ← arithmetic (add P.build seq 1)
  let op ← P.invokeOp s.account "protected" [] [a.entry]
  return buildTx P.xdr s.source seq op

def buildFor (seq : Int64) (latest : UInt32) : Command (SorobanTransaction L F) :=
  if s.mode = "init" then initTx s seq else authTx s seq latest

/-- Only a call that has to be authorized is simulated with authorization enforced. -/
def authMode : Option String := if s.mode = "init" then none else some "enforce"

/-- `expect` on the outcome of a simulation; the panic shows the error as well. -/
def simulated {X : StellarXdr} : Except String (SimResult X) → Command (SimResult X)
  | .error _ => .error (.expect (if s.mode = "init" then "init simulation failed" else "auth simulation failed"))
  | .ok sim => .ok sim

def status (v : Value) : String := (((v.field "result").field "status").asStr).getD "?"

variable (P) in
def network : Arr 32 := networkId P.sha256 testnetPassphrase

def run : Tool Value := do
  let (seq,latest) ← Rpc.accountState s.source
  let tx ← lift (buildFor s seq latest)
  let reply ← Rpc.simulate P.xdr tx (authMode s)
  let sim ← lift (simulated s reply)
  let r ← Rpc.submit P.build P.ed25519 P.sha256 tx sim s.seed (network P)
  lift (if status r = "SUCCESS" then .ok r else .error (.expect "transaction did not succeed"))

variable (P) in
def main (args : List String) (secret : Option String) : Tool Value := do
  let s ← lift (start P args secret)
  run s

/-- The node has named the source's sequence number and its latest ledger. -/
def Told (past : Said Request Reply) (seq : Int64) (latest : UInt32) : Prop :=
  ∃ v, past = [(.getLedgerEntries (accountKey s.source) (some "json"),.json v)] ∧
    accountState v = .ok (seq,latest)

/-- The node has been shown `tx`, unsigned, and what it answered reads as `sim`. -/
def Shown (past : Said Request Reply) (tx : SorobanTransaction L F) (sim : SimResult P.xdr) : Prop :=
  ∃ before seq latest t v, Told s before seq latest ∧ buildFor s seq latest = .ok tx ∧
    P.xdr.envelopeToXdrBase64 ⟨tx,[]⟩ = some t ∧
    past = before ++ [(.simulateTransaction t (authMode s),.json v)] ∧ simulate P.xdr v = .ok sim

/-- What `submit` sends for `tx`, and the hash under its signature. -/
def Seals (tx : SorobanTransaction L F) (sim : SimResult P.xdr) (t : String) (hash : Arr 32) : Prop :=
  Rpc.Seals P.build P.ed25519 P.sha256 s.seed (network P) (X := P.xdr) tx sim t hash

/-- The transaction shown has been sent, sealed, and was not turned down. -/
def Sent (past : Said Request Reply) (hash : Arr 32) : Prop :=
  ∃ before tx sim t v, Shown s before tx sim ∧ Seals s tx sim t hash ∧ Rpc.Taken v ∧
    past = before ++ [(.sendTransaction t,.json v)]

/-- When a request is due, and what it then is. -/
def Due (past : Said Request Reply) : Request → Prop
  | .getLedgerEntries key format => past = [] ∧ key = accountKey s.source ∧ format = some "json"
  | .simulateTransaction t mode => ∃ seq latest tx, Told s past seq latest ∧
      buildFor s seq latest = .ok tx ∧ P.xdr.envelopeToXdrBase64 ⟨tx,[]⟩ = some t ∧ mode = authMode s
  | .sendTransaction t => ∃ tx sim hash, Shown s past tx sim ∧ Seals s tx sim t hash
  | .getTransaction h => ∃ sent polls hash, Sent s sent hash ∧ h = hex hash.val ∧ Rpc.Waiting h polls ∧
      polls.length < 40 ∧ past = sent ++ polls

/-- A run that returns has seen the transaction it sent reported as a success. -/
def Included (said : Said Request Reply) (r : Value) : Prop :=
  ∃ sent polls hash g, Sent s sent hash ∧ Rpc.Waiting (hex hash.val) polls ∧ polls.length < 40 ∧
    said = sent ++ polls ++ [(.getTransaction (hex hash.val),.json g)] ∧
    Rpc.Found (hex hash.val) g r ∧ status r = "SUCCESS"

/-- The requests of a run that gets as far as it can. -/
def schedule : List String :=
  ["getLedgerEntries","simulateTransaction","sendTransaction"] ++ List.replicate 40 "getTransaction"

theorem Shown.length {past : Said Request Reply} {tx : SorobanTransaction L F} {sim : SimResult P.xdr}
    (h : Shown s past tx sim) : past.length = 2 := by
  obtain ⟨before,seq,latest,t,v,⟨w,rfl,-⟩,-,-,rfl,-⟩ := h
  rfl

theorem Sent.length {past : Said Request Reply} {hash : Arr 32} (h : Sent s past hash) : past.length = 3 := by
  obtain ⟨before,tx,sim,t,v,hshown,-,-,rfl⟩ := h
  rw [List.length_append,hshown.length]
  rfl

/-- The number of requests made so far decides which one may follow. -/
theorem Due.scheduled {past : Said Request Reply} {q : Request} (h : Due s past q) :
    schedule[past.length]? = some q.method := by
  cases q with
  | getLedgerEntries key format =>
    obtain ⟨rfl,-⟩ := h
    rfl
  | simulateTransaction t mode =>
    obtain ⟨seq,latest,tx,⟨v,rfl,-⟩,-⟩ := h
    rfl
  | sendTransaction t =>
    obtain ⟨tx,sim,hash,hshown,-⟩ := h
    rw [hshown.length]
    rfl
  | getTransaction hash =>
    obtain ⟨sent,polls,hash,hsent,-,-,hlt,rfl⟩ := h
    have hfront : ["getLedgerEntries","simulateTransaction","sendTransaction"].length = 3 := rfl
    rw [List.length_append,hsent.length,schedule,List.getElem?_append_right (by rw [hfront]; omega),hfront,
      Nat.add_sub_cancel_left,List.getElem?_replicate,if_pos hlt]
    rfl

theorem simulate_meets {past : Said Request Reply} {seq : Int64} {latest : UInt32}
    {tx : SorobanTransaction L F} (htold : Told s past seq latest) (htx : buildFor s seq latest = .ok tx) :
    Meets (Due s) (Returning fun said reply => ∀ sim, reply = .ok sim → Shown s said tx sim) past
      (Rpc.simulate P.xdr tx (authMode s)) := by
  apply Meets.imp (Rpc.simulate_meets ?hallowed)
  case hallowed => exact fun t henv => ⟨seq,latest,tx,htold,htx,henv,rfl⟩
  rintro said reply ⟨t,v,henv,rfl,hreply⟩ sim hsim
  exact ⟨past,seq,latest,t,v,htold,htx,henv,rfl,hreply.symm.trans hsim⟩

theorem submit_meets {past : Said Request Reply} {tx : SorobanTransaction L F} {sim : SimResult P.xdr}
    (h : Shown s past tx sim) :
    Meets (Due s) (Returning fun said r => ∃ sent polls hash g, Sent s sent hash ∧
      Rpc.Waiting (hex hash.val) polls ∧ polls.length < 40 ∧
      said = sent ++ polls ++ [(.getTransaction (hex hash.val),.json g)] ∧ Rpc.Found (hex hash.val) g r) past
      (Rpc.submit (X := P.xdr) P.build P.ed25519 P.sha256 tx sim s.seed (network P)) := by
  apply Meets.imp (Rpc.submit_meets ?hsend ?hpoll)
  case hsend => exact fun t hash hseals => ⟨tx,sim,hash,h,hseals⟩
  case hpoll =>
    intro t hash v polls hseals htaken hwait hlt
    exact ⟨_,polls,hash,⟨past,tx,sim,t,v,h,hseals,htaken,rfl⟩,rfl,hwait,hlt,rfl⟩
  rintro said r ⟨t,hash,v,polls,g,hseals,htaken,hwait,hlt,hsaid,hfound⟩
  exact ⟨_,polls,hash,g,⟨past,tx,sim,t,v,h,hseals,htaken,rfl⟩,hwait,hlt,hsaid,hfound⟩

theorem accountState_meets : Meets (Due s) (Returning fun said st => Told s said st.1 st.2) []
    (Rpc.accountState s.source) := by
  apply Meets.imp (Rpc.accountState_meets ⟨rfl,rfl,rfl⟩)
  rintro said ⟨seq,latest⟩ ⟨v,hst,hsaid⟩
  exact ⟨v,hsaid,hst⟩

theorem run_meets : Meets (Due s) (Returning (Included s)) [] (run s) := by
  apply Meets.bind (accountState_meets s)
  rintro said ⟨seq,latest⟩ htold
  apply meets_ofExcept_bind
  intro tx htx
  apply Meets.bind (simulate_meets s htold htx)
  intro said reply hreply
  apply meets_ofExcept_bind
  intro sim hsim
  have hshown : Shown s said tx sim := by
    cases reply with
    | error e => cases hsim
    | ok sim' => exact hreply sim (congrArg Except.ok (Except.ok.inj hsim))
  apply Meets.bind (submit_meets s hshown)
  rintro said r ⟨sent,polls,hash,g,hsent,hwait,hlt,hsaid,hfound⟩
  apply meets_ofExcept.mpr
  intro r' hr
  split at hr
  · rename_i hstatus
    obtain rfl := Except.ok.inj hr
    exact ⟨sent,polls,hash,g,hsent,hwait,hlt,hsaid,hfound,hstatus⟩
  · cases hr

/-- Whatever is sent seals the transaction that was shown right before. -/
theorem sent_shown {args : List String} {secret : Option String} {node : Party Request Reply} {t : String} {r : Reply}
    (hsent : (.sendTransaction t,r) ∈ (converse node [] (main P args secret)).1) :
    ∃ s before after tx sim hash, start P args secret = .ok s ∧
      (converse node [] (main P args secret)).1 = before ++ (.sendTransaction t,r)::after ∧
      Shown s before tx sim ∧ Seals s tx sim t hash := by
  cases hs : start P args secret with
  | error e => simp [main,hs,converse] at hsent
  | ok s =>
    have hmain : main P args secret = run s := by simp [main,hs]
    rw [hmain] at hsent ⊢
    obtain ⟨before,after,hsplit⟩ := List.append_of_mem hsent
    obtain ⟨tx,sim,hash,hshown,hseals⟩ := ((run_meets s).converse orderly_nil node).1 before _ r after hsplit
    exact ⟨s,before,after,tx,sim,hash,rfl,hsplit,hshown,hseals⟩

/-- Every record of a success is one the tool goes through. -/
theorem run_follows {said : Said Request Reply} {r : Value} (h : Included s said r) :
    Follows (run s) said (.ok r) := by
  obtain ⟨sent,polls,hash,g,hsent,hwait,hlt,rfl,hfound,hstatus⟩ := h
  obtain ⟨shown,tx,sim,t,v,hshown,hseals,htaken,rfl⟩ := hsent
  obtain ⟨told,seq,latest,t',v',htold,htx,henv,rfl,hsim⟩ := hshown
  obtain ⟨w,rfl,hstate⟩ := htold
  simp only [List.append_assoc,List.singleton_append]
  apply (Rpc.accountState_follows hstate).bind
  apply Follows.ofExcept_bind htx
  apply (Rpc.simulate_follows henv v').bind
  have hsimulated : simulated s (simulate P.xdr v') = .ok sim := by
    rw [hsim]
    rfl
  apply Follows.ofExcept_bind hsimulated
  apply (Rpc.submit_follows hseals htaken hwait hlt hfound).bind_silent
  rw [if_pos hstatus]
  exact .done r

/-- How a run of `authorize` looks from the outside. -/
structure Protocol (said : Said Request Reply) (result : Command Value) : Prop where
  order : said.map (fun e => e.1.method) <+: schedule
  due : Orderly (Due s) said
  returns : ∀ r, result = .ok r → Included s said r

variable (P) in
/-- Whatever the node answers, a run asks in a fixed order, each request follows from
the replies before it, and a value is returned for an included transaction only. -/
theorem authorize_protocol (args : List String) (secret : Option String) (node : Party Request Reply) :
    (∀ e, start P args secret = .error e → converse node [] (main P args secret) = ([],.error e)) ∧
    ∀ s, start P args secret = .ok s →
      Protocol s (converse node [] (main P args secret)).1 (converse node [] (main P args secret)).2 := by
  constructor
  · intro e he
    simp [main,he,converse]
  · intro s hs
    have hmain : main P args secret = run s := by simp [main,hs]
    obtain ⟨hdue,hreturns⟩ := (run_meets s).converse orderly_nil node
    rw [hmain]
    exact ⟨hdue.map_eq fun past q => Due.scheduled s,hdue,hreturns⟩

variable (P) in
/-- A run returns a value exactly when the node's answers make up a record of its
inclusion: no other condition is put on the node, and no other run returns. -/
theorem authorize_returns_iff (args : List String) (secret : Option String) (node : Party Request Reply)
    (said : Said Request Reply) (r : Value) : converse node [] (main P args secret) = (said,.ok r) ↔
      ∃ s, start P args secret = .ok s ∧ Answered node [] said ∧ Included s said r := by
  constructor
  · intro hrun
    cases hs : start P args secret with
    | error e => simp [main,hs,converse] at hrun
    | ok s =>
      have hmain : main P args secret = run s := by simp [main,hs]
      rw [hmain] at hrun
      obtain ⟨said',hsaid,hanswered,-⟩ := converse_follows node [] (run s)
      obtain ⟨-,hreturns⟩ := (run_meets s).converse orderly_nil node
      rw [hrun] at hsaid hreturns
      obtain rfl : said = said' := hsaid
      exact ⟨s,rfl,hanswered,hreturns r rfl⟩
  · rintro ⟨s,hs,hanswered,hincluded⟩
    have hmain : main P args secret = run s := by simp [main,hs]
    rw [hmain]
    exact (run_follows s hincluded).converse hanswered

/-- A platform with one key of each kind, and transaction data without a footprint. -/
def samplePlatform : Platform contractLeaves codeKeys where
  build := .release
  crate := TagCrate.crate mldsa65
  sha256 := Sha256.digest
  ed25519 := ⟨fun _ _ => Arr.zero 64,id⟩
  strkey s :=
    if s = "G" then some (.publicKeyEd25519 (Arr.zero 32))
    else if s = "S" then some (.privateKeyEd25519 (Arr.zero 32))
    else if s = "C" then some (.contract (Arr.zero 32))
    else none
  contract := id
  symbol s := if h : s.toByteArray.data.toList.length ≤ 32 then some ⟨_,h⟩ else none
  dataFromXdrBase64 _ := .ok ⟨none,⟨[],[],0,0,0⟩,0⟩

def sampleNode : Party Request Reply := fun _ q =>
  match q with
  | .getLedgerEntries _ _ => .json (Authorize.stateReply 7 4217130)
  | .simulateTransaction _ _ => .json (.object [("result",.object [("transactionData",.string "")])])
  | .sendTransaction _ => .json (.object [])
  | .getTransaction _ => .json (.object [("result",.object [("status",.string "SUCCESS")])])

def sampleSaid (args : List String) : Said Request Reply :=
  (converse sampleNode [] (main samplePlatform args (some "S"))).1

theorem sampleSaid_sent (args : List String)
    (h : ((sampleSaid args)[2]?.map fun e => e.1.method) = some "sendTransaction") :
    ∃ t r, (.sendTransaction t,r) ∈ sampleSaid args := by
  obtain ⟨⟨q,r⟩,he,hmethod⟩ := Option.map_eq_some_iff.mp h
  have hmem := List.mem_of_getElem? he
  cases q with
  | sendTransaction t => exact ⟨t,r,hmem⟩
  | getLedgerEntries key format => exact absurd hmethod (by simp [Request.method])
  | simulateTransaction t mode => exact absurd hmethod (by simp [Request.method])
  | getTransaction hash => exact absurd hmethod (by simp [Request.method])

end AuthorizeTool
end SorobanMlDsa.Cli

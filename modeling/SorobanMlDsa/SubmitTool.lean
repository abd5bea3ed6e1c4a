import SorobanMlDsa.Handmade

/-!
# `submit` of phase 0

The first tool that sent an authorized call: the fee has to be in the reply, the wait is
thirty rounds, and any status but a missing one ends it. What it asks and what it returns are
given exactly, stage by stage.
-/

namespace SorobanMlDsa.Phase0.SubmitTool

open ByteSlice MachineInt SerdeJson Dialogue Cli

variable {L : XdrLeaves} {F : LedgerKeys} (P : ToolPlatform L F)

def decodeStrkey (wrong : String) (pick : Strkey → Option (Arr 32)) (s : String) : Command (Arr 32) := do
  let k ← unwrap (P.strkey s)
  expect (pick k) wrong

/-- What a command line comes to before anything is asked. -/
structure Start (L : XdrLeaves) where
  source : Arr 32
  skSeed : Arr 32
  caddr : L.ScAddress

def start (args : List String) (secret : Option String) : Command (Start L) := do
  let srcStr ← expect args[1]? "source G..."
  let accountId ← expect args[2]? "account C..."
  let secret ← expect secret "set PQ_SECRET to the source S... seed"
  let source ← decodeStrkey P "bad source" (fun | .publicKeyEd25519 k => some k | _ => none) srcStr
  let skSeed ← decodeStrkey P "bad secret" (fun | .privateKeyEd25519 k => some k | _ => none) secret
  let c ← decodeStrkey P "bad contract" (fun | .contract c => some c | _ => none) accountId
  return ⟨source,skSeed,P.contract c⟩

def accountState (v : Value) : Command (Int64 × UInt32) := do
  let sn := ((((((v.field "result").field "entries").item 0).field "dataJson").field "account").field "seq_num")
  let seq ← expect (sn.asI64.or (sn.asStr.bind (parse Int64))) "seq"
  let seq ← arithmetic (add P.build seq 1)
  let latest ← unwrap ((v.field "result").field "latestLedger").asU64
  return (seq,cast UInt32 latest)

def entryNonce (b : Build) (latest : UInt32) : Checked Int64 := do
  let scaled ← mul b (cast Int64 latest) 1000003
  add b scaled 17

/-- The call of `protected` with its entry, at a fee that is replaced later. -/
def callTx (s : Start L) (seq : Int64) (latest : UInt32) : Command (SorobanTransaction L F) := do
  let nonce ← arithmetic (entryNonce P.build latest)
  let expiry ← arithmetic (add P.build latest 1000)
  let name ← unwrap (P.symbol "protected")
  let entry ← handmadeEntry P s.caddr name nonce expiry
  return buildTx P.xdr s.source seq ⟨⟨s.caddr,name,[]⟩,[entry]⟩

def simulated (v : Value) : Command (SimResult P.xdr) :=
  match ((v.field "result").get "error").bind Value.asStr with
  | some e => .error (.expect ("simulation failed: " ++ e))
  | none => do
    let text ← unwrap ((v.field "result").field "transactionData").asStr
    let td ← unwrap (P.dataFromXdrBase64 text).toOption
    let fee ← unwrap ((v.field "result").field "minResourceFee").asStr
    let minFee ← unwrap (parse Int64 fee)
    return ⟨td.resources.instructions,td.resources.diskReadBytes,td.resources.writeBytes,minFee,td⟩

/-- The transaction as it is sent, and the hash under its signature. -/
def sealedTx (s : Start L) (tx : SorobanTransaction L F) (sim : SimResult P.xdr) : Command (String × Arr 32) := do
  let final ← arithmetic (Rpc.withResources (X := P.xdr) P.build tx sim)
  let payload ← unwrap (P.xdr.payloadToXdr (network P) final)
  let hash := P.sha256 payload
  let text ← unwrap (P.xdr.envelopeToXdrBase64 ⟨final,[Rpc.decorate P.ed25519 s.skSeed hash]⟩)
  return (text,hash)

/-- How the wait ends. Of the fee charged and refunded there is word only where the node
sends a result along. -/
inductive Ending
  | final (status : String) (ledger : Value) (charged : Option (Int64 × Int64))
  | timedOut

def ending (declared : Int64) (g : Value) : Command Ending :=
  let ledger := (g.field "result").field "ledger"
  match ((g.field "result").field "resultXdr").asStr with
  | none => .ok (.final (AuthorizeTool.status g) ledger none)
  | some rx => do
    let charged ← unwrap (P.feeChargedFromXdrBase64 rx)
    let refunded ← arithmetic (sub P.build declared charged)
    return .final (AuthorizeTool.status g) ledger (some (charged,refunded))

def poll (declared : Int64) (hash : String) : ℕ → Tool Ending
  | 0 => return .timedOut
  | left+1 => do
    let g ← rpc (.getTransaction hash)
    if AuthorizeTool.status g = "NOT_FOUND" then poll declared hash left
    else lift (ending P declared g)

structure Report where
  sim : SimResult P.xdr
  declared : Int64
  hash : Arr 32
  ending : Ending

def askState (s : Start L) : Tool (Int64 × UInt32) := do
  let v ← rpc (.getLedgerEntries (accountKey s.source) (some "json"))
  lift (accountState P v)

def askSimulation (s : Start L) : Tool (SorobanTransaction L F × SimResult P.xdr) := do
  let st ← askState P s
  let tx ← lift (callTx P s st.1 st.2)
  let text ← lift (unwrap (P.xdr.envelopeToXdrBase64 ⟨tx,[]⟩))
  let v ← rpc (.simulateTransaction text (some "enforce"))
  let sim ← lift (simulated P v)
  return (tx,sim)

def askToSend (s : Start L) : Tool (SimResult P.xdr × Arr 32) := do
  let shown ← askSimulation P s
  let out ← lift (sealedTx P s shown.1 shown.2)
  let send ← rpc (.sendTransaction out.1)
  lift (match ((send.field "result").get "errorResultXdr").bind Value.asStr with
    | some e => .error (.expect ("rejected: " ++ e))
    | none => .ok (shown.2,out.2))

def run (s : Start L) : Tool (Report P) := do
  let sent ← askToSend P s
  let declared ← lift (arithmetic (add P.build sent.1.minFee 1000))
  let e ← poll P declared (hex sent.2.val) 30
  return ⟨sent.1,declared,sent.2,e⟩

def main (args : List String) (secret : Option String) : Tool (Report P) := do
  let s ← lift (start P args secret)
  run P s

section Record

variable (s : Start L)

/-- The node has named the sequence number and its latest ledger. -/
def Told (past : Said Request Reply) (seq : Int64) (latest : UInt32) : Prop :=
  ∃ v, past = [(.getLedgerEntries (accountKey s.source) (some "json"),.json v)] ∧
    accountState P v = .ok (seq,latest)

/-- It has been shown `tx`, unsigned, and its answer reads as `sim`. -/
def Shown (past : Said Request Reply) (tx : SorobanTransaction L F) (sim : SimResult P.xdr) : Prop :=
  ∃ before seq latest text v, Told P s before seq latest ∧ callTx P s seq latest = .ok tx ∧
    P.xdr.envelopeToXdrBase64 ⟨tx,[]⟩ = some text ∧
    past = before ++ [(.simulateTransaction text (some "enforce"),.json v)] ∧ simulated P v = .ok sim

/-- The transaction shown has been sent, sealed, and was not turned down. -/
def Sent (past : Said Request Reply) (sim : SimResult P.xdr) (hash : Arr 32) : Prop :=
  ∃ before tx text v, Shown P s before tx sim ∧ sealedTx P s tx sim = .ok (text,hash) ∧ Rpc.Taken v ∧
    past = before ++ [(.sendTransaction text,.json v)]

/-- When a request is due, and what it then is. -/
def Due (past : Said Request Reply) : Request → Prop
  | .getLedgerEntries key format => past = [] ∧ key = accountKey s.source ∧ format = some "json"
  | .simulateTransaction text mode => mode = some "enforce" ∧ ∃ seq latest tx, Told P s past seq latest ∧
      callTx P s seq latest = .ok tx ∧ P.xdr.envelopeToXdrBase64 ⟨tx,[]⟩ = some text
  | .sendTransaction text => ∃ tx sim hash, Shown P s past tx sim ∧ sealedTx P s tx sim = .ok (text,hash)
  | .getTransaction h => ∃ sent polls sim hash declared, Sent P s sent sim hash ∧
      add P.build sim.minFee 1000 = .ok declared ∧ h = hex hash.val ∧ Rpc.Waiting h polls ∧
      polls.length < 30 ∧ past = sent ++ polls

/-- The wait is over: the transaction was found, or thirty times it was not. -/
def Over (declared : Int64) (hash : String) (rounds : ℕ) (said : Said Request Reply) (e : Ending) : Prop :=
  (Rpc.Waiting hash said ∧ said.length = rounds ∧ e = .timedOut) ∨
    ∃ polls g, Rpc.Waiting hash polls ∧ polls.length < rounds ∧ said = polls ++ [(.getTransaction hash,.json g)] ∧
      AuthorizeTool.status g ≠ "NOT_FOUND" ∧ ending P declared g = .ok e

/-- The record of a run that comes to its report. -/
def Ends (said : Said Request Reply) (r : Report P) : Prop :=
  ∃ sent polls, Sent P s sent r.sim r.hash ∧ add P.build r.sim.minFee 1000 = .ok r.declared ∧
    Over P r.declared (hex r.hash.val) 30 polls r.ending ∧ said = sent ++ polls

/-- The requests of a run that waits to the end. -/
def schedule : List String :=
  ["getLedgerEntries","simulateTransaction","sendTransaction"] ++ List.replicate 30 "getTransaction"

end Record

section

variable {P} {s : Start L} {said : Said Request Reply} {q : Request}

theorem askState_follows {st : Int64 × UInt32} :
    Follows (askState P s) said (.ok st) ↔ Told P s said st.1 st.2 := by
  rw [askState,Rpc.follows_rpc_bind]
  constructor
  · rintro ⟨v,rest,rfl,h⟩
    obtain ⟨rfl,hst⟩ := follows_ofExcept_ok.mp h
    exact ⟨v,rfl,hst⟩
  · rintro ⟨v,rfl,hst⟩
    exact ⟨v,[],rfl,follows_ofExcept_ok.mpr ⟨rfl,hst⟩⟩

theorem askState_asks :
    Asks (askState P s) said q ↔ said = [] ∧ q = .getLedgerEntries (accountKey s.source) (some "json") := by
  simp [askState,Rpc.asks_rpc_bind,not_asks_ofExcept]

theorem askSimulation_follows {out : SorobanTransaction L F × SimResult P.xdr} :
    Follows (askSimulation P s) said (.ok out) ↔ Shown P s said out.1 out.2 := by
  rw [askSimulation,follows_bind_ok]
  simp only [askState_follows]
  constructor
  · rintro ⟨before,after,st,rfl,htold,h⟩
    obtain ⟨tx,htx,h⟩ := follows_ofExcept_bind_ok.mp h
    obtain ⟨text,htext,h⟩ := follows_ofExcept_bind_ok.mp h
    obtain ⟨v,rest,rfl,hafter⟩ := Rpc.follows_rpc_bind.mp h
    obtain ⟨sim,hsim,hdone⟩ := follows_ofExcept_bind_ok.mp hafter
    obtain ⟨rfl,rfl⟩ := follows_done_ok.mp hdone
    exact ⟨before,st.1,st.2,text,v,htold,htx,unwrap_eq_ok.mp htext,rfl,hsim⟩
  · rintro ⟨before,seq,latest,text,v,htold,htx,htext,rfl,hsim⟩
    refine ⟨before,_,(seq,latest),rfl,htold,?_⟩
    apply follows_ofExcept_bind_ok.mpr ⟨out.1,htx,?_⟩
    apply follows_ofExcept_bind_ok.mpr ⟨text,unwrap_eq_ok.mpr htext,?_⟩
    apply Rpc.follows_rpc_bind.mpr ⟨v,[],rfl,?_⟩
    exact follows_ofExcept_bind_ok.mpr ⟨out.2,hsim,follows_done_ok.mpr ⟨rfl,rfl⟩⟩

theorem askSimulation_asks :
    Asks (askSimulation P s) said q ↔ Asks (askState P s) said q ∨ ∃ seq latest tx text,
      Told P s said seq latest ∧ callTx P s seq latest = .ok tx ∧ P.xdr.envelopeToXdrBase64 ⟨tx,[]⟩ = some text ∧
      q = .simulateTransaction text (some "enforce") := by
  rw [askSimulation,asks_bind]
  simp only [askState_follows]
  apply or_congr_right
  constructor
  · rintro ⟨before,after,st,rfl,htold,h⟩
    obtain ⟨tx,htx,h⟩ := asks_ofExcept_bind.mp h
    obtain ⟨text,htext,h⟩ := asks_ofExcept_bind.mp h
    rcases Rpc.asks_rpc_bind.mp h with ⟨rfl,rfl⟩ | ⟨v,rest,rfl,hafter⟩
    · exact ⟨st.1,st.2,tx,text,by rwa [List.append_nil],htx,unwrap_eq_ok.mp htext,rfl⟩
    · obtain ⟨sim,-,hdone⟩ := asks_ofExcept_bind.mp hafter
      exact absurd hdone not_asks_done
  · rintro ⟨seq,latest,tx,text,htold,htx,htext,rfl⟩
    refine ⟨said,[],(seq,latest),(List.append_nil said).symm,htold,?_⟩
    apply asks_ofExcept_bind.mpr ⟨tx,htx,?_⟩
    apply asks_ofExcept_bind.mpr ⟨text,unwrap_eq_ok.mpr htext,?_⟩
    exact Rpc.asks_rpc_bind.mpr (.inl ⟨rfl,rfl⟩)

/-- What follows the sending: the tool goes on with a transaction that was taken. -/
theorem askToSend_follows {out : SimResult P.xdr × Arr 32} :
    Follows (askToSend P s) said (.ok out) ↔ Sent P s said out.1 out.2 := by
  rw [askToSend,follows_bind_ok]
  simp only [askSimulation_follows]
  constructor
  · rintro ⟨before,after,shown,rfl,hshown,h⟩
    obtain ⟨⟨text,hash⟩,hsealed,h⟩ := follows_ofExcept_bind_ok.mp h
    obtain ⟨v,rest,rfl,hafter⟩ := Rpc.follows_rpc_bind.mp h
    obtain ⟨rfl,hout⟩ := follows_ofExcept_ok.mp hafter
    cases htaken : ((v.field "result").get "errorResultXdr").bind Value.asStr with
    | some e => simp only [htaken,reduceCtorEq] at hout
    | none =>
      simp only [htaken,Except.ok.injEq] at hout
      rw [← hout]
      exact ⟨before,shown.1,text,v,hshown,hsealed,htaken,rfl⟩
  · rintro ⟨before,tx,text,v,hshown,hsealed,htaken,rfl⟩
    refine ⟨before,_,(tx,out.1),rfl,hshown,?_⟩
    apply follows_ofExcept_bind_ok.mpr ⟨(text,out.2),hsealed,?_⟩
    apply Rpc.follows_rpc_bind.mpr ⟨v,[],rfl,?_⟩
    rw [Rpc.Taken] at htaken
    exact follows_ofExcept_ok.mpr ⟨rfl,by simp only [htaken]⟩

theorem askToSend_asks :
    Asks (askToSend P s) said q ↔ Asks (askSimulation P s) said q ∨ ∃ tx sim text hash,
      Shown P s said tx sim ∧ sealedTx P s tx sim = .ok (text,hash) ∧ q = .sendTransaction text := by
  rw [askToSend,asks_bind]
  simp only [askSimulation_follows]
  apply or_congr_right
  constructor
  · rintro ⟨before,after,shown,rfl,hshown,h⟩
    obtain ⟨⟨text,hash⟩,hsealed,h⟩ := asks_ofExcept_bind.mp h
    rcases Rpc.asks_rpc_bind.mp h with ⟨rfl,rfl⟩ | ⟨v,rest,rfl,hafter⟩
    · exact ⟨shown.1,shown.2,text,hash,by rwa [List.append_nil],hsealed,rfl⟩
    · exact absurd hafter not_asks_ofExcept
  · rintro ⟨tx,sim,text,hash,hshown,hsealed,rfl⟩
    refine ⟨said,[],(tx,sim),(List.append_nil said).symm,hshown,?_⟩
    apply asks_ofExcept_bind.mpr ⟨(text,hash),hsealed,?_⟩
    exact Rpc.asks_rpc_bind.mpr (.inl ⟨rfl,rfl⟩)

theorem status_eq_notFound {g : Value} :
    AuthorizeTool.status g = "NOT_FOUND" ↔ ((g.field "result").field "status").asStr = some "NOT_FOUND" := by
  rw [AuthorizeTool.status]
  cases ((g.field "result").field "status").asStr with
  | none => decide
  | some text => simp

theorem waiting_cons {hash : String} {e : Request × Reply} {polls : Said Request Reply} :
    Rpc.Waiting hash (e::polls) ↔ (∃ g, e = (.getTransaction hash,.json g) ∧ AuthorizeTool.status g = "NOT_FOUND") ∧
      Rpc.Waiting hash polls := by
  simp only [Rpc.Waiting,List.forall_mem_cons,status_eq_notFound]

variable {declared : Int64} {hash : String} {rounds : ℕ} {e : Ending}

/-- One more round: the wait goes on after a missing transaction, and ends after any other. -/
theorem over_succ : Over P declared hash (rounds + 1) said e ↔
    ∃ g rest, said = (.getTransaction hash,.json g)::rest ∧
      ((AuthorizeTool.status g = "NOT_FOUND" ∧ Over P declared hash rounds rest e) ∨
        (AuthorizeTool.status g ≠ "NOT_FOUND" ∧ rest = [] ∧ ending P declared g = .ok e)) := by
  constructor
  · rintro (⟨hwait,hlen,rfl⟩ | ⟨polls,g,hwait,hlt,rfl,hstatus,hend⟩)
    · obtain ⟨e,rest,rfl⟩ := List.exists_cons_of_length_eq_add_one hlen
      obtain ⟨⟨g,rfl,hstatus⟩,hrest⟩ := waiting_cons.mp hwait
      exact ⟨g,rest,rfl,.inl ⟨hstatus,.inl ⟨hrest,Nat.succ.inj hlen,rfl⟩⟩⟩
    · cases polls with
      | nil => exact ⟨g,[],rfl,.inr ⟨hstatus,rfl,hend⟩⟩
      | cons first polls =>
        obtain ⟨⟨g',rfl,hstatus'⟩,hrest⟩ := waiting_cons.mp hwait
        refine ⟨g',_,rfl,.inl ⟨hstatus',.inr ⟨polls,g,hrest,?_,rfl,hstatus,hend⟩⟩⟩
        simpa using hlt
  · rintro ⟨g,rest,rfl,⟨hstatus,hover⟩ | ⟨hstatus,rfl,hend⟩⟩
    · rcases hover with ⟨hrest,hlen,rfl⟩ | ⟨polls,g',hrest,hlt,rfl,hstatus',hend⟩
      · exact .inl ⟨waiting_cons.mpr ⟨⟨g,rfl,hstatus⟩,hrest⟩,congrArg (· + 1) hlen,rfl⟩
      · refine .inr ⟨_::polls,g',waiting_cons.mpr ⟨⟨g,rfl,hstatus⟩,hrest⟩,?_,rfl,hstatus',hend⟩
        simpa using hlt
    · exact .inr ⟨[],g,by simp [Rpc.Waiting],by simp,rfl,hstatus,hend⟩

theorem poll_follows : Follows (poll P declared hash rounds) said (.ok e) ↔ Over P declared hash rounds said e := by
  induction rounds generalizing said with
  | zero =>
    rw [poll,Talk.pure_eq,follows_done_ok]
    constructor
    · rintro ⟨rfl,rfl⟩
      exact .inl ⟨by simp [Rpc.Waiting],rfl,rfl⟩
    · rintro (⟨-,hlen,rfl⟩ | ⟨polls,g,-,hlt,-⟩)
      · exact ⟨List.length_eq_zero_iff.mp hlen,rfl⟩
      · exact absurd hlt (Nat.not_lt_zero _)
  | succ rounds ih =>
    rw [poll,Rpc.follows_rpc_bind,over_succ]
    refine exists_congr fun g => exists_congr fun rest => and_congr_right fun _ => ?_
    by_cases hstatus : AuthorizeTool.status g = "NOT_FOUND"
    · simp [hstatus,ih]
    · simp [hstatus,follows_ofExcept_ok]

theorem poll_asks : Asks (poll P declared hash rounds) said q ↔
    q = .getTransaction hash ∧ Rpc.Waiting hash said ∧ said.length < rounds := by
  induction rounds generalizing said with
  | zero =>
    rw [poll,Talk.pure_eq]
    simp [not_asks_done]
  | succ rounds ih =>
    rw [poll,Rpc.asks_rpc_bind]
    constructor
    · rintro (⟨rfl,rfl⟩ | ⟨g,rest,rfl,h⟩)
      · exact ⟨rfl,by simp [Rpc.Waiting],by simp⟩
      · by_cases hstatus : AuthorizeTool.status g = "NOT_FOUND"
        · rw [if_pos hstatus,ih] at h
          exact ⟨h.1,waiting_cons.mpr ⟨⟨g,rfl,hstatus⟩,h.2.1⟩,by simpa using h.2.2⟩
        · rw [if_neg hstatus] at h
          exact absurd h not_asks_ofExcept
    · rintro ⟨rfl,hwait,hlt⟩
      cases said with
      | nil => exact .inl ⟨rfl,rfl⟩
      | cons first rest =>
        obtain ⟨⟨g,rfl,hstatus⟩,hrest⟩ := waiting_cons.mp hwait
        refine .inr ⟨g,rest,rfl,?_⟩
        rw [if_pos hstatus,ih]
        exact ⟨rfl,hrest,by simpa using hlt⟩

theorem run_follows {r : Report P} : Follows (run P s) said (.ok r) ↔ Ends P s said r := by
  rw [run,follows_bind_ok]
  simp only [askToSend_follows]
  constructor
  · rintro ⟨sent,polls,out,rfl,hsent,h⟩
    obtain ⟨declared,hdeclared,h⟩ := follows_ofExcept_bind_ok.mp h
    obtain ⟨polls,after,e,rfl,hpolls,h⟩ := follows_bind_ok.mp h
    obtain ⟨rfl,rfl⟩ := follows_done_ok.mp h
    refine ⟨sent,polls,hsent,arithmetic_eq_ok.mp hdeclared,poll_follows.mp hpolls,?_⟩
    rw [List.append_nil]
  · rintro ⟨sent,polls,hsent,hdeclared,hover,rfl⟩
    refine ⟨sent,polls,(r.sim,r.hash),rfl,hsent,?_⟩
    apply follows_ofExcept_bind_ok.mpr ⟨r.declared,arithmetic_eq_ok.mpr hdeclared,?_⟩
    exact (poll_follows.mpr hover).bind_silent (.done r)

/-- What the tool has been told decides what it asks, and every request that is due is made. -/
theorem run_asks : Asks (run P s) said q ↔ Due P s said q := by
  have hrun : Asks (run P s) said q ↔ Asks (askToSend P s) said q ∨ ∃ sent polls sim hash declared,
      Sent P s sent sim hash ∧ add P.build sim.minFee 1000 = .ok declared ∧ q = .getTransaction (hex hash.val) ∧
      Rpc.Waiting (hex hash.val) polls ∧ polls.length < 30 ∧ said = sent ++ polls := by
    rw [run,asks_bind]
    simp only [askToSend_follows]
    apply or_congr_right
    constructor
    · rintro ⟨sent,polls,out,rfl,hsent,h⟩
      obtain ⟨declared,hdeclared,h⟩ := asks_ofExcept_bind.mp h
      rcases asks_bind.mp h with h | ⟨_,_,_,_,_,h⟩
      · obtain ⟨rfl,hwait,hlt⟩ := poll_asks.mp h
        exact ⟨sent,polls,out.1,out.2,declared,hsent,arithmetic_eq_ok.mp hdeclared,rfl,hwait,hlt,rfl⟩
      · exact absurd h not_asks_done
    · rintro ⟨sent,polls,sim,hash,declared,hsent,hdeclared,rfl,hwait,hlt,rfl⟩
      refine ⟨sent,polls,(sim,hash),rfl,hsent,?_⟩
      apply asks_ofExcept_bind.mpr ⟨declared,arithmetic_eq_ok.mpr hdeclared,?_⟩
      exact asks_bind.mpr (.inl (poll_asks.mpr ⟨rfl,hwait,hlt⟩))
  rw [hrun,askToSend_asks,askSimulation_asks,askState_asks]
  cases q with
  | getLedgerEntries key format => simp [Due]
  | simulateTransaction text mode =>
    simp only [Due,reduceCtorEq,and_false,false_and,exists_false,or_false,false_or,
      Request.simulateTransaction.injEq]
    constructor
    · rintro ⟨seq,latest,tx,text,htold,htx,htext,rfl,rfl⟩
      exact ⟨rfl,seq,latest,tx,htold,htx,htext⟩
    · rintro ⟨rfl,seq,latest,tx,htold,htx,htext⟩
      exact ⟨seq,latest,tx,text,htold,htx,htext,rfl,rfl⟩
  | sendTransaction text => simp [Due]
  | getTransaction h =>
    simp only [Due,reduceCtorEq,and_false,exists_false,false_or,Request.getTransaction.injEq]
    constructor
    · rintro ⟨sent,polls,sim,hash,declared,hsent,hdeclared,rfl,hwait,hlt,rfl⟩
      exact ⟨sent,polls,sim,hash,declared,hsent,hdeclared,rfl,hwait,hlt,rfl⟩
    · rintro ⟨sent,polls,sim,hash,declared,hsent,hdeclared,rfl,hwait,hlt,rfl⟩
      exact ⟨sent,polls,sim,hash,declared,hsent,hdeclared,rfl,hwait,hlt,rfl⟩

theorem Shown.length {tx : SorobanTransaction L F} {sim : SimResult P.xdr} (h : Shown P s said tx sim) :
    said.length = 2 := by
  obtain ⟨before,seq,latest,text,v,⟨w,rfl,-⟩,-,-,rfl,-⟩ := h
  rfl

theorem Sent.length {sim : SimResult P.xdr} {hash : Arr 32} (h : Sent P s said sim hash) : said.length = 3 := by
  obtain ⟨before,tx,text,v,hshown,-,-,rfl⟩ := h
  rw [List.length_append,hshown.length]
  rfl

theorem Due.scheduled (h : Due P s said q) : schedule[said.length]? = some q.method := by
  cases q with
  | getLedgerEntries key format =>
    obtain ⟨rfl,-⟩ := h
    rfl
  | simulateTransaction text mode =>
    obtain ⟨-,seq,latest,tx,⟨v,rfl,-⟩,-⟩ := h
    rfl
  | sendTransaction text =>
    obtain ⟨tx,sim,hash,hshown,-⟩ := h
    rw [hshown.length]
    rfl
  | getTransaction h =>
    obtain ⟨sent,polls,sim,hash,declared,hsent,-,-,-,hlt,rfl⟩ := h
    have hfront : ["getLedgerEntries","simulateTransaction","sendTransaction"].length = 3 := rfl
    rw [List.length_append,hsent.length,schedule,List.getElem?_append_right (by rw [hfront]; omega),hfront,
      Nat.add_sub_cancel_left,List.getElem?_replicate,if_pos hlt]
    rfl

end

/-- What `submit` asks and what it returns, against a node that may answer anything. -/
structure Exact (s : Start L) (tool : Tool (Report P)) (node : Party Request Reply) : Prop where
  order : (converse node [] tool).1.map (fun e => e.1.method) <+: schedule
  asks : ∀ said q, Asks tool said q ↔ Due P s said q
  returns : ∀ said r, converse node [] tool = (said,.ok r) ↔ Answered node [] said ∧ Ends P s said r

/-- A command line that does not start asks nothing. Any other run asks what is due and
nothing else, in a fixed order, and comes to a report exactly on the records that end the wait. -/
theorem submit_exact (args : List String) (secret : Option String) (node : Party Request Reply) :
    (∀ e, start P args secret = .error e → converse node [] (main P args secret) = ([],.error e)) ∧
    ∀ s, start P args secret = .ok s → Exact P s (main P args secret) node := by
  constructor
  · intro e he
    simp [main,he,converse]
  · intro s hs
    have hmain : main P args secret = run P s := by simp [main,hs]
    rw [hmain]
    refine ⟨?_,fun said q => run_asks,fun said r => ?_⟩
    · exact (converse_asks (run P s) node).map_eq fun past q hq => (run_asks.mp hq).scheduled
    · rw [converse_eq_iff,run_follows]

end SorobanMlDsa.Phase0.SubmitTool

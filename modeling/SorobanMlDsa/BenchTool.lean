import SorobanMlDsa.AuthorizeTool
import SorobanMlDsa.Throughput
import SorobanMlDsa.Verifier

/-!
# `bench` as a whole

One question for the account and twelve simulations, each of one call of the verifier
contract; the tables are made of the replies. Nothing is signed for the network or sent.
-/

namespace SorobanMlDsa.Cli

open ByteSlice MachineInt SerdeJson Dialogue

/-- The `p256` crate. -/
structure P256 where
  SigningKey : Type
  fromBytes : Arr 32 → Option SigningKey
  signPrehash : SigningKey → (digest : Arr 32) → Option (Arr 64)
  /-- The verifying key as an uncompressed point. -/
  encodedPoint : SigningKey → Arr 65

/-- What `bench` links besides: the crate at the other parameter set, and P-256. -/
structure BenchPlatform (L : XdrLeaves) (F : LedgerKeys) extends Platform L F where
  crate44 : MlDsaCrate
  p256 : P256

/-- The entry points of the verifier contract. -/
inductive EntryPoint
  | noop
  | verify65
  | verify44
  | decode65
  | decode44
  | ed25519
  | secp256r1
  deriving DecidableEq

def EntryPoint.name : EntryPoint → String
  | .noop => "noop"
  | .verify65 => "verify65"
  | .verify44 => "verify44"
  | .decode65 => "decode65"
  | .decode44 => "decode44"
  | .ed25519 => "ed25519"
  | .secp256r1 => "secp256r1"

/-- A call of an entry point; arguments that are not of the types it declares trap. -/
def EntryPoint.run {O : Type} (C : Verifier.HostCrypto) (D65 D44 : MlDsaCrate) :
    EntryPoint → List (ScVal O) → Outcome Bool
  | .noop,[] => Verifier.noop
  | .verify65,[.bytes pk,.bytes msg,.bytes sig] => Verifier.verify65 D65 pk.val msg.val sig.val
  | .verify44,[.bytes pk,.bytes msg,.bytes sig] => Verifier.verify44 D44 pk.val msg.val sig.val
  | .decode65,[.bytes pk] => Verifier.decode65 D65 pk.val
  | .decode44,[.bytes pk] => Verifier.decode44 D44 pk.val
  | .ed25519,[.bytes pk,.bytes msg,.bytes sig] =>
    match tryFrom 32 pk.val,tryFrom 64 sig.val with
    | some pk,some sig => Verifier.ed25519 C pk msg.val sig
    | _,_ => .error .trap
  | .secp256r1,[.bytes pk,.bytes msg,.bytes sig] =>
    match tryFrom 65 pk.val,tryFrom 64 sig.val with
    | some pk,some sig => Verifier.secp256r1 C pk msg.val sig
    | _,_ => .error .trap
  | _,_ => .error .trap

namespace BenchTool

variable {L : XdrLeaves} {F : LedgerKeys} (P : BenchPlatform L F)

def keypair (D : MlDsaCrate) : Command (Keypair D) := Authorize.keypairOf D (List.replicate 32 42)

def filled {k : ℕ} : Outcome (Except PqError ℕ × Arr k) → Command (Arr k) := unwrapBuffer .panic .unwrap

def msg32 : Bytes := List.replicate 32 7

structure Vectors where
  kp65 : Keypair P.crate
  vk65 : Arr mldsa65.vkLen
  vk44 : Arr mldsa44.vkLen
  sig44 : Arr mldsa44.sigLen
  edKey : Arr 32
  edSig : Arr 64
  pPoint : Arr 65
  pSig : Arr 64

def sign65 {P : BenchPlatform L F} (kp : Keypair P.crate) (m : Bytes) : Command (Arr mldsa65.sigLen) :=
  filled (kp.signingKey.signInto mldsa65 m [] (Arr.zero mldsa65.sigLen))

def vectors : Command (Vectors P) := do
  let kp65 ← keypair P.crate
  let vk65 ← filled (kp65.verifyingKey.writeTo mldsa65 (Arr.zero mldsa65.vkLen))
  let kp44 ← keypair P.crate44
  let vk44 ← filled (kp44.verifyingKey.writeTo mldsa44 (Arr.zero mldsa44.vkLen))
  let sig44 ← filled (kp44.signingKey.signInto mldsa44 msg32 [] (Arr.zero mldsa44.sigLen))
  let ed : Arr 32 := ⟨List.replicate 32 9,rfl⟩
  let pSk ← unwrap (P.p256.fromBytes ⟨List.replicate 32 0x11,rfl⟩)
  let pSig ← unwrap (P.p256.signPrehash pSk (P.sha256 msg32))
  return {
    kp65 := kp65
    vk65 := vk65
    vk44 := vk44
    sig44 := sig44
    edKey := P.ed25519.verifyingKey ed
    edSig := P.ed25519.sign ed msg32
    pPoint := P.p256.encodedPoint pSk
    pSig := pSig }

def b {O : Type} (v : Bytes) : Command (ScVal O) := do
  let v ← unwrap (ScBytes.tryFrom v)
  return .bytes v

/-- One measurement: its label and the call it simulates. -/
structure Measurement (L : XdrLeaves) where
  label : String
  function : EntryPoint
  args : Command (List (ScVal L.OtherVal))

variable {P}

def noopCall : Measurement L := ⟨"no-op (VM instantiation)",.noop,.ok []⟩

def rowCalls (v : Vectors P) : List (Measurement L) := [
  ⟨"Ed25519 (host fn)",.ed25519,[v.edKey.val,msg32,v.edSig.val].mapM b⟩,
  ⟨"ECDSA secp256r1 (host fn)",.secp256r1,[v.pPoint.val,msg32,v.pSig.val].mapM b⟩,
  ⟨"ML-DSA-44 decode key only",.decode44,[v.vk44.val].mapM b⟩,
  ⟨"ML-DSA-44 verify (in contract)",.verify44,[v.vk44.val,msg32,v.sig44.val].mapM b⟩,
  ⟨"ML-DSA-65 decode key only",.decode65,[v.vk65.val].mapM b⟩,
  ⟨"ML-DSA-65 verify (in contract)",.verify65,do
    let sig ← sign65 v.kp65 msg32
    [v.vk65.val,msg32,sig.val].mapM b⟩]

def sweepLengths : List ℕ := [32,256,1024,4096,8192]

def sweepCall (v : Vectors P) (len : ℕ) : Measurement L :=
  let m := List.replicate len 0x5A
  ⟨"len " ++ len.repr,.verify65,do
    let sig ← sign65 v.kp65 m
    [v.vk65.val,m,sig.val].mapM b⟩

structure Row where
  label : String
  insns : UInt64
  fee : Int64

variable (P) in
def measuredTx (source : Arr 32) (seq : Int64) (verifier : String) (m : Measurement L) :
    Command (SorobanTransaction L F) := do
  let args ← m.args
  let seq ← arithmetic (add P.build seq 1)
  let op ← P.invokeOp verifier m.function.name args []
  return buildTx P.xdr source seq op

variable (P) in
def measure (source : Arr 32) (seq : Int64) (verifier : String) (m : Measurement L) : Tool Row := do
  let tx ← lift (measuredTx P source seq verifier m)
  match ← Rpc.simulate P.xdr tx none with
  | .ok s => return ⟨m.label,cast UInt64 s.instructions,s.minFee⟩
  | .error e => lift (.error (.expect (m.label ++ ": simulation failed: " ++ e)))

def saturatingSub (x y : UInt64) : UInt64 := if x < y then 0 else x - y

/-- The integers of the tables; what is printed from them by floating point is left out. -/
structure Tables where
  throughput : List Throughput.Line
  /-- Label, instructions, fee, and instructions net of the no-op. -/
  perTransaction : List (String × UInt64 × Int64 × UInt64)
  /-- Net ML-DSA-65 verification over net Ed25519, and over net secp256r1. -/
  overEd25519 : UInt64 × UInt64
  overSecp256r1 : UInt64 × UInt64
  /-- For each parameter set, net decoding and net verification. -/
  split : List (String × UInt64 × UInt64)

structure Report extends Tables where
  /-- Message length, instructions, and instructions net of the no-op. -/
  sweep : List (ℕ × UInt64 × UInt64)

def find (rows : List Row) (s : String) : Command UInt64 := do
  let r ← unwrap (rows.find? fun r => s.toList.isPrefixOf r.label.toList)
  return r.insns

/-- Everything printed before the sweep. -/
def tables (b : Build) (noop : Row) (rows : List Row) : Command Tables := do
  let throughput ← arithmetic (Throughput.table (Throughput.Bench.line b)
    (rows.map fun r => ⟨r.label,r.insns⟩))
  let net (i : UInt64) := saturatingSub i noop.insns
  let verify65 ← find rows "ML-DSA-65 verify"
  let ed25519 ← find rows "Ed25519"
  let secp256r1 ← find rows "ECDSA"
  let decode44 ← find rows "ML-DSA-44 decode"
  let verify44 ← find rows "ML-DSA-44 verify"
  let decode65 ← find rows "ML-DSA-65 decode"
  return {
    throughput := throughput
    perTransaction := rows.map fun r => (r.label,r.insns,r.fee,net r.insns)
    overEd25519 := (net verify65,net ed25519)
    overSecp256r1 := (net verify65,net secp256r1)
    split := [("ML-DSA-44",net decode44,net verify44),("ML-DSA-65",net decode65,net verify65)] }

variable (P) in
def start (args : List String) : Command (Arr 32 × String) := do
  let sourceStr ← AuthorizeTool.arg args 1
  let verifier ← AuthorizeTool.arg args 2
  let source ← P.accountPk sourceStr
  return (source,verifier)

variable (P) in
def run (source : Arr 32) (verifier : String) : Tool Report := do
  let (seq,_) ← Rpc.accountState source
  let v ← lift (vectors P)
  let noop ← measure P source seq verifier noopCall
  let measured ← Talk.forEach (measure P source seq verifier) (rowCalls v)
  let t ← lift (tables P.build noop (noop::measured))
  let swept ← Talk.forEach (measure P source seq verifier) (sweepLengths.map (sweepCall v))
  return {
    toTables := t
    sweep := (sweepLengths.zip swept).map fun e => (e.1,e.2.insns,saturatingSub e.2.insns noop.insns) }

variable (P) in
def main (args : List String) : Tool Report := do
  let (source,verifier) ← lift (start P args)
  run P source verifier

def plan (v : Vectors P) : List (Measurement L) := noopCall::(rowCalls v ++ sweepLengths.map (sweepCall v))

section Protocol

variable (P) (source : Arr 32) (verifier : String)

/-- The node has named the source's sequence number, and there are vectors. -/
def Told (past : Said Request Reply) (seq : Int64) (v : Vectors P) : Prop :=
  ∃ r latest, past = [(.getLedgerEntries (accountKey source) (some "json"),.json r)] ∧
    accountState r = .ok (seq,latest) ∧ vectors P = .ok v

/-- `e` is the simulation of `m` with its reply, and `row` what is kept of it. -/
def Exchange (seq : Int64) (m : Measurement L) (e : Request × Reply) (row : Row) : Prop :=
  ∃ tx t r sim, measuredTx P source seq verifier m = .ok tx ∧ P.xdr.envelopeToXdrBase64 ⟨tx,[]⟩ = some t ∧
    e = (.simulateTransaction t none,.json r) ∧ simulate P.xdr r = .ok sim ∧
    row = ⟨m.label,cast UInt64 sim.instructions,sim.minFee⟩

/-- After `base` the simulations of `ms`, one by one, with their rows. -/
def Measured (seq : Int64) (base : Said Request Reply) (ms : List (Measurement L)) (said : Said Request Reply)
    (rows : List Row) : Prop :=
  ∃ xs : List ((Request × Reply) × Row), said = base ++ xs.map Prod.fst ∧ rows = xs.map Prod.snd ∧
    List.Forall₂ (fun m x => Exchange P source verifier seq m x.1 x.2) ms xs

/-- When a request is due, and what it then is. -/
def Due (past : Said Request Reply) : Request → Prop
  | .getLedgerEntries key format => past = [] ∧ key = accountKey source ∧ format = some "json"
  | .simulateTransaction t mode => mode = none ∧ ∃ base seq v done m rest rows tx, Told P source base seq v ∧
      plan v = done ++ m::rest ∧ Measured P source verifier seq base done past rows ∧
      measuredTx P source seq verifier m = .ok tx ∧ P.xdr.envelopeToXdrBase64 ⟨tx,[]⟩ = some t
  | _ => False

def insnsAt (rows : List Row) (i : ℕ) : UInt64 := (rows[i]?.map Row.insns).getD 0

def netAt (rows : List Row) (i : ℕ) : UInt64 := saturatingSub (insnsAt rows i) (insnsAt rows 0)

/-- The report belongs to the rows of the plan; the places are those of `plan`. -/
structure Tabulates (rows : List Row) (r : Report) : Prop where
  throughput : List.Forall₂ Throughput.Bench.Reports ((rows.take 7).map fun x => ⟨x.label,x.insns⟩) r.throughput
  perTransaction : r.perTransaction =
    (rows.take 7).map fun x => (x.label,x.insns,x.fee,saturatingSub x.insns (insnsAt rows 0))
  overEd25519 : r.overEd25519 = (netAt rows 6,netAt rows 1)
  overSecp256r1 : r.overSecp256r1 = (netAt rows 6,netAt rows 2)
  split : r.split = [("ML-DSA-44",netAt rows 3,netAt rows 4),("ML-DSA-65",netAt rows 5,netAt rows 6)]
  sweep : r.sweep = (sweepLengths.zip (rows.drop 7)).map fun e =>
    (e.1,e.2.insns,saturatingSub e.2.insns (insnsAt rows 0))

/-- A report stands for a whole plan measured. -/
def Complete (said : Said Request Reply) (r : Report) : Prop :=
  ∃ base seq v rows, Told P source base seq v ∧ Measured P source verifier seq base (plan v) said rows ∧
    Tabulates rows r

variable {P source verifier} {seq : Int64} {v : Vectors P} {base past : Said Request Reply}
  {done : List (Measurement L)} {rows : List Row}

theorem measured_nil : Measured P source verifier seq base [] base [] := ⟨[],by simp,rfl,.nil⟩

theorem Measured.snoc (h : Measured P source verifier seq base done past rows) {m : Measurement L}
    {e : Request × Reply} {row : Row} (hx : Exchange P source verifier seq m e row) :
    Measured P source verifier seq base (done ++ [m]) (past ++ [e]) (rows ++ [row]) := by
  obtain ⟨xs,rfl,rfl,hxs⟩ := h
  exact ⟨xs ++ [(e,row)],by simp,by simp,List.rel_append hxs (.cons hx .nil)⟩

theorem Measured.length (h : Measured P source verifier seq base done past rows) :
    past.length = base.length + done.length ∧ rows.length = done.length := by
  obtain ⟨xs,rfl,rfl,hxs⟩ := h
  simp [hxs.length_eq]

theorem Measured.labels (h : Measured P source verifier seq base done past rows) :
    rows.map Row.label = done.map Measurement.label := by
  obtain ⟨xs,-,rfl,hxs⟩ := h
  induction hxs with
  | nil => rfl
  | cons hx _ ih =>
    obtain ⟨tx,t,r,sim,-,-,-,-,hrow⟩ := hx
    rw [List.map_cons,List.map_cons,List.map_cons,hrow,ih]

theorem plan_length (v : Vectors P) : (plan v).length = 12 := rfl

/-- The number of requests made so far decides which one may follow. -/
theorem Due.scheduled {q : Request} (h : Due P source verifier past q) :
    ("getLedgerEntries"::List.replicate 12 "simulateTransaction")[past.length]? = some q.method := by
  cases q with
  | getLedgerEntries key format =>
    obtain ⟨rfl,-⟩ := h
    rfl
  | simulateTransaction t mode =>
    obtain ⟨-,base,seq,v,done,m,rest,rows,tx,⟨r,latest,rfl,-⟩,hplan,hdone,-⟩ := h
    have hlen := congrArg List.length hplan
    rw [plan_length,List.length_append,List.length_cons] at hlen
    rw [hdone.length.1,List.length_singleton,Nat.add_comm,List.getElem?_cons_succ,List.getElem?_replicate,
      if_pos (by omega)]
    rfl
  | sendTransaction t => exact h.elim
  | getTransaction hash => exact h.elim

/-- One measurement of the plan, where it is due. -/
theorem measure_meets (htold : Told P source base seq v) {m : Measurement L} {rest : List (Measurement L)}
    (hplan : plan v = done ++ m::rest) (hdone : Measured P source verifier seq base done past rows) :
    Meets (Due P source verifier) (Returning fun said row =>
      Measured P source verifier seq base (done ++ [m]) said (rows ++ [row])) past
      (measure P source seq verifier m) := by
  apply meets_ofExcept_bind
  intro tx htx
  apply Meets.bind (Rpc.simulate_meets ?hallowed)
  case hallowed => exact fun t henv => ⟨rfl,base,seq,v,done,m,rest,rows,tx,htold,hplan,hdone,htx,henv⟩
  rintro said reply ⟨t,r,henv,rfl,hreply⟩
  cases reply with
  | error e => exact returning_error
  | ok sim =>
    show Returning _ _ (Except.ok (⟨m.label,cast UInt64 sim.instructions,sim.minFee⟩ : Row))
    rw [returning_ok]
    exact hdone.snoc ⟨tx,t,r,sim,htx,henv,rfl,hreply.symm,rfl⟩

theorem measureAll_meets (htold : Told P source base seq v) {ms rest : List (Measurement L)}
    (hplan : plan v = done ++ (ms ++ rest)) (hdone : Measured P source verifier seq base done past rows) :
    Meets (Due P source verifier) (Returning fun said more =>
      Measured P source verifier seq base (done ++ ms) said (rows ++ more)) past
      (Talk.forEach (measure P source seq verifier) ms) := by
  let kept (part : List (Measurement L)) (said : Said Request Reply) (more : List Row) :=
    Measured P source verifier seq base (done ++ part) said (rows ++ more)
  show Meets _ (Returning (kept ms)) _ _
  apply Meets.forEach
  · intro part m after said more hms hpart
    have hnext : plan v = (done ++ part) ++ m::(after ++ rest) := by simp [hplan,hms]
    apply Meets.imp (measure_meets htold hnext hpart)
    intro said' row hrow
    simpa [kept] using hrow
  · simpa [kept] using hdone

/-- Looking a row up by the start of its label is looking it up by its place. -/
theorem find_eq {labels : List String} (hlabels : rows.map Row.label = labels) {s : String} {i : ℕ}
    (hi : labels.findIdx? (fun l => s.toList.isPrefixOf l.toList) = some i) :
    find rows s = .ok (insnsAt rows i) := by
  obtain ⟨hlt,hhit,hbefore⟩ := List.findIdx?_eq_some_iff_getElem.mp hi
  have hlen : i < rows.length := by
    rw [← hlabels,List.length_map] at hlt
    exact hlt
  have hfind : rows.find? (fun r => s.toList.isPrefixOf r.label.toList) = some rows[i] := by
    rw [List.find?_eq_some_iff_getElem]
    subst hlabels
    refine ⟨by simpa using hhit,i,hlen,rfl,?_⟩
    intro j hj
    rw [Bool.not_eq_true',Bool.eq_false_iff]
    simpa using hbefore j hj
  simp [find,hfind,unwrap,insnsAt,hlen]

def rowLabels : List String := [
  "no-op (VM instantiation)","Ed25519 (host fn)","ECDSA secp256r1 (host fn)","ML-DSA-44 decode key only",
  "ML-DSA-44 verify (in contract)","ML-DSA-65 decode key only","ML-DSA-65 verify (in contract)"]

theorem insnsAt_append {first swept : List Row} {i : ℕ} (h : i < first.length) :
    insnsAt (first ++ swept) i = insnsAt first i := by
  rw [insnsAt,List.getElem?_append_left h,insnsAt]

theorem netAt_append {first swept : List Row} {i : ℕ} (h : i < first.length) :
    netAt (first ++ swept) i = netAt first i := by
  rw [netAt,insnsAt_append h,insnsAt_append (Nat.zero_lt_of_lt h),netAt]

/-- Every label is found, and every figure is taken from the place it is meant for. -/
theorem tables_ok (b : Build) {noop : Row} {measured : List Row}
    (hlabels : (noop::measured).map Row.label = rowLabels) :
    ∃ t, tables b noop (noop::measured) = .ok t ∧ ∀ swept, Tabulates ((noop::measured) ++ swept) {
      toTables := t
      sweep := (sweepLengths.zip swept).map fun e => (e.1,e.2.insns,saturatingSub e.2.insns noop.insns) } := by
  obtain ⟨ls,hls,hreports⟩ := Throughput.Bench.table_reports b ((noop::measured).map fun r => ⟨r.label,r.insns⟩)
  have hlen : (noop::measured).length = 7 := by
    rw [← List.length_map Row.label,hlabels]
    rfl
  rw [tables,hls,find_eq (i := 6) hlabels (by decide +kernel),find_eq (i := 1) hlabels (by decide +kernel),
    find_eq (i := 2) hlabels (by decide +kernel),find_eq (i := 3) hlabels (by decide +kernel),
    find_eq (i := 4) hlabels (by decide +kernel),find_eq (i := 5) hlabels (by decide +kernel)]
  refine ⟨_,rfl,?_⟩
  intro swept
  have htake : ((noop::measured) ++ swept).take 7 = noop::measured := List.take_left' hlen
  have hdrop : ((noop::measured) ++ swept).drop 7 = swept := List.drop_left' hlen
  have hnoop : insnsAt ((noop::measured) ++ swept) 0 = noop.insns := rfl
  have hnet (i : ℕ) (hi : i < 7) : netAt ((noop::measured) ++ swept) i =
      saturatingSub (insnsAt (noop::measured) i) noop.insns := netAt_append (by omega)
  constructor
  · rwa [htake]
  · rw [htake,hnoop]
  · rw [hnet 6 (by decide),hnet 1 (by decide)]
  · rw [hnet 6 (by decide),hnet 2 (by decide)]
  · rw [hnet 3 (by decide),hnet 4 (by decide),hnet 5 (by decide),hnet 6 (by decide)]
  · rw [hdrop,hnoop]

theorem plan_eq (v : Vectors P) :
    plan v = (noopCall::rowCalls v) ++ (sweepLengths.map (sweepCall v) ++ []) := by
  rw [List.append_nil,plan,List.cons_append]

theorem run_meets : Meets (Due P source verifier) (Returning (Complete P source verifier)) []
    (run P source verifier) := by
  apply Meets.bind (Rpc.accountState_meets ⟨rfl,rfl,rfl⟩)
  rintro base ⟨seq,latest⟩ ⟨reply,hstate,hbase⟩
  apply meets_ofExcept_bind
  intro v hv
  have htold : Told P source base seq v := ⟨reply,latest,hbase,hstate,hv⟩
  have hnone : Measured P source verifier seq base [] base [] := measured_nil
  apply Meets.bind (measure_meets htold rfl hnone)
  intro said noop hnoop
  apply Meets.bind (measureAll_meets htold rfl hnoop)
  intro said measured hrows
  have hlabels : (noop::measured).map Row.label = rowLabels := hrows.labels
  obtain ⟨t,ht,htabulates⟩ := tables_ok P.build hlabels
  apply meets_ofExcept_bind
  intro t' ht'
  obtain rfl := Except.ok.inj (ht.symm.trans ht')
  apply Meets.bind (measureAll_meets htold (plan_eq v) hrows)
  intro said swept hall
  show Returning _ _ (Except.ok _)
  rw [returning_ok]
  exact ⟨base,seq,v,_,htold,hall,htabulates swept⟩

theorem measure_follows {m : Measurement L} {e : Request × Reply} {row : Row}
    (h : Exchange P source verifier seq m e row) : Follows (measure P source seq verifier m) [e] (.ok row) := by
  obtain ⟨tx,t,r,sim,htx,henv,rfl,hsim,rfl⟩ := h
  apply Follows.ofExcept_bind htx
  apply (Rpc.simulate_follows henv r).bind_silent
  rw [hsim]
  exact .done _

theorem measureAll_follows {ms : List (Measurement L)} {xs : List ((Request × Reply) × Row)}
    (h : List.Forall₂ (fun m x => Exchange P source verifier seq m x.1 x.2) ms xs) :
    Follows (Talk.forEach (measure P source seq verifier) ms) (xs.map Prod.fst) (.ok (xs.map Prod.snd)) := by
  let round (x : (Request × Reply) × Row) : Said Request Reply × Row := ([x.1],x.2)
  have hrounds : List.Forall₂ (fun m r => Follows (measure P source seq verifier m) r.1 (.ok r.2)) ms
      (xs.map round) := by
    rw [List.forall₂_map_right_iff]
    exact h.imp fun m x hx => measure_follows hx
  have hsaid : ((xs.map round).map Prod.fst).flatten = xs.map Prod.fst := by
    rw [List.map_map,← List.flatMap_def]
    exact (List.map_eq_flatMap ..).symm
  have hrows : (xs.map round).map Prod.snd = xs.map Prod.snd := by
    rw [List.map_map]
    rfl
  have hfollows := Follows.forEach hrounds
  rwa [hsaid,hrows] at hfollows

theorem run_follows {said : Said Request Reply} (htold : Told P source base seq v)
    (h : Measured P source verifier seq base (plan v) said rows) :
    ∃ r, Follows (run P source verifier) said (.ok r) := by
  obtain ⟨reply,latest,rfl,hstate,hv⟩ := htold
  obtain ⟨xs,rfl,-,hxs⟩ := h
  cases hxs with
  | @cons m x ms xs hnoop hxs =>
    have hrows : List.Forall₂ _ (rowCalls v) (xs.take 6) := List.forall₂_take 6 hxs
    have hswept : List.Forall₂ _ (sweepLengths.map (sweepCall v)) (xs.drop 6) := List.forall₂_drop 6 hxs
    have hfirst : Measured P source verifier seq [] (noopCall::rowCalls v) _ (x.2::(xs.take 6).map Prod.snd) :=
      ⟨x::xs.take 6,rfl,rfl,.cons hnoop hrows⟩
    obtain ⟨t,ht,-⟩ := tables_ok P.build hfirst.labels
    have hsplit : (x::xs).map Prod.fst = [x.1] ++ ((xs.take 6).map Prod.fst ++ (xs.drop 6).map Prod.fst) := by
      rw [← List.map_append,List.take_append_drop]
      rfl
    let swept := (xs.drop 6).map Prod.snd
    let report : Report := {
      toTables := t
      sweep := (sweepLengths.zip swept).map fun e => (e.1,e.2.insns,saturatingSub e.2.insns x.2.insns) }
    rw [hsplit]
    refine ⟨report,?_⟩
    apply (Rpc.accountState_follows hstate).bind
    apply Follows.ofExcept_bind hv
    apply (measure_follows hnoop).bind
    apply (measureAll_follows hrows).bind
    apply Follows.ofExcept_bind ht
    exact (measureAll_follows hswept).bind_silent (.done report)

variable (P source verifier) in
/-- How a run of `bench` looks from the outside. -/
structure Protocol (said : Said Request Reply) (result : Command Report) : Prop where
  order : said.map (fun e => e.1.method) <+: "getLedgerEntries"::List.replicate 12 "simulateTransaction"
  due : Orderly (Due P source verifier) said
  returns : ∀ r, result = .ok r → Complete P source verifier said r

variable (P) in
/-- Whatever the node answers, `bench` only ever simulates, unsigned and in the order of its
plan, and a report it returns is made of the replies to the whole plan, each figure from the
row it is named for. -/
theorem bench_protocol (args : List String) (node : Party Request Reply) :
    (∀ e, start P args = .error e → converse node [] (main P args) = ([],.error e)) ∧
    ∀ source verifier, start P args = .ok (source,verifier) →
      Protocol P source verifier (converse node [] (main P args)).1 (converse node [] (main P args)).2 := by
  constructor
  · intro e he
    simp [main,he,converse]
  · intro source verifier hs
    have hmain : main P args = run P source verifier := by simp [main,hs]
    obtain ⟨hdue,hreturns⟩ := (run_meets (P := P)).converse orderly_nil node
    rw [hmain]
    exact ⟨hdue.map_eq fun past q => Due.scheduled,hdue,hreturns⟩

variable (P) in
/-- `bench` reports exactly when the node's answers are a whole plan measured. -/
theorem bench_returns_iff (args : List String) (node : Party Request Reply) (said : Said Request Reply) :
    (∃ r, converse node [] (main P args) = (said,.ok r)) ↔
      ∃ source verifier base seq v rows, start P args = .ok (source,verifier) ∧ Answered node [] said ∧
        Told P source base seq v ∧ Measured P source verifier seq base (plan v) said rows := by
  constructor
  · rintro ⟨r,hrun⟩
    cases hs : start P args with
    | error e => simp [main,hs,converse] at hrun
    | ok sv =>
      obtain ⟨source,verifier⟩ := sv
      have hmain : main P args = run P source verifier := by simp [main,hs]
      rw [hmain] at hrun
      obtain ⟨said',hsaid,hanswered,-⟩ := converse_follows node [] (run P source verifier)
      obtain ⟨-,hreturns⟩ := (run_meets (P := P)).converse orderly_nil node
      rw [hrun] at hsaid hreturns
      obtain rfl : said = said' := hsaid
      obtain ⟨base,seq,v,rows,htold,hrows,-⟩ := hreturns r rfl
      exact ⟨source,verifier,base,seq,v,rows,rfl,hanswered,htold,hrows⟩
  · rintro ⟨source,verifier,base,seq,v,rows,hs,hanswered,htold,hrows⟩
    have hmain : main P args = run P source verifier := by simp [main,hs]
    obtain ⟨r,hr⟩ := run_follows htold hrows
    rw [hmain]
    exact ⟨r,hr.converse hanswered⟩

end Protocol

section Accepting

section

variable {S : ParamSet} {D : MlDsaCrate} (hS : D.SizesMatch S) (hC : D.SigningCorrect)

theorem keypair_ok (D : MlDsaCrate) : ∃ kp, keypair D = .ok kp := by
  have hseed : (List.replicate 32 42 : Bytes).length = 32 := rfl
  rw [keypair,Authorize.keypairOf,Keypair.fromSeed_ok hseed]
  exact ⟨_,rfl⟩

include hS in
theorem filled_writeTo (kp : Keypair D) : ∃ vk, filled (kp.verifyingKey.writeTo S (Arr.zero S.vkLen)) = .ok vk ∧
    vk.val = (D.encode kp.verifying.inner).val := by
  exact unwrapBuffer_writeEncoded ((Arr.length_val (D.encode kp.verifying.inner)).trans hS.verifyingKey)

include hS hC in
theorem filled_signInto (kp : Keypair D) (m : Bytes) :
    ∃ buf sig, filled (kp.signingKey.signInto S m [] (Arr.zero S.sigLen)) = .ok buf ∧
      D.signDeterministic kp.signing.inner m [] = some sig ∧ buf.val = (D.encodeSignature sig).val := by
  obtain ⟨seed,hseed⟩ := kp.seeded
  obtain ⟨sig,hsig⟩ := hC.sign_some seed m [] (Nat.zero_le _)
  rw [← hseed] at hsig
  obtain ⟨buf,hbuf,hval⟩ :=
    kp.signing.signInto_signed hS (Nat.zero_le _) (Arr.zero S.sigLen) (Nat.le_refl _) hsig
  refine ⟨buf,sig,unwrapBuffer_eq_ok.mpr ⟨_,hbuf⟩,hsig,?_⟩
  rw [hval,List.drop_of_length_le (by rw [Arr.length_val]),List.append_nil]

include hS hC in
/-- What one pair fills two buffers with belongs together. -/
theorem acceptsEncoded_filled (hV : D.KeepsVerification) {kp : Keypair D} {m : Bytes} {vk : Arr S.vkLen}
    {sig : Arr S.sigLen} (hvk : filled (kp.verifyingKey.writeTo S (Arr.zero S.vkLen)) = .ok vk)
    (hsig : filled (kp.signingKey.signInto S m [] (Arr.zero S.sigLen)) = .ok sig) :
    D.AcceptsEncoded vk.val m [] sig.val := by
  obtain ⟨vk',hvk',hkey⟩ := filled_writeTo hS kp
  obtain ⟨sig',signed,hsig',hsigned,hbytes⟩ := filled_signInto hS hC kp m
  obtain rfl := Except.ok.inj (hvk.symm.trans hvk')
  obtain rfl := Except.ok.inj (hsig.symm.trans hsig')
  rw [hkey,hbytes,MlDsaCrate.acceptsEncoded_iff (Arr.length_val _),hV.accepts_iff,kp.matching]
  exact accepts_signed hC kp hsigned

end

theorem b_ok {O : Type} {v : Bytes} (h : v.length ≤ u32Max) :
    (b v : Command (ScVal O)) = .ok (.bytes ⟨v,h⟩) := by
  rw [b,ScBytes.tryFrom_of_le h]
  rfl

/-- The contract at `C` returns `true` for the measured call. -/
def Accepted (P : BenchPlatform L F) (C : Verifier.HostCrypto) (m : Measurement L) : Prop :=
  ∃ args, m.args = .ok args ∧ m.function.run C P.crate P.crate44 args = .ok true

/-- Both crates keep their laws at the parameter sets they are linked for. -/
structure CratesCorrect (P : BenchPlatform L F) : Prop where
  sizes65 : P.crate.SizesMatch mldsa65
  sizes44 : P.crate44.SizesMatch mldsa44
  signing65 : P.crate.SigningCorrect
  signing44 : P.crate44.SigningCorrect
  keeps65 : P.crate.KeepsVerification
  keeps44 : P.crate44.KeepsVerification

/-- Where the fixed P-256 key signs, all vectors are made. -/
theorem vectors_ok (h : CratesCorrect P) {sk : P.p256.SigningKey} {sig : Arr 64}
    (hsk : P.p256.fromBytes ⟨List.replicate 32 0x11,rfl⟩ = some sk)
    (hsig : P.p256.signPrehash sk (P.sha256 msg32) = some sig) : ∃ v, vectors P = .ok v := by
  obtain ⟨kp65,hkp65⟩ := keypair_ok P.crate
  obtain ⟨vk65,hvk65,-⟩ := filled_writeTo h.sizes65 kp65
  obtain ⟨kp44,hkp44⟩ := keypair_ok P.crate44
  obtain ⟨vk44,hvk44,-⟩ := filled_writeTo h.sizes44 kp44
  obtain ⟨sig44,-,hsig44,-⟩ := filled_signInto h.sizes44 h.signing44 kp44 msg32
  simp only [vectors,hkp65,hvk65,hkp44,hvk44,hsig44,hsk,hsig,unwrap,ok_bind,pure_eq_ok]
  exact ⟨_,rfl⟩

structure MadeFrom (v : Vectors P) (kp44 : Keypair P.crate44) : Prop where
  vk65 : filled (v.kp65.verifyingKey.writeTo mldsa65 (Arr.zero mldsa65.vkLen)) = .ok v.vk65
  vk44 : filled (kp44.verifyingKey.writeTo mldsa44 (Arr.zero mldsa44.vkLen)) = .ok v.vk44
  sig44 : filled (kp44.signingKey.signInto mldsa44 msg32 [] (Arr.zero mldsa44.sigLen)) = .ok v.sig44
  ed25519 : ∃ seed, v.edKey = P.ed25519.verifyingKey seed ∧ v.edSig = P.ed25519.sign seed msg32
  secp256r1 : ∃ sk, P.p256.fromBytes ⟨List.replicate 32 0x11,rfl⟩ = some sk ∧
    P.p256.signPrehash sk (P.sha256 msg32) = some v.pSig ∧ v.pPoint = P.p256.encodedPoint sk

theorem vectors_madeFrom {v : Vectors P} (hv : vectors P = .ok v) : ∃ kp44, MadeFrom v kp44 := by
  obtain ⟨kp65,-,hv⟩ := bind_eq_ok.mp hv
  obtain ⟨vk65,hvk65,hv⟩ := bind_eq_ok.mp hv
  obtain ⟨kp44,-,hv⟩ := bind_eq_ok.mp hv
  obtain ⟨vk44,hvk44,hv⟩ := bind_eq_ok.mp hv
  obtain ⟨sig44,hsig44,hv⟩ := bind_eq_ok.mp hv
  obtain ⟨pSk,hpSk,hv⟩ := bind_eq_ok.mp hv
  obtain ⟨pSig,hpSig,hv⟩ := bind_eq_ok.mp hv
  obtain rfl := Except.ok.inj hv
  exact ⟨kp44,hvk65,hvk44,hsig44,⟨_,rfl,rfl⟩,pSk,unwrap_eq_ok.mp hpSk,unwrap_eq_ok.mp hpSig,rfl⟩

theorem three_b {O : Type} {x y z : Bytes} (hx : x.length ≤ u32Max) (hy : y.length ≤ u32Max)
    (hz : z.length ≤ u32Max) :
    ([x,y,z].mapM b : Command (List (ScVal O))) = .ok [.bytes ⟨x,hx⟩,.bytes ⟨y,hy⟩,.bytes ⟨z,hz⟩] := by
  simp only [List.mapM_cons,List.mapM_nil,b_ok hx,b_ok hy,b_ok hz,ok_bind,pure_eq_ok]

theorem arr_le {n : ℕ} (a : Arr n) (hn : n ≤ u32Max) : a.val.length ≤ u32Max := by
  rw [Arr.length_val]
  exact hn

variable {v : Vectors P} {kp44 : Keypair P.crate44} (h : CratesCorrect P) (hv : MadeFrom v kp44)
  (C : Verifier.HostCrypto)

include h hv in
/-- An honest ML-DSA-65 call is accepted exactly up to the contract's message buffer. -/
theorem verify65_call {m : Bytes} (hm : m.length ≤ u32Max) : ∃ args : List (ScVal L.OtherVal),
    (do let sig ← sign65 v.kp65 m
        [v.vk65.val,m,sig.val].mapM b) = .ok args ∧
      EntryPoint.verify65.run C P.crate P.crate44 args = .ok (decide (m.length ≤ 8192)) := by
  obtain ⟨sig,-,hsig,-⟩ := filled_signInto h.sizes65 h.signing65 v.kp65 m
  have haccepts := acceptsEncoded_filled h.sizes65 h.signing65 h.keeps65 hv.vk65 hsig
  have hsign : sign65 v.kp65 m = .ok sig := hsig
  rw [hsign,ok_bind]
  refine ⟨_,three_b (arr_le v.vk65 (by decide)) hm (arr_le sig (by decide)),?_⟩
  show Verifier.verifyWith mldsa65.vkLen mldsa65.sigLen mldsa65 P.crate v.vk65.val m sig.val = _
  rw [Verifier.verifyWith_eq h.sizes65]
  simp only [haccepts,and_true]

include h hv in
theorem verify44_call : ∃ args : List (ScVal L.OtherVal),
    [v.vk44.val,msg32,v.sig44.val].mapM b = .ok args ∧
      EntryPoint.verify44.run C P.crate P.crate44 args = .ok true := by
  have haccepts := acceptsEncoded_filled h.sizes44 h.signing44 h.keeps44 hv.vk44 hv.sig44
  refine ⟨_,three_b (arr_le v.vk44 (by decide)) (by decide) (arr_le v.sig44 (by decide)),?_⟩
  show Verifier.verifyWith mldsa44.vkLen mldsa44.sigLen mldsa44 P.crate44 v.vk44.val msg32 v.sig44.val = _
  rw [Verifier.verifyWith_eq h.sizes44,decide_eq_true ⟨by decide,haccepts⟩]

theorem one_b {O : Type} {x : Bytes} (hx : x.length ≤ u32Max) :
    ([x].mapM b : Command (List (ScVal O))) = .ok [.bytes ⟨x,hx⟩] := by
  simp only [List.mapM_cons,List.mapM_nil,b_ok hx,ok_bind,pure_eq_ok]

include h in
theorem decode_calls (v : Vectors P) : (∃ args : List (ScVal L.OtherVal), [v.vk65.val].mapM b = .ok args ∧
      EntryPoint.decode65.run C P.crate P.crate44 args = .ok true) ∧
    ∃ args : List (ScVal L.OtherVal), [v.vk44.val].mapM b = .ok args ∧
      EntryPoint.decode44.run C P.crate P.crate44 args = .ok true := by
  refine ⟨⟨_,one_b (arr_le v.vk65 (by decide)),?_⟩,⟨_,one_b (arr_le v.vk44 (by decide)),?_⟩⟩
  · show Verifier.decodeWith mldsa65.vkLen mldsa65 P.crate v.vk65.val = _
    rw [Verifier.decodeWith_eq h.sizes65,decide_eq_true (Arr.length_val _)]
  · show Verifier.decodeWith mldsa44.vkLen mldsa44 P.crate44 v.vk44.val = _
    rw [Verifier.decodeWith_eq h.sizes44,decide_eq_true (Arr.length_val _)]

theorem ed25519_call (v : Vectors P) : ∃ args : List (ScVal L.OtherVal),
    [v.edKey.val,msg32,v.edSig.val].mapM b = .ok args ∧
      EntryPoint.ed25519.run C P.crate P.crate44 args = Verifier.ed25519 C v.edKey msg32 v.edSig := by
  refine ⟨_,three_b (arr_le v.edKey (by decide)) (by decide) (arr_le v.edSig (by decide)),?_⟩
  simp only [EntryPoint.run,tryFrom_val]

theorem secp256r1_call (v : Vectors P) : ∃ args : List (ScVal L.OtherVal),
    [v.pPoint.val,msg32,v.pSig.val].mapM b = .ok args ∧
      EntryPoint.secp256r1.run C P.crate P.crate44 args = Verifier.secp256r1 C v.pPoint msg32 v.pSig := by
  refine ⟨_,three_b (arr_le v.pPoint (by decide)) (by decide) (arr_le v.pSig (by decide)),?_⟩
  simp only [EntryPoint.run,tryFrom_val]

variable {C} in
theorem accepted_iff {m : Measurement L} {args : List (ScVal L.OtherVal)} (hargs : m.args = .ok args) :
    Accepted P C m ↔ m.function.run C P.crate P.crate44 args = .ok true := by
  constructor
  · rintro ⟨args',hargs',hrun⟩
    rwa [Except.ok.inj (hargs.symm.trans hargs')]
  · exact fun hrun => ⟨args,hargs,hrun⟩

include h hv in
theorem sweepCall_accepted {len : ℕ} (hlen : len ≤ u32Max) : Accepted P C (sweepCall v len) ↔ len ≤ 8192 := by
  have hm : (List.replicate len 0x5A : Bytes).length = len := List.length_replicate
  obtain ⟨args,hargs,hrun⟩ := verify65_call h hv C (m := List.replicate len 0x5A) (hm.trans_le hlen)
  rw [accepted_iff (m := sweepCall v len) hargs]
  show EntryPoint.verify65.run C P.crate P.crate44 args = .ok true ↔ _
  rw [hrun,hm,Except.ok.injEq,decide_eq_true_eq]

variable (P) in
/-- Under the laws of the crates every measured call is one the contract accepts, that of
secp256r1 where the host accepts the fixed vector. The longest message of the sweep is
the longest the contract takes. -/
theorem bench_calls_accepted (h : CratesCorrect P)
    (hed : ∀ seed m, C.ed25519Verify (P.ed25519.verifyingKey seed) m (P.ed25519.sign seed m) = true) :
    ((∃ v, vectors P = .ok v) ↔ ∃ sk sig, P.p256.fromBytes ⟨List.replicate 32 0x11,rfl⟩ = some sk ∧
      P.p256.signPrehash sk (P.sha256 msg32) = some sig) ∧
    ∀ v, vectors P = .ok v →
      (∀ m ∈ plan v, Accepted P C m ↔
        (m.function = .secp256r1 → C.secp256r1Verify v.pPoint (C.sha256 msg32) v.pSig = true)) ∧
      ∀ len, len ≤ u32Max → (Accepted P C (sweepCall v len) ↔ len ≤ 8192) := by
  constructor
  · constructor
    · rintro ⟨v,hv⟩
      obtain ⟨kp44,hmade⟩ := vectors_madeFrom hv
      obtain ⟨sk,hsk,hsig,-⟩ := hmade.secp256r1
      exact ⟨sk,v.pSig,hsk,hsig⟩
    · rintro ⟨sk,sig,hsk,hsig⟩
      exact vectors_ok h hsk hsig
  · intro v hv
    obtain ⟨kp44,hmade⟩ := vectors_madeFrom hv
    have hsweep (len : ℕ) (hlen : len ≤ u32Max) := sweepCall_accepted h hmade C hlen
    refine ⟨?_,hsweep⟩
    have hother {m : Measurement L} (hm : m.function ≠ .secp256r1) (hacc : Accepted P C m) :
        Accepted P C m ↔
          (m.function = .secp256r1 → C.secp256r1Verify v.pPoint (C.sha256 msg32) v.pSig = true) :=
      ⟨fun _ hsecp => absurd hsecp hm,fun _ => hacc⟩
    simp only [plan,rowCalls,List.forall_mem_cons,List.forall_mem_append,List.forall_mem_map]
    refine ⟨?noop,⟨?ed25519,?secp256r1,?decode44,?verify44,?decode65,?verify65,List.forall_mem_nil _⟩,?sweep⟩
    case noop => exact hother nofun ⟨[],rfl,rfl⟩
    case ed25519 =>
      obtain ⟨args,hargs,hrun⟩ := ed25519_call C v
      obtain ⟨seed,hkey,hsig⟩ := hmade.ed25519
      rw [Verifier.ed25519,hkey,hsig,if_pos (hed seed msg32)] at hrun
      exact hother nofun ⟨args,hargs,hrun⟩
    case secp256r1 =>
      obtain ⟨args,hargs,hrun⟩ := secp256r1_call C v
      rw [accepted_iff hargs]
      show EntryPoint.secp256r1.run C P.crate P.crate44 args = .ok true ↔ _
      rw [hrun,Verifier.secp256r1]
      split <;> simp_all
    case decode44 => exact hother nofun (decode_calls h C v).2
    case verify44 => exact hother nofun (verify44_call h hmade C)
    case decode65 => exact hother nofun (decode_calls h C v).1
    case verify65 =>
      obtain ⟨args,hargs,hrun⟩ := verify65_call h hmade C (m := msg32) (by decide)
      exact hother nofun ⟨args,hargs,hrun⟩
    case sweep =>
      intro len hlen
      have hle : len ≤ 8192 := (by decide : ∀ len ∈ sweepLengths, len ≤ 8192) len hlen
      have hmax : len ≤ u32Max := hle.trans (by decide)
      exact hother nofun ((hsweep len hmax).mpr hle)

def samplePlatform : BenchPlatform contractLeaves codeKeys where
  toPlatform := {AuthorizeTool.samplePlatform with ed25519 := ⟨fun seed m => TagCrate.pad 64 (seed.val ++ m),id⟩}
  crate44 := TagCrate.crate mldsa44
  p256 := ⟨Arr 32,some,fun sk d => some (TagCrate.pad 64 (sk.val ++ d.val)),fun sk => TagCrate.pad 65 sk.val⟩

def sampleHost : Verifier.HostCrypto where
  sha256 := Sha256.digest
  ed25519Verify pk m sig := decide (sig = TagCrate.pad 64 (pk.val ++ m))
  secp256r1Verify pk d sig := decide (sig = TagCrate.pad 64 (pk.val.take 32 ++ d.val))

theorem samplePlatform_correct : CratesCorrect samplePlatform where
  sizes65 := TagCrate.sizesMatch mldsa65
  sizes44 := TagCrate.sizesMatch mldsa44
  signing65 := TagCrate.signingCorrect mldsa65
  signing44 := TagCrate.signingCorrect mldsa44
  keeps65 := (TagCrate.keysBijective mldsa65).keepsVerification
  keeps44 := (TagCrate.keysBijective mldsa44).keepsVerification

theorem sampleHost_accepts (sk d : Arr 32) :
    sampleHost.secp256r1Verify (TagCrate.pad 65 sk.val) d (TagCrate.pad 64 (sk.val ++ d.val)) = true := by
  have htake : (TagCrate.pad 65 sk.val).val.take 32 = sk.val := by
    rw [TagCrate.pad_val (by rw [Arr.length_val]; decide),List.take_left' (Arr.length_val sk)]
  apply decide_eq_true
  rw [htake]

/-- A message one byte longer than the longest of the sweep. -/
theorem bench_calls_accepted_8193 : ∃ v, vectors samplePlatform = .ok v ∧
    (∀ m ∈ plan v, Accepted samplePlatform sampleHost m) ∧
      ¬ Accepted samplePlatform sampleHost (sweepCall v 8193) := by
  obtain ⟨hmade,hcalls⟩ := bench_calls_accepted samplePlatform sampleHost samplePlatform_correct
    (fun _ _ => decide_eq_true rfl)
  obtain ⟨v,hv⟩ := hmade.mpr ⟨_,_,rfl,rfl⟩
  obtain ⟨hplan,hsweep⟩ := hcalls v hv
  refine ⟨v,hv,?_,?_⟩
  · intro m hm
    apply (hplan m hm).mpr
    intro _
    obtain ⟨kp44,hfrom⟩ := vectors_madeFrom hv
    obtain ⟨sk,hsk,hsig,hpoint⟩ := hfrom.secp256r1
    obtain rfl := Option.some.inj hsk
    rw [← Option.some.inj hsig,hpoint]
    exact sampleHost_accepts _ _
  · rw [hsweep 8193 (by decide)]
    decide

end Accepting

end BenchTool
end SorobanMlDsa.Cli

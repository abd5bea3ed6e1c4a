import SorobanMlDsa.Dialogue
import SorobanMlDsa.RawXdr

/-!
# Talking to the node

Every tool reaches the network through one function that posts a request and reads
JSON back. The node may answer anything, also nothing that is JSON, and differently
each time, so a tool is a dialogue with it.
-/

namespace SorobanMlDsa.Cli

open ByteSlice MachineInt SerdeJson Dialogue PrefixCode

/-- The requests the tools post. -/
inductive Request
  | getLedgerEntries (key : String) (xdrFormat : Option String)
  | simulateTransaction (transaction : String) (authMode : Option String)
  | sendTransaction (transaction : String)
  | getTransaction (hash : String)
  deriving DecidableEq

namespace Request

def method : Request → String
  | .getLedgerEntries _ _ => "getLedgerEntries"
  | .simulateTransaction _ _ => "simulateTransaction"
  | .sendTransaction _ => "sendTransaction"
  | .getTransaction _ => "getTransaction"

def params : Request → String
  | .getLedgerEntries key none => "\x7b\"keys\":[\"" ++ key ++ "\"]\x7d"
  | .getLedgerEntries key (some f) => "\x7b\"keys\":[\"" ++ key ++ "\"],\"xdrFormat\":\"" ++ f ++ "\"\x7d"
  | .simulateTransaction t none => "\x7b\"transaction\":\"" ++ t ++ "\"\x7d"
  | .simulateTransaction t (some m) =>
    "\x7b\"transaction\":\"" ++ t ++ "\",\"authMode\":\"" ++ m ++ "\"\x7d"
  | .sendTransaction t => "\x7b\"transaction\":\"" ++ t ++ "\"\x7d"
  | .getTransaction hash => "\x7b\"hash\":\"" ++ hash ++ "\"\x7d"

def body (r : Request) : String :=
  "\x7b\"jsonrpc\":\"2.0\",\"id\":1,\"method\":\"" ++ r.method ++ "\",\"params\":" ++ r.params ++ "\x7d"

end Request

/-- What comes back from running `curl`. -/
inductive Reply
  | notStarted
  | notJson (error stdout : String)
  | json (v : Value)

def Reply.read (method : String) : Reply → Command Value
  | .notStarted => .error (.expect "curl")
  | .notJson e out => .error (.expect ("bad json from " ++ method ++ ": " ++ e ++ "\n" ++ out))
  | .json v => .ok v

/-- A tool that returns an `A` or stops. -/
abbrev Tool (A : Type) := Talk Request Reply Abort A

abbrev lift {A : Type} (c : Command A) : Tool A := Talk.ofExcept c

def rpc (r : Request) : Tool Value := do
  let reply ← Talk.question r
  lift (reply.read r.method)

def accountKey (source : Arr 32) : String :=
  String.ofList (RawXdr.base64 (bigEndian 4 0 ++ (bigEndian 4 0 ++ source.val)))

namespace Rpc

def accountState (source : Arr 32) : Tool (Int64 × UInt32) := do
  let v ← rpc (.getLedgerEntries (accountKey source) (some "json"))
  lift (Cli.accountState v)

variable (X : StellarXdr)

def simulate (tx : Transaction X.Operation X.SorobanTransactionData) (authMode : Option String) :
    Tool (Except String (SimResult X)) := do
  let b64 ← lift (unwrap (X.envelopeToXdrBase64 ⟨tx,[]⟩))
  let v ← rpc (.simulateTransaction b64 authMode)
  return Cli.simulate X v

/-- The polling loop, `left` rounds before it gives up. -/
def poll (hash : String) : ℕ → Tool Value
  | 0 => lift (.error (.expect "timed out waiting for inclusion"))
  | left+1 => do
    let g ← rpc (.getTransaction hash)
    if ((g.field "result").field "status").asStr ≠ some "NOT_FOUND" then
      lift (unwrap (g.setField "_hash" (.string hash)))
    else poll hash left

def awaitInclusion (transaction hash : String) : Tool Value := do
  let send ← rpc (.sendTransaction transaction)
  match ((send.field "result").get "errorResultXdr").bind Value.asStr with
  | some e => lift (.error (.expect ("rejected: " ++ e)))
  | none => poll hash 40

variable {X}

/-- The transaction with the simulated resources and fee. -/
def withResources (b : Build) (tx : Transaction X.Operation X.SorobanTransactionData) (sim : SimResult X) :
    Checked (Transaction X.Operation X.SorobanTransactionData) := do
  let fee ← add b sim.minFee 1000
  return {tx with ext := some sim.data, fee := cast UInt32 fee}

/-- The one signature put on a transaction with this hash. -/
def decorate (K : Ed25519) (seed hash : Arr 32) : DecoratedSignature :=
  ⟨(K.verifyingKey seed).val.drop 28,(K.sign seed hash.val).val⟩

def submit (b : Build) (K : Ed25519) (sha256 : Bytes → Arr 32)
    (tx : Transaction X.Operation X.SorobanTransactionData) (sim : SimResult X) (seed networkId : Arr 32) :
    Tool Value := do
  let tx ← lift (arithmetic (withResources b tx sim))
  let payload ← lift (unwrap (X.payloadToXdr networkId tx))
  let hash := sha256 payload
  let b64 ← lift (unwrap (X.envelopeToXdrBase64 ⟨tx,[decorate K seed hash]⟩))
  awaitInclusion b64 (hex hash.val)

end Rpc

/-- The node, as far as submitting a transaction talks to it. `getTransaction` is
asked again and again, so its reply depends on how often. -/
structure Node where
  sendTransaction : (transaction : String) → Value
  getTransaction : ℕ → (hash : String) → Value

def Node.party (N : Node) : Party Request Reply := fun past q =>
  match q with
  | .sendTransaction t => .json (N.sendTransaction t)
  | .getTransaction hash => .json (N.getTransaction (past.countP fun e => e.1.method == "getTransaction") hash)
  | _ => .json .null

/-- What a submission does to the outside. -/
inductive Effect (X : StellarXdr)
  | signed (tx : Transaction X.Operation X.SorobanTransactionData) (hash : Arr 32)
  | sent (transaction : String)

structure Submission (X : StellarXdr) where
  effects : List (Effect X)
  result : Command Value

section

variable {X : StellarXdr} (b : Build) (K : Ed25519) (sha256 : Bytes → Arr 32) (N : Node)
  (tx : Transaction X.Operation X.SorobanTransactionData) (sim : SimResult X) (seed networkId : Arr 32)

/-- What `submit` signs and sends: that much is settled before anything is answered. -/
def effects : List (Effect X) :=
  match Rpc.withResources b tx sim with
  | .error _ => []
  | .ok tx =>
    match X.payloadToXdr networkId tx with
    | none => []
    | some payload =>
      let hash := sha256 payload
      match X.envelopeToXdrBase64 ⟨tx,[Rpc.decorate K seed hash]⟩ with
      | none => [.signed tx hash]
      | some transaction => [.signed tx hash,.sent transaction]

/-- Attach the simulated resources, sign, send, and wait. -/
def submit : Submission X where
  effects := effects b K sha256 tx sim seed networkId
  result := (converse N.party [] (Rpc.submit b K sha256 tx sim seed networkId)).2

end

namespace Rpc

section Rules

variable {allowed : Said Request Reply → Request → Prop} {past : Said Request Reply} {A : Type}

theorem meets_rpc_bind {good : Said Request Reply → A → Prop} {r : Request} {f : Value → Tool A}
    (hallowed : allowed past r)
    (h : ∀ v, Meets allowed (Returning good) (past ++ [(r,.json v)]) (f v)) :
    Meets allowed (Returning good) past (rpc r >>= f) := by
  refine ⟨hallowed,?_⟩
  intro reply
  cases reply with
  | notStarted => exact returning_error
  | notJson e out => exact returning_error
  | json v => exact h v

theorem accountState_meets {source : Arr 32}
    (hallowed : allowed past (.getLedgerEntries (accountKey source) (some "json"))) :
    Meets allowed (Returning fun said st => ∃ v, Cli.accountState v = .ok st ∧
      said = past ++ [(.getLedgerEntries (accountKey source) (some "json"),.json v)]) past
      (accountState source) := by
  apply meets_rpc_bind hallowed
  intro v
  apply meets_ofExcept.mpr
  intro st hst
  exact ⟨v,hst,rfl⟩

/-- `simulate` shows the transaction unsigned and reads what it is answered. -/
theorem simulate_meets {X : StellarXdr} {tx : Transaction X.Operation X.SorobanTransactionData}
    {authMode : Option String}
    (hallowed : ∀ t, X.envelopeToXdrBase64 ⟨tx,[]⟩ = some t → allowed past (.simulateTransaction t authMode)) :
    Meets allowed (Returning fun said reply => ∃ t v, X.envelopeToXdrBase64 ⟨tx,[]⟩ = some t ∧
      said = past ++ [(.simulateTransaction t authMode,.json v)] ∧ reply = Cli.simulate X v) past
      (simulate X tx authMode) := by
  apply meets_ofExcept_bind
  intro t ht
  have henv := unwrap_eq_ok.mp ht
  apply meets_rpc_bind (hallowed t henv)
  intro v
  show Returning _ _ (Except.ok (Cli.simulate X v))
  rw [returning_ok]
  exact ⟨t,v,henv,rfl,rfl⟩

/-- Polls of one transaction, all answered that it is not found. -/
def Waiting (hash : String) (polls : Said Request Reply) : Prop :=
  ∀ e ∈ polls, ∃ g, e = (.getTransaction hash,.json g) ∧
    ((g.field "result").field "status").asStr = some "NOT_FOUND"

/-- The reply that ends the wait, and the value made of it. -/
def Found (hash : String) (g v : Value) : Prop :=
  ((g.field "result").field "status").asStr ≠ some "NOT_FOUND" ∧ g.setField "_hash" (.string hash) = some v

theorem poll_meets {base : Said Request Reply} {hash : String} {rounds : ℕ}
    (hallowed : ∀ polls, Waiting hash polls → polls.length < rounds →
      allowed (base ++ polls) (.getTransaction hash))
    (left : ℕ) (polls : Said Request Reply) (hwait : Waiting hash polls) (hleft : polls.length + left = rounds) :
    Meets allowed (Returning fun said v => ∃ polls g, Waiting hash polls ∧ polls.length < rounds ∧
      said = base ++ polls ++ [(.getTransaction hash,.json g)] ∧ Found hash g v) (base ++ polls)
      (poll hash left) := by
  induction left generalizing polls with
  | zero => exact returning_error
  | succ left ih =>
    have hlt : polls.length < rounds := by omega
    apply meets_rpc_bind (hallowed polls hwait hlt)
    intro g
    split
    · rename_i hfound
      apply meets_ofExcept.mpr
      intro v hv
      exact ⟨polls,g,hwait,hlt,rfl,hfound,unwrap_eq_ok.mp hv⟩
    · rename_i hstatus
      rw [List.append_assoc]
      apply ih
      · intro e he
        rcases List.mem_append.mp he with he | he
        · exact hwait e he
        · exact ⟨g,List.mem_singleton.mp he,not_not.mp hstatus⟩
      · rw [List.length_append,List.length_singleton]
        omega

variable {X : StellarXdr} (b : Build) (K : Ed25519) (sha256 : Bytes → Arr 32) (seed networkId : Arr 32)

/-- `t` is `tx` with the resources of `sim` under one signature, and `hash` is what the
signature is over. -/
def Seals (tx : Transaction X.Operation X.SorobanTransactionData) (sim : SimResult X) (t : String)
    (hash : Arr 32) : Prop :=
  ∃ final payload, withResources b tx sim = .ok final ∧ X.payloadToXdr networkId final = some payload ∧
    sha256 payload = hash ∧ X.envelopeToXdrBase64 ⟨final,[decorate K seed hash]⟩ = some t

/-- A transaction was taken, as far as the reply to sending it says. -/
def Taken (v : Value) : Prop := ((v.field "result").get "errorResultXdr").bind Value.asStr = none

variable {b K sha256 seed networkId}

/-- `submit` sends one sealed transaction, asks for its hash, and returns what it finds. -/
theorem submit_meets {tx : Transaction X.Operation X.SorobanTransactionData} {sim : SimResult X}
    (hsend : ∀ t hash, Seals b K sha256 seed networkId tx sim t hash → allowed past (.sendTransaction t))
    (hpoll : ∀ t hash v polls, Seals b K sha256 seed networkId tx sim t hash → Taken v →
      Waiting (hex hash.val) polls → polls.length < 40 →
      allowed (past ++ [(.sendTransaction t,.json v)] ++ polls) (.getTransaction (hex hash.val))) :
    Meets allowed (Returning fun said r => ∃ t hash v polls g, Seals b K sha256 seed networkId tx sim t hash ∧
      Taken v ∧ Waiting (hex hash.val) polls ∧ polls.length < 40 ∧
      said = past ++ [(.sendTransaction t,.json v)] ++ polls ++ [(.getTransaction (hex hash.val),.json g)] ∧
      Found (hex hash.val) g r) past (submit b K sha256 tx sim seed networkId) := by
  apply meets_ofExcept_bind
  intro final hfinal
  apply meets_ofExcept_bind
  intro payload hpayload
  apply meets_ofExcept_bind
  intro t ht
  have hseals : Seals b K sha256 seed networkId tx sim t (sha256 payload) :=
    ⟨final,payload,arithmetic_eq_ok.mp hfinal,unwrap_eq_ok.mp hpayload,rfl,unwrap_eq_ok.mp ht⟩
  apply meets_rpc_bind (hsend t _ hseals)
  intro v
  cases htaken : ((v.field "result").get "errorResultXdr").bind Value.asStr with
  | some e => exact returning_error
  | none =>
    have hwait := poll_meets (fun polls hp hlt => hpoll t _ v polls hseals htaken hp hlt) 40 []
      (by simp [Waiting]) rfl
    rw [List.append_nil] at hwait
    apply Meets.imp hwait
    rintro said r ⟨polls,g,hp,hlt,hsaid,hfound⟩
    exact ⟨t,_,v,polls,g,hseals,htaken,hp,hlt,hsaid,hfound⟩

section Follows

variable {X : StellarXdr}

theorem rpc_follows (r : Request) (v : Value) : Follows (rpc r) [(r,.json v)] (.ok v) := .ask (.done v)

/-- A tool goes on after a request that was answered in JSON, and after no other. -/
theorem follows_rpc_bind {A : Type} {r : Request} {f : Value → Tool A} {said : Said Request Reply} {a : A} :
    Follows (rpc r >>= f) said (.ok a) ↔ ∃ v rest, said = (r,.json v)::rest ∧ Follows (f v) rest (.ok a) := by
  constructor
  · intro h
    obtain ⟨reply,rest,rfl,hnext⟩ := follows_ask.mp h
    cases reply with
    | notStarted => exact absurd hnext not_follows_stop_ok
    | notJson e out => exact absurd hnext not_follows_stop_ok
    | json v => exact ⟨v,rest,rfl,hnext⟩
  · rintro ⟨v,rest,rfl,h⟩
    exact .ask h

theorem asks_rpc_bind {A : Type} {r q : Request} {f : Value → Tool A} {said : Said Request Reply} :
    Asks (rpc r >>= f) said q ↔
      (said = [] ∧ q = r) ∨ ∃ v rest, said = (r,.json v)::rest ∧ Asks (f v) rest q := by
  constructor
  · intro h
    rcases asks_ask.mp h with hfirst | ⟨reply,rest,rfl,hnext⟩
    · exact .inl hfirst
    · cases reply with
      | notStarted => exact absurd hnext not_asks_stop
      | notJson e out => exact absurd hnext not_asks_stop
      | json v => exact .inr ⟨v,rest,rfl,hnext⟩
  · rintro (⟨rfl,rfl⟩ | ⟨v,rest,rfl,h⟩)
    · exact .here q _
    · exact .later h

theorem accountState_follows {source : Arr 32} {v : Value} {st : Int64 × UInt32}
    (h : Cli.accountState v = .ok st) :
    Follows (accountState source) [(.getLedgerEntries (accountKey source) (some "json"),.json v)] (.ok st) := by
  rw [← h]
  exact (rpc_follows _ v).bind_silent (follows_ofExcept _)

theorem simulate_follows {tx : Transaction X.Operation X.SorobanTransactionData} {authMode : Option String}
    {t : String} (h : X.envelopeToXdrBase64 ⟨tx,[]⟩ = some t) (v : Value) :
    Follows (simulate X tx authMode) [(.simulateTransaction t authMode,.json v)] (.ok (Cli.simulate X v)) := by
  apply Follows.ofExcept_bind (unwrap_eq_ok.mpr h)
  exact (rpc_follows _ v).bind_silent (.done (Cli.simulate X v))

theorem poll_follows {hash : String} {left : ℕ} {polls : Said Request Reply} {g v : Value}
    (hwait : Waiting hash polls) (hlt : polls.length < left) (hfound : Found hash g v) :
    Follows (poll hash left) (polls ++ [(.getTransaction hash,.json g)]) (.ok v) := by
  induction polls generalizing left with
  | nil =>
    cases left with
    | zero => simp at hlt
    | succ left =>
      apply (rpc_follows _ g).bind_silent
      rw [if_pos hfound.1,lift,unwrap_eq_ok.mpr hfound.2]
      exact .done v
  | cons e polls ih =>
    obtain ⟨g',rfl,hstatus⟩ := hwait e (List.mem_cons_self ..)
    cases left with
    | zero => simp at hlt
    | succ left =>
      apply (rpc_follows _ g').bind
      rw [if_neg (not_not.mpr hstatus)]
      exact ih (fun e he => hwait e (List.mem_cons_of_mem _ he)) (by simpa using hlt)

theorem submit_follows {tx : Transaction X.Operation X.SorobanTransactionData} {sim : SimResult X} {t : String}
    {hash : Arr 32} {v g r : Value} {polls : Said Request Reply}
    (hseals : Seals b K sha256 seed networkId tx sim t hash) (htaken : Taken v)
    (hwait : Waiting (hex hash.val) polls) (hlt : polls.length < 40) (hfound : Found (hex hash.val) g r) :
    Follows (submit b K sha256 tx sim seed networkId)
      ((.sendTransaction t,.json v)::(polls ++ [(.getTransaction (hex hash.val),.json g)])) (.ok r) := by
  obtain ⟨final,payload,hfinal,hpayload,rfl,ht⟩ := hseals
  apply Follows.ofExcept_bind (arithmetic_eq_ok.mpr hfinal)
  apply Follows.ofExcept_bind (unwrap_eq_ok.mpr hpayload)
  apply Follows.ofExcept_bind (unwrap_eq_ok.mpr ht)
  apply (rpc_follows _ v).bind
  rw [Taken] at htaken
  rw [htaken]
  exact poll_follows hwait hlt hfound

end Follows

end Rules

section

variable {X : StellarXdr} {b : Build} {K : Ed25519} {sha256 : Bytes → Arr 32}
  {tx : Transaction X.Operation X.SorobanTransactionData} {sim : SimResult X} {seed networkId : Arr 32} {t : String}

theorem sent_iff_seals : .sent t ∈ effects b K sha256 tx sim seed networkId ↔
    ∃ hash, Seals b K sha256 seed networkId tx sim t hash := by
  constructor
  · intro h
    cases hfinal : withResources b tx sim with
    | error f => simp [effects,hfinal] at h
    | ok final =>
      cases hpayload : X.payloadToXdr networkId final with
      | none => simp [effects,hfinal,hpayload] at h
      | some payload =>
        cases henv : X.envelopeToXdrBase64 ⟨final,[decorate K seed (sha256 payload)]⟩ with
        | none => simp [effects,hfinal,hpayload,henv] at h
        | some text =>
          obtain rfl : t = text := by simpa [effects,hfinal,hpayload,henv] using h
          exact ⟨_,final,payload,hfinal,hpayload,rfl,henv⟩
  · rintro ⟨hash,final,payload,hfinal,hpayload,rfl,henv⟩
    simp [effects,hfinal,hpayload,henv]

/-- Whoever answers, `submit` sends what its effects say and nothing else. -/
theorem sent_iff (node : Party Request Reply) : .sent t ∈ effects b K sha256 tx sim seed networkId ↔
    ∃ r, (.sendTransaction t,r) ∈ (converse node [] (submit b K sha256 tx sim seed networkId)).1 := by
  rw [sent_iff_seals]
  constructor
  · rintro ⟨hash,final,payload,hfinal,hpayload,rfl,henv⟩
    simp only [submit,awaitInclusion,lift,arithmetic_eq_ok.mpr hfinal,unwrap_eq_ok.mpr hpayload,
      unwrap_eq_ok.mpr henv,Talk.ofExcept_ok,Talk.done_bind]
    exact ⟨_,converse_ask_mem ..⟩
  · rintro ⟨r,hr⟩
    have hmeets : Meets
        (fun _ q => ∀ t, q = .sendTransaction t → ∃ hash, Seals b K sha256 seed networkId tx sim t hash)
        _ [] (submit b K sha256 tx sim seed networkId) := submit_meets ?hsend ?hpoll
    case hsend =>
      rintro t hash hseals t' ht
      obtain rfl := Request.sendTransaction.inj ht
      exact ⟨hash,hseals⟩
    case hpoll =>
      intro t hash v polls _ _ _ _ t' ht
      cases ht
    obtain ⟨before,after,hsaid⟩ := List.append_of_mem hr
    exact (hmeets.converse orderly_nil node).1 before _ r after hsaid t rfl

end

end Rpc
end SorobanMlDsa.Cli

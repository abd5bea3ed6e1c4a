import SorobanMlDsa.ByteSlice
import SorobanMlDsa.SerdeJson

/-!
# The command-line plumbing

Account state, simulation and submission, as functions of the replies the node
gives. XDR and Ed25519 come from other crates and enter as records. What leaves the
program is kept as a list of effects, so that not signing is something a run can do.
-/

namespace SorobanMlDsa.Cli

open ByteSlice MachineInt SerdeJson

/-- The ways a command stops before its end. -/
inductive Abort
  | arithmetic (f : Fault)
  | panic (p : Panic)
  | unwrap
  | expect (message : String)
  deriving DecidableEq, Repr

abbrev Command (α : Type) := Except Abort α

def arithmetic {α : Type} (r : Checked α) : Command α := r.mapError .arithmetic

def unwrap {α : Type} (r : Option α) : Command α :=
  match r with
  | none => .error .unwrap
  | some a => .ok a

theorem arithmetic_eq_ok {α : Type} {r : Checked α} {a : α} : arithmetic r = .ok a ↔ r = .ok a := by
  cases r <;> simp [arithmetic,Except.mapError]

theorem unwrap_eq_ok {α : Type} {r : Option α} {a : α} : unwrap r = .ok a ↔ r = some a := by
  cases r <;> simp [unwrap]

def expect {α : Type} (r : Option α) (message : String) : Command α :=
  match r with
  | none => .error (.expect message)
  | some a => .ok a

/-- Sequence number and latest ledger, from the reply to `getLedgerEntries`. -/
def accountState (v : Value) : Command (Int64 × UInt32) := do
  let entry := ((v.field "result").field "entries").item 0
  let sn := ((entry.field "dataJson").field "account").field "seq_num"
  let seq ← expect (sn.asI64.or (sn.asStr.bind (parse Int64))) "seq_num"
  let latest ← unwrap ((v.field "result").field "latestLedger").asU64
  return (seq,cast UInt32 latest)

structure Transaction (Operation Data : Type) where
  sourceAccount : Arr 32
  fee : UInt32
  seqNum : Int64
  operations : List Operation
  /-- `TransactionExt`: `V0`, or `V1` with its data. -/
  ext : Option Data

structure DecoratedSignature where
  hint : Bytes
  signature : Bytes
  deriving DecidableEq

structure Envelope (Operation Data : Type) where
  tx : Transaction Operation Data
  signatures : List DecoratedSignature

/-- What the tools use of `stellar_xdr`. -/
structure StellarXdr where
  Operation : Type
  SorobanTransactionData : Type
  instructions : SorobanTransactionData → UInt32
  diskReadBytes : SorobanTransactionData → UInt32
  writeBytes : SorobanTransactionData → UInt32
  dataFromXdrBase64 : String → Except String SorobanTransactionData
  payloadToXdr : (networkId : Arr 32) → Transaction Operation SorobanTransactionData → Option Bytes
  envelopeToXdrBase64 : Envelope Operation SorobanTransactionData → Option String

/-- Without limits every payload has an encoding. -/
def StellarXdr.EncodesPayloads (X : StellarXdr) : Prop :=
  ∀ networkId tx, ∃ bytes, X.payloadToXdr networkId tx = some bytes

/-- What the tools use of `ed25519_dalek`. -/
structure Ed25519 where
  sign : (seed : Arr 32) → Bytes → Arr 64
  verifyingKey : (seed : Arr 32) → Arr 32

variable (X : StellarXdr)

def buildTx (source : Arr 32) (seq : Int64) (op : X.Operation) :
    Transaction X.Operation X.SorobanTransactionData :=
  ⟨source,1000000,seq,[op],none⟩

structure SimResult where
  instructions : UInt32
  diskReadBytes : UInt32
  writeBytes : UInt32
  minFee : Int64
  data : X.SorobanTransactionData

/-- The outcome of `simulate`, from the reply to `simulateTransaction`. -/
def simulate (v : Value) : Except String (SimResult X) :=
  match ((v.field "result").get "error").bind Value.asStr with
  | some e => .error e
  | none =>
    match ((v.field "result").field "transactionData").asStr with
    | none => .error "no transactionData"
    | some s => do
      let data ← X.dataFromXdrBase64 s
      return {
        instructions := X.instructions data
        diskReadBytes := X.diskReadBytes data
        writeBytes := X.writeBytes data
        minFee := (((v.field "result").field "minResourceFee").asStr.bind (parse Int64)).getD 0
        data := data }

def hex (bytes : Bytes) : String :=
  String.ofList (bytes.flatMap fun b => [Nat.digitChar (b.toNat / 16),Nat.digitChar (b.toNat % 16)])

end SorobanMlDsa.Cli

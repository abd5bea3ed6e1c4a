import SorobanMlDsa.Cli
import SorobanMlDsa.PrefixCode

/-! An executable `StellarXdr` that keeps an operation as its encoding and knows the
transaction data without a footprint. Everything around these is laid out as on the
wire: integers big-endian, a union tag in front of every arm, arrays counted. -/
namespace SorobanMlDsa.Cli.RawXdr

open ByteSlice PrefixCode

/-- `SorobanTransactionData` with an empty footprint. -/
structure Data where
  instructions : UInt32
  diskReadBytes : UInt32
  writeBytes : UInt32
  resourceFee : UInt64
  deriving DecidableEq

def Data.toXdr (d : Data) : Bytes :=
  bigEndian 4 0 ++ (bigEndian 4 0 ++ (bigEndian 4 0 ++ (bigEndian 4 d.instructions.toNat ++
    (bigEndian 4 d.diskReadBytes.toNat ++ (bigEndian 4 d.writeBytes.toNat ++
      bigEndian 8 d.resourceFee.toNat)))))

def extToXdr : Option Data → Bytes
  | none => bigEndian 4 0
  | some d => bigEndian 4 1 ++ d.toXdr

def txToXdr (tx : Transaction Bytes Data) : Bytes :=
  bigEndian 4 0 ++ (tx.sourceAccount.val ++ (bigEndian 4 tx.fee.toNat ++
    (bigEndian 8 tx.seqNum.toUInt64.toNat ++ (bigEndian 4 0 ++ (bigEndian 4 0 ++
      (bigEndian 4 tx.operations.length ++ (tx.operations.flatten ++ extToXdr tx.ext)))))))

/-- Opaque bytes are padded to a multiple of four. -/
def opaqueToXdr (b : Bytes) : Bytes :=
  bigEndian 4 b.length ++ (b ++ List.replicate ((4 - b.length % 4) % 4) 0)

def envelopeToXdr (env : Envelope Bytes Data) : Bytes :=
  bigEndian 4 2 ++ (txToXdr env.tx ++ (bigEndian 4 env.signatures.length ++
    env.signatures.flatMap fun s => s.hint ++ opaqueToXdr s.signature))

def base64Digit (n : ℕ) : Char :=
  "ABCDEFGHIJKLMNOPQRSTUVWXYZabcdefghijklmnopqrstuvwxyz0123456789+/".toList.getD n '='

def base64 : Bytes → List Char
  | [] => []
  | [a] => [base64Digit (a.toNat / 4),base64Digit (a.toNat % 4 * 16),'=','=']
  | [a,b] => [base64Digit (a.toNat / 4),base64Digit (a.toNat % 4 * 16 + b.toNat / 16),
      base64Digit (b.toNat % 16 * 4),'=']
  | a::b::c::rest => base64Digit (a.toNat / 4) :: base64Digit (a.toNat % 4 * 16 + b.toNat / 16) ::
      base64Digit (b.toNat % 16 * 4 + c.toNat / 64) :: base64Digit (c.toNat % 64) :: base64 rest

def idle : Data := ⟨0,0,0,0⟩

@[reducible] def xdr : StellarXdr where
  Operation := Bytes
  SorobanTransactionData := Data
  instructions := Data.instructions
  diskReadBytes := Data.diskReadBytes
  writeBytes := Data.writeBytes
  dataFromXdrBase64 s :=
    if s.toList = base64 idle.toXdr then .ok idle else .error "not the idle transaction data"
  payloadToXdr networkId tx := some (networkId.val ++ (bigEndian 4 2 ++ txToXdr tx))
  envelopeToXdrBase64 env := some (String.ofList (base64 (envelopeToXdr env)))

example : base64 idle.toXdr = "AAAAAAAAAAAAAAAAAAAAAAAAAAAAAAAAAAAAAAAAAAA=".toList := by
  decide +kernel

theorem xdr_encodesPayloads : xdr.EncodesPayloads := fun _ _ => ⟨_,rfl⟩

end SorobanMlDsa.Cli.RawXdr

import SorobanMlDsa.Auth
import SorobanMlDsa.RawXdr

/-!
# Transactions on the wire

A transaction is laid out down to the leaves of its call tree and to the ledger keys of
its footprint. What the tools leave at an empty arm (the operation's own source, the
preconditions, the memo) is a constant word of the layout.
-/

namespace SorobanMlDsa

open ByteSlice PrefixCode AuthorizationPayload

section Entry

variable {L : XdrLeaves}

def SorobanAddressCredentials.toXdr : Encoder (SorobanAddressCredentials L) UInt8 := fun c =>
  both L.scAddress (both i64Xdr (both u32Xdr L.scVal))
    (c.address,c.nonce,c.signatureExpirationLedger,c.signature)

/-- The arm of the union; `SOROBAN_CREDENTIALS_SOURCE_ACCOUNT` has none. -/
def SorobanCredentials.arm : SorobanCredentials L → Option (SorobanAddressCredentials L)
  | .sourceAccount => none
  | .address c => some c

def SorobanCredentials.toXdr : Encoder (SorobanCredentials L) UInt8 := fun c =>
  optional (bigEndian 4 0) (bigEndian 4 1) SorobanAddressCredentials.toXdr c.arm

def SorobanAuthorizationEntry.toXdr : Encoder (SorobanAuthorizationEntry L) UInt8 := fun e =>
  both SorobanCredentials.toXdr SorobanAuthorizedInvocation.toXdr (e.credentials,e.rootInvocation)

theorem tag_ne : bigEndian 4 0 ≠ bigEndian 4 1 := by decide

theorem SorobanAddressCredentials.toXdr_selfDelimiting (hL : L.Unambiguous) :
    SelfDelimiting (SorobanAddressCredentials.toXdr (L := L)) := by
  have haddr := (selfDelimiting_iff _).mpr hL.scAddress
  have hval := (selfDelimiting_iff _).mpr hL.scVal
  apply SelfDelimiting.comap (haddr.both (i64Xdr_selfDelimiting.both (u32Xdr_selfDelimiting.both hval)))
  intro x y h
  simp only [Prod.mk.injEq] at h
  cases x; cases y
  simp only [SorobanAddressCredentials.mk.injEq]
  exact h

theorem SorobanCredentials.toXdr_selfDelimiting (hL : L.Unambiguous) :
    SelfDelimiting (SorobanCredentials.toXdr (L := L)) := by
  apply SelfDelimiting.comap ((SorobanAddressCredentials.toXdr_selfDelimiting hL).optional (by simp) tag_ne)
  intro x y h
  cases x <;> cases y <;> simp_all [arm]

theorem SorobanAuthorizationEntry.toXdr_selfDelimiting (hL : L.Unambiguous) :
    SelfDelimiting (SorobanAuthorizationEntry.toXdr (L := L)) := by
  apply SelfDelimiting.comap ((SorobanCredentials.toXdr_selfDelimiting hL).both
    (SorobanAuthorizedInvocation.toXdr_selfDelimiting hL))
  intro x y h
  cases x; cases y
  simp only [SorobanAuthorizationEntry.mk.injEq]
  exact Prod.mk.inj h

end Entry

namespace Cli

section Types

variable (L : XdrLeaves)

/-- An operation that invokes a contract, with the entries that authorize it. -/
structure Operation where
  hostFunction : InvokeContractArgs L
  auth : List (SorobanAuthorizationEntry L)

/-- The ledger keys a footprint lists, with their encoder. -/
structure LedgerKeys where
  LedgerKey : Type
  ledgerKey : Encoder LedgerKey UInt8

variable (F : LedgerKeys)

structure SorobanResources where
  readOnly : List F.LedgerKey
  readWrite : List F.LedgerKey
  instructions : UInt32
  diskReadBytes : UInt32
  writeBytes : UInt32

structure SorobanTransactionData where
  /-- `SorobanTransactionDataExt`: `V0`, or `V1` with the archived entries. -/
  ext : Option (List UInt32)
  resources : SorobanResources F
  resourceFee : Int64

abbrev SorobanTransaction := Transaction (Operation L) (SorobanTransactionData F)

end Types

variable {L : XdrLeaves} {F : LedgerKeys}

/-- No source account, `INVOKE_HOST_FUNCTION`, `HOST_FUNCTION_TYPE_INVOKE_CONTRACT`. -/
def Operation.toXdr : Encoder (Operation L) UInt8 := fun o =>
  tagged (bigEndian 4 0 ++ bigEndian 4 24 ++ bigEndian 4 0)
    (both InvokeContractArgs.toXdr (counted (uint 4) SorobanAuthorizationEntry.toXdr))
    (o.hostFunction,o.auth)

def SorobanResources.toXdr : Encoder (SorobanResources F) UInt8 := fun r =>
  both (counted (uint 4) F.ledgerKey) (both (counted (uint 4) F.ledgerKey)
    (both u32Xdr (both u32Xdr u32Xdr)))
    (r.readOnly,r.readWrite,r.instructions,r.diskReadBytes,r.writeBytes)

def SorobanTransactionData.toXdr : Encoder (SorobanTransactionData F) UInt8 := fun d =>
  both (optional (bigEndian 4 0) (bigEndian 4 1) (counted (uint 4) u32Xdr))
    (both SorobanResources.toXdr i64Xdr) (d.ext,d.resources,d.resourceFee)

/-- `KEY_TYPE_ED25519` in front of the source, `PRECOND_NONE` and `MEMO_NONE` in the
middle. -/
def txToXdr : Encoder (SorobanTransaction L F) UInt8 := fun tx =>
  tagged (bigEndian 4 0) (both hashXdr (both u32Xdr (both i64Xdr
    (tagged (bigEndian 4 0 ++ bigEndian 4 0) (both (counted (uint 4) Operation.toXdr)
      (optional (bigEndian 4 0) (bigEndian 4 1) SorobanTransactionData.toXdr))))))
    (tx.sourceAccount,tx.fee,tx.seqNum,tx.operations,tx.ext)

def DecoratedSignature.toXdr : Encoder DecoratedSignature UInt8 := fun s =>
  both (fixed 4) (varBytes 4) (s.hint,s.signature)

/-- `TransactionSignaturePayload`, the union arm `ENVELOPE_TYPE_TX`. -/
def payloadToXdr (networkId : Arr 32) (tx : SorobanTransaction L F) : Option Bytes :=
  both hashXdr (tagged (bigEndian 4 2) txToXdr) (networkId,tx)

def envelopeToXdr : Encoder (Envelope (Operation L) (SorobanTransactionData F)) UInt8 := fun env =>
  tagged (bigEndian 4 2) (both txToXdr (counted (uint 4) DecoratedSignature.toXdr)) (env.tx,env.signatures)

variable (L F) in
/-- `stellar_xdr` at this layout; only reading transaction data back is left open. -/
@[reducible] def wireXdr (dataFromXdrBase64 : String → Except String (SorobanTransactionData F)) :
    StellarXdr where
  Operation := Operation L
  SorobanTransactionData := SorobanTransactionData F
  instructions d := d.resources.instructions
  diskReadBytes d := d.resources.diskReadBytes
  writeBytes d := d.resources.writeBytes
  dataFromXdrBase64 := dataFromXdrBase64
  payloadToXdr := payloadToXdr
  envelopeToXdrBase64 env := (envelopeToXdr env).map fun b => String.ofList (RawXdr.base64 b)

section Reading

/-- No ledger key is confused with another one or with its start. -/
def LedgerKeys.Unambiguous (F : LedgerKeys) : Prop := InjectiveCode F.ledgerKey ∧ PrefixFree F.ledgerKey

theorem Operation.toXdr_selfDelimiting (hL : L.Unambiguous) :
    SelfDelimiting (Operation.toXdr (L := L)) := by
  apply SelfDelimiting.comap (((InvokeContractArgs.toXdr_selfDelimiting hL).both
    ((uint_selfDelimiting 4).counted (SorobanAuthorizationEntry.toXdr_selfDelimiting hL))).tagged _)
  intro x y h
  cases x; cases y
  simp only [Operation.mk.injEq]
  exact Prod.mk.inj h

theorem SorobanResources.toXdr_selfDelimiting (hF : F.Unambiguous) :
    SelfDelimiting (SorobanResources.toXdr (F := F)) := by
  have hkeys := (uint_selfDelimiting 4).counted ((selfDelimiting_iff _).mpr hF)
  apply SelfDelimiting.comap (hkeys.both (hkeys.both (u32Xdr_selfDelimiting.both
    (u32Xdr_selfDelimiting.both u32Xdr_selfDelimiting))))
  intro x y h
  simp only [Prod.mk.injEq] at h
  cases x; cases y
  simp only [SorobanResources.mk.injEq]
  exact h

theorem SorobanTransactionData.toXdr_selfDelimiting (hF : F.Unambiguous) :
    SelfDelimiting (SorobanTransactionData.toXdr (F := F)) := by
  have hext := ((uint_selfDelimiting 4).counted u32Xdr_selfDelimiting).optional (by simp) tag_ne
  apply SelfDelimiting.comap (hext.both ((SorobanResources.toXdr_selfDelimiting hF).both
    i64Xdr_selfDelimiting))
  intro x y h
  simp only [Prod.mk.injEq] at h
  cases x; cases y
  simp only [SorobanTransactionData.mk.injEq]
  exact h

theorem txToXdr_selfDelimiting (hL : L.Unambiguous) (hF : F.Unambiguous) :
    SelfDelimiting (txToXdr (L := L) (F := F)) := by
  have hops := (uint_selfDelimiting 4).counted (Operation.toXdr_selfDelimiting hL)
  have hext := (SorobanTransactionData.toXdr_selfDelimiting hF).optional (by simp) tag_ne
  apply SelfDelimiting.comap ((hashXdr_selfDelimiting.both (u32Xdr_selfDelimiting.both
    (i64Xdr_selfDelimiting.both ((hops.both hext).tagged _)))).tagged _)
  intro x y h
  simp only [Prod.mk.injEq] at h
  cases x; cases y
  simp only [Transaction.mk.injEq]
  exact h

theorem DecoratedSignature.toXdr_selfDelimiting : SelfDelimiting DecoratedSignature.toXdr := by
  apply SelfDelimiting.comap ((fixed_selfDelimiting 4).both (varBytes_selfDelimiting 4))
  intro x y h
  cases x; cases y
  simp only [DecoratedSignature.mk.injEq]
  exact Prod.mk.inj h

/-- Equal hash inputs come from one network and one transaction. -/
theorem payloadToXdr_inj (hL : L.Unambiguous) (hF : F.Unambiguous) {n n' : Arr 32}
    {tx tx' : SorobanTransaction L F} {b : Bytes} (h : payloadToXdr n tx = some b)
    (h' : payloadToXdr n' tx' = some b) : n = n' ∧ tx = tx' := by
  have hpair := (hashXdr_selfDelimiting.both ((txToXdr_selfDelimiting hL hF).tagged _)).injectiveCode
    (n,tx) (n',tx') b h h'
  exact Prod.mk.inj hpair

theorem envelopeToXdr_inj (hL : L.Unambiguous) (hF : F.Unambiguous)
    {env env' : Envelope (Operation L) (SorobanTransactionData F)} {b : Bytes}
    (h : envelopeToXdr env = some b) (h' : envelopeToXdr env' = some b) : env = env' := by
  have hcode := ((txToXdr_selfDelimiting hL hF).both
    ((uint_selfDelimiting 4).counted DecoratedSignature.toXdr_selfDelimiting)).tagged (bigEndian 4 2)
  have hpair := hcode.injectiveCode (env.tx,env.signatures) (env'.tx,env'.signatures) b h h'
  cases env; cases env'
  simp only [Envelope.mk.injEq]
  exact Prod.mk.inj hpair

theorem payloadToXdr_network {n : Arr 32} {tx : SorobanTransaction L F} {b : Bytes}
    (h : payloadToXdr n tx = some b) : n.val <+: b := by
  obtain ⟨u,v,hu,-,rfl⟩ := cat_eq_some.mp h
  rw [← Option.some.inj hu]
  exact List.prefix_append _ _

theorem preimage_tag {p : AuthorizationPayload L} {b : Bytes} (h : p.preimage = some b) :
    bigEndian 4 9 <+: b := by
  obtain ⟨u,-,rfl⟩ := Option.map_eq_some_iff.mp h
  exact List.prefix_append _ _

/-- On a network whose id does not start like that tag, no bytes are both. -/
theorem payloadToXdr_ne_preimage {n : Arr 32} (hn : ¬ bigEndian 4 9 <+: n.val)
    {tx : SorobanTransaction L F} {p : AuthorizationPayload L} {b b' : Bytes}
    (h : payloadToXdr n tx = some b) (h' : p.preimage = some b') : b ≠ b' := by
  rintro rfl
  apply hn
  apply List.prefix_of_prefix_length_le (preimage_tag h') (payloadToXdr_network h)
  rw [n.property,bigEndian_length]
  decide

/-- Keys of contract code, the simplest a footprint can list. -/
@[reducible] def codeKeys : LedgerKeys := ⟨Arr 32,tagged (bigEndian 4 7) AuthorizationPayload.hashXdr⟩

theorem codeKeys_unambiguous : codeKeys.Unambiguous :=
  (selfDelimiting_iff _).mp (AuthorizationPayload.hashXdr_selfDelimiting.tagged _)

end Reading

end Cli
end SorobanMlDsa

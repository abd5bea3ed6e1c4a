import SorobanMlDsa.Account
import SorobanMlDsa.Auth

/-!
# One entry at two accounts

The host checks an entry by deriving the payload from the entry's own fields and
asking the account named in the credentials. Neither the payload nor the context
names that account, so accounts that share a key share their entries.
-/

namespace SorobanMlDsa

def SorobanAddressCredentials.withAddress {L : XdrLeaves} (creds : SorobanAddressCredentials L)
    (address : L.ScAddress) : SorobanAddressCredentials L := {creds with address := address}

namespace PqAccount

open ByteSlice

variable {L : XdrLeaves} (D : MlDsaCrate) (sha256 : Bytes → Arr 32)

/-- The host's check of address credentials against the account they name. -/
def hostCheck (networkId : Arr 32) (ledger : L.ScAddress → Storage)
    (creds : SorobanAddressCredentials L) (rootInvocation : SorobanAuthorizedInvocation L) :
    Outcome (Except Error Unit) :=
  match (creds.payload networkId rootInvocation).signaturePayload sha256 with
  | .error _ => .error .trap
  | .ok hash =>
    match creds.signature with
    | .bytes sig => checkAuth D (ledger creds.address) hash sig.val
    | .other _ => .error .trap

variable {D sha256}

theorem hostCheck_address {networkId : Arr 32} {ledger : L.ScAddress → Storage}
    {creds : SorobanAddressCredentials L} {address : L.ScAddress}
    (hkey : (ledger creds.address).pubKey = (ledger address).pubKey)
    (rootInvocation : SorobanAuthorizedInvocation L) :
    hostCheck D sha256 networkId ledger (creds.withAddress address) rootInvocation =
      hostCheck D sha256 networkId ledger creds rootInvocation := by
  have hpayload : (creds.withAddress address).payload networkId rootInvocation =
    creds.payload networkId rootInvocation := rfl
  have hsig : (creds.withAddress address).signature = creds.signature := rfl
  have hcheck (p : Arr 32) (sig : Bytes) :
      checkAuth D (ledger (creds.withAddress address).address) p sig =
        checkAuth D (ledger creds.address) p sig := by
    rw [checkAuth,checkAuth,hkey]
    rfl
  simp only [hostCheck,hpayload,hsig,hcheck]

/-- No accepted entry is ever rejected at another account with the same key. -/
theorem entry_replays_across_accounts (D : MlDsaCrate) (L : XdrLeaves) (sha256 : Bytes → Arr 32)
    (networkId : Arr 32) (ledger : L.ScAddress → Storage) (creds : SorobanAddressCredentials L)
    (rootInvocation : SorobanAuthorizedInvocation L) (address : L.ScAddress)
    (_hother : address ≠ creds.address)
    (hkey : (ledger creds.address).pubKey = (ledger address).pubKey)
    (haccepted : hostCheck D sha256 networkId ledger creds rootInvocation = .ok (.ok ())) :
    hostCheck D sha256 networkId ledger (creds.withAddress address) rootInvocation = .ok (.ok ()) :=
  (hostCheck_address hkey rootInvocation).trans haccepted

def twinLedger : Arr 32 → Storage := fun _ =>
  step (TagCrate.crate mldsa65) fresh (⟨(),none,.init (Arr.zero 1952).val⟩ : Invocation Unit)

/-- Credentials for the call of the payload vector, signed with the shared key. -/
def twinCredentials : SorobanAddressCredentials contractLeaves where
  address := Arr.zero 32
  nonce := (vectorPayload 1).nonce
  signatureExpirationLedger := (vectorPayload 1).signatureExpirationLedger
  signature :=
    let hash := Sha256.digest ((vectorPayload 1).preimage.getD [])
    let sig := TagCrate.tag mldsa65 (Arr.zero 1952) (frame hash.val context)
    .bytes ⟨sig.val,by simp [Arr.length_val,mldsa65,u32Max]⟩

def twinAddress : Arr 32 := ⟨List.replicate 32 1,rfl⟩

theorem twinCredentials_accepted :
    hostCheck (TagCrate.crate mldsa65) Sha256.digest (vectorPayload 1).networkId twinLedger twinCredentials
      (vectorPayload 1).invocation = .ok (.ok ()) := by
  decide +kernel

/-- An entry accepted at one account and not rejected at its twin. -/
theorem context_lets_entry_replay :
    ¬ (twinAddress ≠ twinCredentials.address →
      (twinLedger twinCredentials.address).pubKey = (twinLedger twinAddress).pubKey →
      hostCheck (TagCrate.crate mldsa65) Sha256.digest (vectorPayload 1).networkId twinLedger
        twinCredentials (vectorPayload 1).invocation = .ok (.ok ()) →
      ∃ e, hostCheck (TagCrate.crate mldsa65) Sha256.digest (vectorPayload 1).networkId twinLedger
        (twinCredentials.withAddress twinAddress) (vectorPayload 1).invocation = .ok (.error e)) := by
  intro h
  have hkey : (twinLedger twinCredentials.address).pubKey = (twinLedger twinAddress).pubKey := rfl
  obtain ⟨e,he⟩ := h (by decide) hkey twinCredentials_accepted
  rw [hostCheck_address hkey,twinCredentials_accepted] at he
  cases he

theorem entry_replays_across_accounts_twin :
    hostCheck (TagCrate.crate mldsa65) Sha256.digest (vectorPayload 1).networkId twinLedger
      (twinCredentials.withAddress twinAddress) (vectorPayload 1).invocation = .ok (.ok ()) :=
  entry_replays_across_accounts (TagCrate.crate mldsa65) contractLeaves Sha256.digest _ twinLedger
    twinCredentials (vectorPayload 1).invocation twinAddress (by decide) rfl twinCredentials_accepted

end PqAccount
end SorobanMlDsa

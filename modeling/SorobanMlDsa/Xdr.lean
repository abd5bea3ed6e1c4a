import SorobanMlDsa.ByteSlice
import SorobanMlDsa.PrefixCode

/-!
# The XDR types of an authorization

The call tree is modelled down to the invoked functions. Below them, addresses, symbols and
values are leaves the adapter never looks into: their encoders enter as parameters.
-/

namespace SorobanMlDsa

open ByteSlice PrefixCode

def u32Max : ℕ := 4294967295

/-- `ScBytes`, bounded by the 32-bit length of an XDR byte string. -/
structure ScBytes where
  val : Bytes
  le : val.length ≤ u32Max
  deriving DecidableEq

/-- `Vec<u8>::try_into::<BytesM>`. -/
def ScBytes.tryFrom (b : Bytes) : Option ScBytes :=
  if h : b.length ≤ u32Max then some ⟨b,h⟩ else none

theorem ScBytes.tryFrom_of_le {b : Bytes} (h : b.length ≤ u32Max) :
    ScBytes.tryFrom b = some ⟨b,h⟩ := dif_pos h

theorem ScBytes.tryFrom_eq_none {b : Bytes} (h : u32Max < b.length) :
    ScBytes.tryFrom b = none := dif_neg (Nat.not_le.mpr h)

/-- `ScVal`; the adapter only ever builds the bytes arm. -/
inductive ScVal (Other : Type)
  | bytes (b : ScBytes)
  | other (v : Other)
  deriving DecidableEq

/-- The types below the call tree, each with its XDR encoder. -/
structure XdrLeaves where
  ScAddress : Type
  ScSymbol : Type
  OtherVal : Type
  CreateContractArgs : Type
  CreateContractArgsV2 : Type
  scAddress : Encoder ScAddress UInt8
  scSymbol : Encoder ScSymbol UInt8
  scVal : Encoder (ScVal OtherVal) UInt8
  createContractArgs : Encoder CreateContractArgs UInt8
  createContractArgsV2 : Encoder CreateContractArgsV2 UInt8

/-- No leaf encoder confuses two values, nor a value with the start of another. -/
structure XdrLeaves.Unambiguous (L : XdrLeaves) : Prop where
  scAddress : InjectiveCode L.scAddress ∧ PrefixFree L.scAddress
  scSymbol : InjectiveCode L.scSymbol ∧ PrefixFree L.scSymbol
  scVal : InjectiveCode L.scVal ∧ PrefixFree L.scVal
  createContractArgs : InjectiveCode L.createContractArgs ∧ PrefixFree L.createContractArgs
  createContractArgsV2 : InjectiveCode L.createContractArgsV2 ∧ PrefixFree L.createContractArgsV2

variable (L : XdrLeaves)

structure InvokeContractArgs where
  contractAddress : L.ScAddress
  functionName : L.ScSymbol
  args : List (ScVal L.OtherVal)

inductive SorobanAuthorizedFunction
  | contractFn (args : InvokeContractArgs L)
  | createContractHostFn (args : L.CreateContractArgs)
  | createContractV2HostFn (args : L.CreateContractArgsV2)

inductive SorobanAuthorizedInvocation
  | node (function : SorobanAuthorizedFunction L)
      (subInvocations : List SorobanAuthorizedInvocation)

variable {L}

def InvokeContractArgs.toXdr : Encoder (InvokeContractArgs L) UInt8 := fun a =>
  both L.scAddress (both L.scSymbol (counted (uint 4) L.scVal))
    (a.contractAddress,a.functionName,a.args)

def SorobanAuthorizedFunction.toXdr : Encoder (SorobanAuthorizedFunction L) UInt8
  | .contractFn a => tagged (bigEndian 4 0) InvokeContractArgs.toXdr a
  | .createContractHostFn a => tagged (bigEndian 4 1) L.createContractArgs a
  | .createContractV2HostFn a => tagged (bigEndian 4 2) L.createContractArgsV2 a

namespace SorobanAuthorizedInvocation

mutual

def toXdr : Encoder (SorobanAuthorizedInvocation L) UInt8
  | .node f subs => cat f.toXdr (cat (uint 4 subs.length) (listToXdr subs))

def listToXdr : Encoder (List (SorobanAuthorizedInvocation L)) UInt8
  | [] => some []
  | t::ts => cat t.toXdr (listToXdr ts)

end

theorem listToXdr_eq (ts : List (SorobanAuthorizedInvocation L)) : listToXdr ts = elems toXdr ts := by
  induction ts with
  | nil => simp [listToXdr,elems]
  | cons t ts ih => simp [listToXdr,elems,ih]

theorem toXdr_node (f : SorobanAuthorizedFunction L) (subs : List (SorobanAuthorizedInvocation L)) :
    (node f subs).toXdr =
      both SorobanAuthorizedFunction.toXdr (counted (uint 4) toXdr) (f,subs) := by
  rw [toXdr,listToXdr_eq]
  rfl

theorem induction {motive : SorobanAuthorizedInvocation L → Prop}
    (node : ∀ f subs, (∀ t ∈ subs, motive t) → motive (.node f subs)) :
    ∀ t, motive t
  | .node f subs => node f subs fun t _ => induction node t

end SorobanAuthorizedInvocation

section

variable (hL : L.Unambiguous)

include hL

theorem InvokeContractArgs.toXdr_selfDelimiting :
    SelfDelimiting (InvokeContractArgs.toXdr (L := L)) := by
  have haddr := (selfDelimiting_iff _).mpr hL.scAddress
  have hsym := (selfDelimiting_iff _).mpr hL.scSymbol
  have hval := (selfDelimiting_iff _).mpr hL.scVal
  intro a
  apply DelimitedAt.comap (haddr.both (hsym.both ((uint_selfDelimiting 4).counted hval)) _)
  intro b h
  simp only [Prod.mk.injEq] at h
  cases a; cases b
  simp only [InvokeContractArgs.mk.injEq]
  exact h

/-- Functions of different kinds differ in their tags; of one kind, in their arms. -/
theorem SorobanAuthorizedFunction.toXdr_selfDelimiting :
    SelfDelimiting (SorobanAuthorizedFunction.toXdr (L := L)) := by
  have hcall := InvokeContractArgs.toXdr_selfDelimiting hL
  have hcreate := (selfDelimiting_iff _).mpr hL.createContractArgs
  have hcreate2 := (selfDelimiting_iff _).mpr hL.createContractArgsV2
  intro f g u v r s hu hv h
  cases f <;> cases g <;>
    obtain ⟨htag,u',v',hu',hv',h'⟩ := tagged_split hu hv (by simp) h
  case contractFn.contractFn a b =>
    obtain ⟨rfl,hr⟩ := hcall a b u' v' r s hu' hv' h'
    exact ⟨rfl,hr⟩
  case createContractHostFn.createContractHostFn a b =>
    obtain ⟨rfl,hr⟩ := hcreate a b u' v' r s hu' hv' h'
    exact ⟨rfl,hr⟩
  case createContractV2HostFn.createContractV2HostFn a b =>
    obtain ⟨rfl,hr⟩ := hcreate2 a b u' v' r s hu' hv' h'
    exact ⟨rfl,hr⟩
  all_goals exact absurd htag (by decide)

/-- Call trees of any shape are read back node by node, although nothing closes
a list of sub-invocations: the induction carries the words that follow. -/
theorem SorobanAuthorizedInvocation.toXdr_selfDelimiting :
    SelfDelimiting (SorobanAuthorizedInvocation.toXdr (L := L)) := by
  have hfn := SorobanAuthorizedFunction.toXdr_selfDelimiting hL
  intro t
  induction t using SorobanAuthorizedInvocation.induction with
  | node f subs ih =>
    rintro ⟨g,subs'⟩ u v r s hu hv h
    rw [toXdr_node] at hu hv
    have hboth := DelimitedAt.both (p := (f,subs)) (hfn f)
      (DelimitedAt.counted (uint_selfDelimiting 4 subs.length) ih)
    obtain ⟨he,hr⟩ := hboth (g,subs') u v r s hu hv h
    obtain ⟨rfl,rfl⟩ := Prod.mk.inj he
    exact ⟨rfl,hr⟩

end

/-- The leaves that calls between contracts need: contract addresses, symbols of at
most 32 bytes, and byte-string or void arguments. -/
@[reducible] def contractLeaves : XdrLeaves where
  ScAddress := Arr 32
  ScSymbol := {b : Bytes // b.length ≤ 32}
  OtherVal := Unit
  CreateContractArgs := Empty
  CreateContractArgsV2 := Empty
  scAddress := tagged (bigEndian 4 1) fun a => some a.val
  scSymbol s := varBytes 4 s.val
  scVal
    | .bytes b => tagged (bigEndian 4 13) (varBytes 4) b.val
    | .other () => some (bigEndian 4 1)
  createContractArgs _ := none
  createContractArgsV2 _ := none

theorem contractLeaves_unambiguous : contractLeaves.Unambiguous where
  scAddress := by
    apply (selfDelimiting_iff _).mp
    apply SelfDelimiting.of_length 36
    · intro a u hu
      have he : bigEndian 4 1 ++ a.val = u := Option.some.inj hu
      simp [← he,a.property]
    · intro a b u ha hb
      have h := (Option.some.inj ha).trans (Option.some.inj hb).symm
      exact Subtype.ext (List.append_cancel_left h)
  scSymbol := by
    apply (selfDelimiting_iff _).mp
    intro s
    exact (varBytes_selfDelimiting 4 s.val).comap fun t h => Subtype.ext h
  scVal := by
    apply (selfDelimiting_iff _).mp
    intro x y u v r s hu hv h
    have hvoid : tagged (bigEndian 4 1) (fun _ : Unit => some ([] : Bytes)) () = some (bigEndian 4 1) := rfl
    cases x with
    | bytes b =>
      cases y with
      | bytes b' =>
        obtain ⟨-,w,w',hw,hw',hbody⟩ := tagged_split hu hv rfl h
        obtain ⟨hb,hr⟩ := varBytes_selfDelimiting 4 b.val b'.val w w' r s hw hw' hbody
        cases b; cases b'
        subst hb
        exact ⟨rfl,hr⟩
      | other _ => exact absurd (tagged_split hu (hvoid.trans hv) rfl h).1 (by decide)
    | other _ =>
      cases y with
      | bytes b' => exact absurd (tagged_split (hvoid.trans hu) hv rfl h).1 (by decide)
      | other _ =>
        obtain rfl := Option.some.inj (hu.symm.trans hv)
        exact ⟨rfl,(List.append_cancel_left h).symm⟩
  createContractArgs := ⟨fun x => x.elim,fun x => x.elim⟩
  createContractArgsV2 := ⟨fun x => x.elim,fun x => x.elim⟩

end SorobanMlDsa

import SorobanMlDsa.AuthorizeTool
import SorobanMlDsa.Posting
import SorobanMlDsa.Sha256

/-!
# The submitted fee

On its way from the reply into the signed transaction the minimum resource fee
passes an optional field, a parse with a default, an addition and a narrowing cast.
-/

namespace SorobanMlDsa.Cli

open ByteSlice MachineInt SerdeJson

/-- The minimum resource fee of a reply, where it names one. -/
def minResourceFee (v : Value) : Option Int64 :=
  ((v.field "result").field "minResourceFee").asStr.bind (parse Int64)

variable {X : StellarXdr} {b : Build} {K : Ed25519} {sha256 : Bytes → Arr 32} {N : Node}
  {tx t : Transaction X.Operation X.SorobanTransactionData} {sim : SimResult X} {seed networkId hash : Arr 32}

theorem simulate_minFee {v : Value} (h : simulate X v = .ok sim) : sim.minFee = (minResourceFee v).getD 0 := by
  rw [simulate] at h
  split at h
  · cases h
  · split at h
    · cases h
    · rename_i s _
      cases hd : X.dataFromXdrBase64 s with
      | error e =>
        rw [hd] at h
        cases h
      | ok data =>
        rw [hd] at h
        cases h
        rfl

variable (K sha256 N tx seed networkId)

theorem submit_stopped {f : Fault} (h : add b sim.minFee 1000 = .error f) :
    (submit b K sha256 N tx sim seed networkId).effects = [] := by
  simp [submit,effects,Rpc.withResources,h]

theorem submit_signs (hX : X.EncodesPayloads) {fee : Int64} (h : add b sim.minFee 1000 = .ok fee) :
    ∃ t hash, .signed t hash ∈ (submit b K sha256 N tx sim seed networkId).effects ∧ t.fee = cast UInt32 fee := by
  obtain ⟨payload,hp⟩ := hX networkId {tx with ext := some sim.data, fee := cast UInt32 fee}
  refine ⟨{tx with ext := some sim.data, fee := cast UInt32 fee},sha256 payload,?_,rfl⟩
  simp only [submit,effects,Rpc.withResources,h,hp,ok_bind,pure_eq_ok]
  split <;> simp

variable {K sha256 N tx seed networkId}

theorem submit_signed (h : .signed t hash ∈ (submit b K sha256 N tx sim seed networkId).effects) :
    ∃ fee, add b sim.minFee 1000 = .ok fee ∧ t.fee = cast UInt32 fee := by
  cases hadd : add b sim.minFee 1000 with
  | error f =>
    rw [submit_stopped K sha256 N tx seed networkId hadd] at h
    cases h
  | ok fee =>
    refine ⟨fee,rfl,?_⟩
    simp only [submit,effects,Rpc.withResources,hadd,ok_bind,pure_eq_ok] at h
    split at h
    · cases h
    · split at h
      · simp only [List.mem_singleton,Effect.signed.injEq] at h
        rw [h.1]
      · simp only [List.mem_cons,Effect.signed.injEq,reduceCtorEq,List.not_mem_nil,or_false] at h
        rw [h.1]

/-- Every signed transaction pays the reply's fee and 1000 more, and nothing is
signed or sent for a reply whose fee is unknown or does not fit. -/
structure FeeCovered (v : Value) (effects : List (Effect X)) : Prop where
  pays : ∀ t hash, .signed t hash ∈ effects → ∀ n, minResourceFee v = some n →
    (t.fee.toNat : ℤ) = n.toInt + 1000
  refuses : (∀ n, minResourceFee v = some n → ¬ (0 ≤ n.toInt + 1000 ∧ n.toInt + 1000 ≤ 4294967295)) →
    effects = []

/-- Where the fee is covered, it is covered in whatever any node is sent. -/
theorem FeeCovered.posted {v : Value} (h : FeeCovered v (submit b K sha256 N tx sim seed networkId).effects)
    {node : Dialogue.Party Request Reply} {text : String} {r : Reply}
    (hsent : (.sendTransaction text,r) ∈
      (Dialogue.converse node [] (Rpc.submit b K sha256 tx sim seed networkId)).1) :
    ∃ t sigs n, X.envelopeToXdrBase64 ⟨t,sigs⟩ = some text ∧ minResourceFee v = some n ∧
      (t.fee.toNat : ℤ) = n.toInt + 1000 := by
  have heffect := (Rpc.sent_iff node).mpr ⟨r,hsent⟩
  obtain ⟨hash,final,payload,hfinal,hpayload,rfl,henv⟩ := Rpc.sent_iff_seals.mp heffect
  have hsigned : .signed final (sha256 payload) ∈ (submit b K sha256 N tx sim seed networkId).effects := by
    simp [submit,effects,hfinal,hpayload,henv]
  cases hv : minResourceFee v with
  | none =>
    rw [h.refuses (by simp [hv])] at hsigned
    cases hsigned
  | some n => exact ⟨final,_,n,henv,rfl,h.pays _ _ hsigned n hv⟩

/-- A reply without a fee is submitted as if the fee were zero. -/
theorem not_covered_unknown (hX : X.EncodesPayloads) {v : Value} (hfee : sim.minFee = 0)
    (hv : minResourceFee v = none) :
    ¬ FeeCovered v (submit b K sha256 N tx sim seed networkId).effects := by
  intro h
  have hzero : add b sim.minFee 1000 = .ok 1000 := by
    rw [hfee]
    cases b <;> decide
  obtain ⟨t,hash,ht,-⟩ := submit_signs K sha256 N tx seed networkId hX hzero
  rw [h.refuses (by simp [hv])] at ht
  cases ht

/-- In range, the sum and the cast are those of the integers. -/
theorem toNat_declared {x fee : Int64} (h : add b x 1000 = .ok fee) (hlow : -1000 ≤ x.toInt)
    (hhigh : x.toInt ≤ 4294966295) : ((cast UInt32 fee).toNat : ℤ) = x.toInt + 1000 := by
  have hmargin : toInt x + toInt (1000 : Int64) = x.toInt + 1000 := rfl
  obtain ⟨sum,hadd,hsum⟩ := add_exact b (x := x) (y := 1000) (by
    rw [hmargin,fits_int64]
    omega)
  obtain rfl : fee = sum := Except.ok.inj (h.symm.trans hadd)
  rw [hmargin] at hsum
  have hcast : toInt (cast UInt32 fee) = toInt fee := toInt_cast (by
    rw [hsum,fits_uint32]
    omega)
  exact hcast.trans hsum

theorem covered_of_fits {v : Value} (hv : minResourceFee v = some sim.minFee)
    (hlow : -1000 ≤ sim.minFee.toInt) (hhigh : sim.minFee.toInt ≤ 4294966295) :
    FeeCovered v (submit b K sha256 N tx sim seed networkId).effects := by
  constructor
  · intro t hash ht n hn
    obtain ⟨fee,hfee,htfee⟩ := submit_signed ht
    rw [htfee,← Option.some.inj (hv.symm.trans hn)]
    exact toNat_declared hfee hlow hhigh
  · intro hrefuse
    have hno := hrefuse sim.minFee hv
    omega

theorem covered_of_stopped {v : Value} {f : Fault} (h : add b sim.minFee 1000 = .error f) :
    FeeCovered v (submit b K sha256 N tx sim seed networkId).effects := by
  rw [submit_stopped K sha256 N tx seed networkId h]
  constructor
  · intro t hash ht
    cases ht
  · exact fun _ => rfl

/-- A fee that does not fit is refused by the addition or not at all. -/
theorem stopped_of_covered (hX : X.EncodesPayloads) {v : Value} (hv : minResourceFee v = some sim.minFee)
    (hno : ¬ (-1000 ≤ sim.minFee.toInt ∧ sim.minFee.toInt ≤ 4294966295))
    (h : FeeCovered v (submit b K sha256 N tx sim seed networkId).effects) :
    ∃ f, add b sim.minFee 1000 = .error f := by
  have hnone := h.refuses (by
    intro n hn
    rw [← Option.some.inj (hv.symm.trans hn)]
    omega)
  cases hadd : add b sim.minFee 1000 with
  | error f => exact ⟨f,rfl⟩
  | ok fee =>
    obtain ⟨t,hash,ht,-⟩ := submit_signs K sha256 N tx seed networkId hX hadd
    rw [hnone] at ht
    cases ht

theorem add_margin_error_iff (n : Int64) :
    (∃ f, add b n 1000 = .error f) ↔ b = .debug ∧ 9223372036854774807 < n.toInt := by
  have hmargin : toInt n + toInt (1000 : Int64) = n.toInt + 1000 := rfl
  have hlow := n.le_toInt
  simp only [add,settle_eq_error,hmargin,fits_int64,exists_and_left,exists_eq,and_true]
  constructor
  · rintro ⟨hb,h⟩
    exact ⟨hb,by omega⟩
  · rintro ⟨hb,h⟩
    exact ⟨hb,by omega⟩

/-- The fee is covered exactly when the reply names one that fits with the margin
added, or when the addition overflows in a build that stops there. -/
theorem fee_covered_iff (b : Build) (X : StellarXdr) (hX : X.EncodesPayloads) (K : Ed25519)
    (sha256 : Bytes → Arr 32) (N : Node) (tx : Transaction X.Operation X.SorobanTransactionData) (v : Value)
    (sim : SimResult X) (hsim : simulate X v = .ok sim) (seed networkId : Arr 32) :
    FeeCovered v (submit b K sha256 N tx sim seed networkId).effects ↔
      ∃ n, minResourceFee v = some n ∧ ((-1000 ≤ n.toInt ∧ n.toInt ≤ 4294966295) ∨
        (b = .debug ∧ 9223372036854774807 < n.toInt)) := by
  have hfee := simulate_minFee hsim
  cases hv : minResourceFee v with
  | none =>
    rw [hv] at hfee
    exact iff_of_false (not_covered_unknown hX hfee hv) (by simp)
  | some n =>
    obtain rfl : sim.minFee = n := by simpa only [hv,Option.getD_some] using hfee
    by_cases hfits : -1000 ≤ sim.minFee.toInt ∧ sim.minFee.toInt ≤ 4294966295
    · exact iff_of_true (covered_of_fits hv hfits.1 hfits.2) ⟨_,rfl,.inl hfits⟩
    · constructor
      · intro h
        exact ⟨_,rfl,.inr ((add_margin_error_iff _).mp (stopped_of_covered hX hv hfits h))⟩
      · rintro ⟨n,hn,hcond⟩
        obtain rfl := Option.some.inj hn
        obtain ⟨f,hf⟩ := (add_margin_error_iff _).mpr (hcond.resolve_left hfits)
        exact covered_of_stopped hf

/-- A reply for a transaction that uses nothing, with or without a fee. -/
def idleReply (fee : Option String) : Value :=
  .object [("result",.object (("transactionData",.string (String.ofList (RawXdr.base64 RawXdr.idle.toXdr))) ::
    (fee.map fun s => ("minResourceFee",Value.string s)).toList))]

theorem minResourceFee_idleReply (fee : Option String) :
    minResourceFee (idleReply fee) = fee.bind (parse Int64) := by
  cases fee <;> rfl

theorem simulate_idleReply (fee : Option String) :
    simulate RawXdr.xdr (idleReply fee) = .ok ⟨0,0,0,(fee.bind (parse Int64)).getD 0,RawXdr.idle⟩ := by
  have hresources : RawXdr.idle.instructions = 0 ∧ RawXdr.idle.diskReadBytes = 0 ∧
    RawXdr.idle.writeBytes = 0 := ⟨rfl,rfl,rfl⟩
  cases fee <;> simp [simulate,idleReply,Value.asStr,hresources]

def stubEd25519 : Ed25519 where
  sign seed m := ⟨(Sha256.digest (seed.val ++ m)).val ++ (Sha256.digest m).val,by simp [Arr.length_val]⟩
  verifyingKey seed := Sha256.digest seed.val

def silentNode : Node := ⟨fun _ => .null,fun _ _ => .null⟩

def idleTx : Transaction Bytes RawXdr.Data := buildTx RawXdr.xdr (Arr.zero 32) 1 []

def idleEffects (b : Build) (fee : Option String) : List (Effect RawXdr.xdr) :=
  (submit b stubEd25519 Sha256.digest silentNode idleTx ⟨0,0,0,(fee.bind (parse Int64)).getD 0,RawXdr.idle⟩
    (Arr.zero 32) (Arr.zero 32)).effects

theorem idle_twoPow32_not_covered :
    ¬ FeeCovered (idleReply (some "4294967296")) (idleEffects .release (some "4294967296")) := by
  intro h
  have hparse : parse Int64 "4294967296" = some 4294967296 := by decide +kernel
  have hstopped := stopped_of_covered RawXdr.xdr_encodesPayloads
    (by rw [minResourceFee_idleReply,Option.bind_some,hparse]; rfl)
    (by simp only [Option.bind_some,hparse,Option.getD_some]; decide) h
  have hdebug := ((add_margin_error_iff _).mp hstopped).1
  cases hdebug

/-- A reply without a fee and a reply whose fee is `2^32` both pass simulation, and
both end in a signed transaction that does not cover the fee. -/
theorem uncovered_fee_signed :
    (simulate RawXdr.xdr (idleReply none) = .ok ⟨0,0,0,0,RawXdr.idle⟩ ∧
      ¬ FeeCovered (idleReply none) (idleEffects .release none)) ∧
    simulate RawXdr.xdr (idleReply (some "4294967296")) = .ok ⟨0,0,0,4294967296,RawXdr.idle⟩ ∧
      ¬ FeeCovered (idleReply (some "4294967296")) (idleEffects .release (some "4294967296")) := by
  have hparse : parse Int64 "4294967296" = some 4294967296 := by decide +kernel
  refine ⟨⟨simulate_idleReply none,?_⟩,?_,idle_twoPow32_not_covered⟩
  · exact not_covered_unknown RawXdr.xdr_encodesPayloads rfl (minResourceFee_idleReply none)
  · rw [simulate_idleReply,Option.bind_some,hparse]
    rfl

/-- A fee in range, covered in the transaction that is signed. -/
theorem fee_covered_iff_in_range : FeeCovered (idleReply (some "90837")) (idleEffects .release (some "90837")) := by
  have hparse : parse Int64 "90837" = some 90837 := by decide +kernel
  apply (fee_covered_iff .release RawXdr.xdr RawXdr.xdr_encodesPayloads stubEd25519 Sha256.digest silentNode
    idleTx _ _ (simulate_idleReply (some "90837")) (Arr.zero 32) (Arr.zero 32)).mpr
  refine ⟨90837,?_,.inl (by decide)⟩
  rw [minResourceFee_idleReply,Option.bind_some,hparse]

namespace AuthorizeTool

open Dialogue

variable {L : XdrLeaves} {F : LedgerKeys} {P : Platform L F}

/-- `final` is `tx` with what the reply `v` says of its resources, and a fee that is the one
named there with the margin added exactly when that is a fee. -/
structure Finalizes (P : Platform L F) (tx final : SorobanTransaction L F) (v : Value) : Prop where
  same : final = {tx with ext := final.ext, fee := final.fee}
  resources : ∃ sim, simulate P.xdr v = .ok sim ∧ final.ext = some sim.data
  fee : (∃ n, minResourceFee v = some n ∧ (final.fee.toNat : ℤ) = n.toInt + 1000) ↔
    ∃ n, minResourceFee v = some n ∧ -1000 ≤ n.toInt ∧ n.toInt ≤ 4294966295

theorem finalizes {tx final : SorobanTransaction L F} {v : Value} {sim : SimResult P.xdr}
    (hsim : simulate P.xdr v = .ok sim) (h : Rpc.withResources (X := P.xdr) P.build tx sim = .ok final) :
    Finalizes P tx final v := by
  obtain ⟨fee,hadd,h⟩ := bind_eq_ok.mp h
  rw [← Except.ok.inj h]
  refine ⟨rfl,⟨sim,hsim,rfl⟩,?_⟩
  constructor
  · rintro ⟨n,hn,hfee⟩
    have hdeclared : ((cast UInt32 fee).toNat : ℤ) = n.toInt + 1000 := hfee
    have hlt := (cast UInt32 fee).toNat_lt
    exact ⟨n,hn,by omega,by omega⟩
  · rintro ⟨n,hn,hlow,hhigh⟩
    have hsame : sim.minFee = n := by rw [simulate_minFee hsim,hn]; rfl
    rw [hsame] at hadd
    exact ⟨n,hn,toNat_declared hadd hlow hhigh⟩

/-- Whatever a run of `authorize` sends is the transaction it had shown right before, finalized
with what was answered, under the one signature of the source: two texts, each of one envelope. -/
theorem authorize_sends_shown (P : Platform L F) (hL : L.Unambiguous) (hF : F.Unambiguous) (args : List String)
    (secret : Option String) (node : Party Request Reply) (t : String) (r : Reply)
    (hsent : (.sendTransaction t,r) ∈ (converse node [] (main P args secret)).1) :
    ∃ s before after shown v tx final payload, start P args secret = .ok s ∧
      (converse node [] (main P args secret)).1 =
        before ++ [(.simulateTransaction shown (authMode s),.json v),(.sendTransaction t,r)] ++ after ∧
      (∀ env, P.xdr.envelopeToXdrBase64 env = some shown ↔ env = ⟨tx,[]⟩) ∧ Finalizes P tx final v ∧
      P.xdr.payloadToXdr (network P) final = some payload ∧ ∀ env, P.xdr.envelopeToXdrBase64 env = some t ↔
        env = ⟨final,[Rpc.decorate P.ed25519 s.seed (P.sha256 payload)]⟩ := by
  obtain ⟨s,before,after,tx,sim,hash,hs,hsplit,hshown,hseals⟩ := sent_shown hsent
  obtain ⟨told,seq,latest,shown,v,-,-,hbefore,rfl,hsim⟩ := hshown
  obtain ⟨final,payload,hfinal,hpayload,rfl,htext⟩ := hseals
  refine ⟨s,told,after,shown,v,tx,final,payload,hs,?_,?_,finalizes hsim hfinal,hpayload,?_⟩
  · rw [hsplit,List.append_assoc,List.append_assoc]
    rfl
  · intro env
    exact ⟨fun h => envelopeText_inj hL hF h hbefore,fun h => h ▸ hbefore⟩
  · intro env
    exact ⟨fun h => envelopeText_inj hL hF h htext,fun h => h ▸ htext⟩

/-- A node that names no fee is sent a transaction whose fee covers nothing it has named. -/
theorem authorize_sends_shown_unknown_fee : ∃ t tx final v, Finalizes samplePlatform tx final v ∧
    (∀ env, samplePlatform.xdr.envelopeToXdrBase64 env = some t → env.tx = final) ∧ minResourceFee v = none := by
  obtain ⟨t,r,hsent⟩ := sampleSaid_sent ["authorize","G","C"] (by decide +kernel)
  obtain ⟨s,before,after,shown,v,tx,final,payload,-,hsaid,-,h,-,htext⟩ := authorize_sends_shown samplePlatform
    contractLeaves_unambiguous codeKeys_unambiguous _ _ _ t r hsent
  have hnone : (sampleSaid ["authorize","G","C"]).all (fun e => match e with
      | (.simulateTransaction _ _,.json v) => minResourceFee v = none
      | _ => true) = true := by
    decide +kernel
  have hmem : (.simulateTransaction shown (authMode s),.json v) ∈ sampleSaid ["authorize","G","C"] := by
    rw [sampleSaid,hsaid]
    simp
  refine ⟨t,tx,final,v,h,?_,?_⟩
  · intro env henv
    rw [(htext env).mp henv]
  · simpa using List.all_eq_true.mp hnone _ hmem

end AuthorizeTool
end SorobanMlDsa.Cli

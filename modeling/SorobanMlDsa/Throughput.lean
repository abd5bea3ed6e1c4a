import SorobanMlDsa.ByteSlice
import SorobanMlDsa.MachineInt
import SorobanMlDsa.ParallelSchedule

/-!
# Ledger throughput

Both report programs print one closed formula for how many transactions of one
cost a ledger admits. What it has to be measured against are the schedules of
CAP-0063: clusters in parallel, stages in sequence, the instruction limit on the
critical path.
-/

namespace SorobanMlDsa.Throughput

open ByteSlice MachineInt ParallelSchedule

/-- `seq_n` and the capped product, as both programs compute them. -/
def perLedger (b : Build) (ledgerMaxInsn clusters ledgerMaxTxCount insns : UInt64) :
    Checked (UInt64 × UInt64) := do
  let seqN ← div ledgerMaxInsn insns
  let product ← mul b clusters seqN
  return (seqN,min product ledgerMaxTxCount)

structure Line where
  label : String
  insns : UInt64
  seqN : UInt64
  par : UInt64
  deriving DecidableEq, Repr

/-- A table is printed row by row; a row may be passed over. -/
def table {R : Type} (line : R → Checked (Option Line)) : List R → Checked (List Line)
  | [] => return []
  | r::rs => do
    let l ← line r
    let ls ← table line rs
    return l.toList ++ ls

namespace Bench

def ledgerMaxInsn : UInt64 := 580000000

/-- `ledger_max_dependent_tx_clusters`. -/
def clusters : UInt64 := 2

def ledgerMaxTxCount : UInt64 := 2000

structure Row where
  label : String
  insns : UInt64

def line (b : Build) (r : Row) : Checked (Option Line) := do
  let (seqN,par) ← perLedger b ledgerMaxInsn clusters ledgerMaxTxCount (max r.insns 1)
  return some ⟨r.label,r.insns,seqN,par⟩

end Bench

namespace Simulate

def ledgerMaxInsn : UInt64 := 580000000

def clusters : UInt64 := 2

def ledgerMaxTxCount : UInt64 := 2000

structure Sim where
  insns : UInt64
  ok : Bool

def line (b : Build) (r : String × Sim) : Checked (Option Line) :=
  if !r.2.ok || r.2.insns == 0 then .ok none
  else do
    let (seqN,parN) ← perLedger b ledgerMaxInsn clusters ledgerMaxTxCount r.2.insns
    return some ⟨r.1,r.2.insns,seqN,parN⟩

def counted (r : String × Sim) : Bool := r.2.ok && r.2.insns != 0

end Simulate

/-- The product stays in range, so no build stops or wraps. -/
theorem perLedger_ok (b : Build) {insns : UInt64} (h : insns ≠ 0) :
    ∃ seqN par, perLedger b 580000000 2 2000 insns = .ok (seqN,par) ∧
      seqN.toNat = 580000000 / insns.toNat ∧ par.toNat = min (2 * (580000000 / insns.toNat)) 2000 := by
  have hne : toInt insns ≠ 0 := fun h0 => h (toInt_inj.mp h0)
  obtain ⟨q,hq⟩ : ∃ q, 580000000 / insns.toNat = q := ⟨_,rfl⟩
  have hle : q ≤ 580000000 := hq ▸ Nat.div_le_self _ _
  have hquot : (toInt (580000000 : UInt64)).tdiv (toInt insns) = q := congrArg Nat.cast hq
  obtain ⟨seqN,hdiv,hseq⟩ := div_exact (x := 580000000) hne (by
    rw [hquot,fits_uint64]
    omega)
  have hseqN : seqN.toNat = q := Int.ofNat_inj.mp (hseq.trans hquot)
  have htwo : toInt (2 : UInt64) = 2 := rfl
  obtain ⟨product,hmul,hprod⟩ := mul_exact b (x := 2) (y := seqN) (by
    rw [htwo,uint64_toInt,fits_uint64]
    omega)
  have hproduct : product.toNat = 2 * q := by
    rw [htwo,uint64_toInt,uint64_toInt] at hprod
    omega
  have htwoThousand : (2000 : UInt64).toNat = 2000 := rfl
  refine ⟨seqN,min product 2000,?_,by rw [hseqN,hq],by rw [uint64_toNat_min,hproduct,htwoThousand,hq]⟩
  simp only [perLedger,hdiv,hmul,ok_bind,pure_eq_ok]

/-- The two figures are optima over all schedules of transactions that cost `c`:
under both limits with two clusters a stage, and under the instruction limit alone
with one. The product in between stays below `2^64`. -/
structure Exact (c seqN par : UInt64) : Prop where
  par_isGreatest : ∀ {τ : Type} (cost : τ → ℕ) (t : τ), cost t = c.toNat →
    IsGreatest (counts cost 2 580000000 c.toNat ∩ Set.Iic 2000) par.toNat
  seq_isGreatest : ∀ {τ : Type} (cost : τ → ℕ) (t : τ), cost t = c.toNat →
    IsGreatest (counts cost 1 580000000 c.toNat) seqN.toNat
  par_eq : par.toNat = min (2 * (580000000 / c.toNat)) 2000
  seq_eq : seqN.toNat = 580000000 / c.toNat
  product_lt : 2 * seqN.toNat < 2 ^ 64

theorem exact_of_eq {c seqN par : UInt64} (hc : c ≠ 0) (hseq : seqN.toNat = 580000000 / c.toNat)
    (hpar : par.toNat = min (2 * (580000000 / c.toNat)) 2000) : Exact c seqN par := by
  have hpos : 0 < c.toNat := Nat.pos_of_ne_zero fun h0 => hc (UInt64.toNat_inj.mp h0)
  constructor
  · intro τ cost t ht
    rw [hpar]
    exact isGreatest_counts hpos ht 2 580000000 2000
  · intro τ cost t ht
    rw [hseq,counts_eq hpos ht,Nat.one_mul]
    exact isGreatest_Iic
  · exact hpar
  · exact hseq
  · have hle : 580000000 / c.toNat ≤ 580000000 := Nat.div_le_self _ _
    omega

theorem table_ok {R : Type} {line : R → Checked (Option Line)} {Q : R → Line → Prop} (keep : R → Bool)
    (hkeep : ∀ r, keep r = true → ∃ l, line r = .ok (some l) ∧ Q r l)
    (hskip : ∀ r, keep r = false → line r = .ok none) (rows : List R) :
    ∃ ls, table line rows = .ok ls ∧ List.Forall₂ Q (rows.filter keep) ls := by
  induction rows with
  | nil => exact ⟨[],rfl,.nil⟩
  | cons r rs ih =>
    obtain ⟨ls,hls,hQ⟩ := ih
    cases hr : keep r with
    | true =>
      obtain ⟨l,hl,hq⟩ := hkeep r hr
      refine ⟨l::ls,?_,?_⟩
      · simp only [table,hl,hls,ok_bind]
        rfl
      · rw [List.filter_cons_of_pos hr]
        exact .cons hq hQ
    | false =>
      refine ⟨ls,?_,?_⟩
      · simp only [table,hskip r hr,hls,ok_bind]
        rfl
      · rwa [List.filter_cons_of_neg (by simp [hr])]

/-- What the line of a row of `bench` says. -/
structure Bench.Reports (r : Row) (l : Line) : Prop where
  label : l.label = r.label
  insns : l.insns = r.insns
  exact : 1 ≤ r.insns → Exact r.insns l.seqN l.par
  zero : r.insns = 0 → l.par = ledgerMaxTxCount

theorem Bench.line_ok (b : Build) (r : Row) : ∃ l, line b r = .ok (some l) ∧ Reports r l := by
  have hone : (1 : UInt64).toNat = 1 := rfl
  have hmax : (max r.insns 1).toNat = max r.insns.toNat 1 := uint64_toNat_max r.insns 1
  have hne : max r.insns 1 ≠ 0 := by
    intro h0
    rw [h0] at hmax
    have hzero : (0 : UInt64).toNat = 0 := rfl
    omega
  obtain ⟨seqN,par,hrow,hseq,hpar⟩ := perLedger_ok b hne
  refine ⟨⟨r.label,r.insns,seqN,par⟩,?_,rfl,rfl,?_,?_⟩
  · simp only [line,ledgerMaxInsn,clusters,ledgerMaxTxCount,hrow,ok_bind,pure_eq_ok]
  · intro hc
    have hle : 1 ≤ r.insns.toNat := UInt64.le_iff_toNat_le.mp hc
    have heq : max r.insns 1 = r.insns := UInt64.toNat_inj.mp (hmax.trans (Nat.max_eq_left hle))
    rw [heq] at hseq hpar hne
    exact exact_of_eq hne hseq hpar
  · intro h0
    rw [h0] at hpar
    exact UInt64.toNat_inj.mp hpar

theorem Bench.table_reports (b : Build) (rows : List Row) :
    ∃ ls, table (line b) rows = .ok ls ∧ List.Forall₂ Reports rows ls := by
  have h := table_ok (fun _ => true) (fun r _ => line_ok b r) (by simp) rows
  rwa [List.filter_true] at h

/-- What the line of a row of `simulate` says. -/
structure Simulate.Reports (r : String × Sim) (l : Line) : Prop where
  label : l.label = r.1
  insns : l.insns = r.2.insns
  exact : Exact r.2.insns l.seqN l.par

theorem Simulate.line_ok (b : Build) {r : String × Sim} (h : counted r = true) :
    ∃ l, line b r = .ok (some l) ∧ Reports r l := by
  simp only [counted,Bool.and_eq_true,bne_iff_ne] at h
  obtain ⟨seqN,par,hrow,hseq,hpar⟩ := perLedger_ok b h.2
  refine ⟨⟨r.1,r.2.insns,seqN,par⟩,?_,rfl,rfl,exact_of_eq h.2 hseq hpar⟩
  simp [line,h.1,h.2,ledgerMaxInsn,clusters,ledgerMaxTxCount,hrow]

theorem Simulate.line_skips (b : Build) {r : String × Sim} (h : counted r = false) :
    line b r = .ok none := by
  apply if_pos
  cases hok : r.2.ok <;> simp_all [counted]

/-- Both tables are printed to the end in every build, and their figures are the
optima of the scheduling model. -/
theorem published_figures_exact (b : Build) :
    (∀ rows, ∃ ls, table (Bench.line b) rows = .ok ls ∧ List.Forall₂ Bench.Reports rows ls) ∧
    ∀ rows, ∃ ls, table (Simulate.line b) rows = .ok ls ∧
      List.Forall₂ Simulate.Reports (rows.filter fun r => r.2.ok && r.2.insns != 0) ls := by
  constructor
  · exact Bench.table_reports b
  · exact table_ok Simulate.counted (fun r hr => Simulate.line_ok b hr) (fun r hr => Simulate.line_skips b hr)

/-- Two rows of the published table. -/
example : table (Bench.line .release) [⟨"no-op (VM instantiation)",2515683⟩,
    ⟨"ML-DSA-65 verify (in contract)",77519116⟩] = .ok [⟨"no-op (VM instantiation)",2515683,230,460⟩,
    ⟨"ML-DSA-65 verify (in contract)",77519116,7,14⟩] := by
  decide

end SorobanMlDsa.Throughput

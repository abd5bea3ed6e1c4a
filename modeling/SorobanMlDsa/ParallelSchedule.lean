import Mathlib.Algebra.Order.BigOperators.Group.List
import Mathlib.Algebra.Order.Ring.Nat
import Mathlib.Algebra.Group.Action.Defs
import Mathlib.Data.List.MinMax
import Mathlib.Order.Bounds.Basic

/-!
# Schedules of stages and clusters

Clusters of a stage run side by side and a stage lasts as long as its longest
cluster; stages run one after the other. Bounded are the clusters of a stage and
the total of the stages, and the question is how many tasks of one cost fit.
-/
namespace ParallelSchedule

variable {τ : Type}

abbrev Cluster (τ : Type) := List τ

abbrev Stage (τ : Type) := List (Cluster τ)

abbrev Schedule (τ : Type) := List (Stage τ)

def placed (S : Schedule τ) : List τ := S.flatten.flatten

@[simp] theorem placed_nil : placed ([] : Schedule τ) = [] := rfl

@[simp] theorem placed_cons (s : Stage τ) (S : Schedule τ) : placed (s::S) = s.flatten ++ placed S := by
  simp [placed]

section Cost

variable (cost : τ → ℕ)

def clusterCost (k : Cluster τ) : ℕ := (k.map cost).sum

def stageCost (s : Stage τ) : ℕ := (s.map (clusterCost cost)).foldr max 0

def scheduleCost (S : Schedule τ) : ℕ := (S.map (stageCost cost)).sum

structure Admissible (width budget : ℕ) (S : Schedule τ) : Prop where
  width_le : ∀ s ∈ S, s.length ≤ width
  cost_le : scheduleCost cost S ≤ budget

/-- How many tasks an admissible schedule can hold when each costs `c`. -/
def counts (width budget c : ℕ) : Set ℕ :=
  {n | ∃ S, Admissible cost width budget S ∧ (∀ t ∈ placed S, cost t = c) ∧ (placed S).length = n}

end Cost

variable {cost : τ → ℕ} {c : ℕ}

theorem clusterCost_le_stageCost {k : Cluster τ} {s : Stage τ} (hk : k ∈ s) :
    clusterCost cost k ≤ stageCost cost s :=
  List.le_max_of_le (List.mem_map_of_mem hk) (Nat.le_refl _)

theorem stageCost_le {s : Stage τ} {b : ℕ} (h : ∀ k ∈ s, clusterCost cost k ≤ b) : stageCost cost s ≤ b :=
  List.max_le_of_forall_le _ _ (by simpa using h)

theorem cluster_length_le (hc : 0 < c) {k : Cluster τ} (h : ∀ t ∈ k, c ≤ cost t) :
    k.length ≤ clusterCost cost k / c := by
  have hsum := List.card_nsmul_le_sum (k.map cost) c (by simpa using h)
  rw [Nat.le_div_iff_mul_le hc]
  simpa [clusterCost] using hsum

/-- A stage holds at most as many tasks as its clusters would if all were as long
as the longest. -/
theorem stage_length_le (hc : 0 < c) {width : ℕ} {s : Stage τ} (hw : s.length ≤ width)
    (h : ∀ t ∈ s.flatten, c ≤ cost t) : s.flatten.length ≤ width * (stageCost cost s / c) := by
  have hcluster : ∀ n ∈ s.map List.length, n ≤ stageCost cost s / c := by
    intro n hn
    obtain ⟨k,hk,rfl⟩ := List.mem_map.mp hn
    have hlen := cluster_length_le hc fun t ht => h t (List.mem_flatten.mpr ⟨k,hk,ht⟩)
    exact hlen.trans (Nat.div_le_div_right (clusterCost_le_stageCost hk))
  have hsum := List.sum_le_card_nsmul _ _ hcluster
  rw [List.length_map,smul_eq_mul] at hsum
  rw [List.length_flatten]
  exact hsum.trans (Nat.mul_le_mul_right _ hw)

/-- Dividing the work among stages recovers nothing of what a stage loses to
rounding. -/
theorem placed_length_le (hc : 0 < c) {width : ℕ} {S : Schedule τ} (hw : ∀ s ∈ S, s.length ≤ width)
    (h : ∀ t ∈ placed S, c ≤ cost t) : (placed S).length ≤ width * (scheduleCost cost S / c) := by
  induction S with
  | nil => simp
  | cons s S ih =>
    rw [List.forall_mem_cons] at hw
    simp only [placed_cons,List.forall_mem_append] at h
    have hs := stage_length_le hc hw.1 h.1
    have hS := ih hw.2 h.2
    have hdiv : stageCost cost s / c + scheduleCost cost S / c ≤ scheduleCost cost (s::S) / c :=
      Nat.div_add_div_le_add_div
    calc (placed (s::S)).length = s.flatten.length + (placed S).length := by simp
      _ ≤ width * (stageCost cost s / c) + width * (scheduleCost cost S / c) := Nat.add_le_add hs hS
      _ = width * (stageCost cost s / c + scheduleCost cost S / c) := (Nat.mul_add _ _ _).symm
      _ ≤ width * (scheduleCost cost (s::S) / c) := Nat.mul_le_mul_left _ hdiv

/-- `n` copies of a task dealt to `width` clusters, `q` to each while they last. -/
def fill (t : τ) (q : ℕ) : (width n : ℕ) → Stage τ
  | 0,_ => []
  | width+1,n => List.replicate (min n q) t :: fill t q width (n - q)

@[simp] theorem fill_length (t : τ) (q width n : ℕ) : (fill t q width n).length = width := by
  induction width generalizing n with
  | zero => rfl
  | succ width ih => simp [fill,ih]

theorem fill_flatten (t : τ) (q width n : ℕ) :
    (fill t q width n).flatten = List.replicate (min n (width * q)) t := by
  induction width generalizing n with
  | zero => simp [fill]
  | succ width ih =>
    rw [fill,List.flatten_cons,ih,List.replicate_append_replicate]
    congr 1
    rw [Nat.succ_mul]
    omega

theorem fill_stageCost (t : τ) (q width n : ℕ) : stageCost cost (fill t q width n) ≤ q * cost t := by
  apply stageCost_le
  induction width generalizing n with
  | zero => simp [fill]
  | succ width ih =>
    rw [fill,List.forall_mem_cons]
    refine ⟨?_,ih (n - q)⟩
    simp only [clusterCost,List.map_replicate,List.sum_replicate,smul_eq_mul]
    exact Nat.mul_le_mul_right _ (Nat.min_le_right n q)

/-- One stage of balanced clusters reaches every count the bound allows. -/
theorem exists_schedule {t : τ} (ht : cost t = c) {width budget n : ℕ}
    (hn : n ≤ width * (budget / c)) : n ∈ counts cost width budget c := by
  have hcost : stageCost cost (fill t (budget / c) width n) ≤ budget / c * cost t := fill_stageCost _ _ _ _
  have hplaced : placed [fill t (budget / c) width n] = List.replicate n t := by
    simp [fill_flatten,Nat.min_eq_left hn]
  refine ⟨[fill t (budget / c) width n],⟨by simp,?_⟩,?_,?_⟩
  · calc scheduleCost cost [fill t (budget / c) width n] = stageCost cost (fill t (budget / c) width n) := rfl
      _ ≤ budget / c * c := ht ▸ hcost
      _ ≤ budget := Nat.div_mul_le_self budget c
  · intro u hu
    rw [hplaced] at hu
    rw [(List.mem_replicate.mp hu).2,ht]
  · rw [hplaced,List.length_replicate]

theorem counts_eq (hc : 0 < c) {t : τ} (ht : cost t = c) (width budget : ℕ) :
    counts cost width budget c = Set.Iic (width * (budget / c)) := by
  ext n
  constructor
  · rintro ⟨S,hS,hcost,rfl⟩
    have hle := placed_length_le hc hS.width_le fun u hu => (hcost u hu).ge
    exact hle.trans (Nat.mul_le_mul_left _ (Nat.div_le_div_right hS.cost_le))
  · exact exists_schedule ht

/-- The largest count under a further cap on the number of tasks. -/
theorem isGreatest_counts (hc : 0 < c) {t : τ} (ht : cost t = c) (width budget cap : ℕ) :
    IsGreatest (counts cost width budget c ∩ Set.Iic cap) (min (width * (budget / c)) cap) := by
  rw [counts_eq hc ht,Set.Iic_inter_Iic]
  exact isGreatest_Iic

end ParallelSchedule

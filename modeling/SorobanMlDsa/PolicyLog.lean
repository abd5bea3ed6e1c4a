import Mathlib.Data.List.Induction
import Mathlib.Tactic.Common

/-!
# Logs kept by a policy

Attempts are made one after the other, and a policy that may look at everything written so far
decides which of them are written down. Nothing is ever taken out again.
-/

namespace PolicyLog

variable {I T N : Type}

abbrev Policy (I : Type) := List I → I → Bool

def append (accepts : Policy I) (log : List I) (i : I) : List I := if accepts log i then log ++ [i] else log

/-- The log after a sequence of attempts. -/
def run (accepts : Policy I) (is : List I) : List I := is.foldl (append accepts) []

/-- Every entry was let through by the log before it. -/
def Kept (accepts : Policy I) (log : List I) : Prop := ∀ before i, before ++ [i] <+: log → accepts before i = true

section

variable {accepts : Policy I} {log before : List I} {i : I}

theorem run_append (is js : List I) : run accepts (is ++ js) = js.foldl (append accepts) (run accepts is) :=
  List.foldl_append

theorem run_append_singleton (is : List I) (i : I) : run accepts (is ++ [i]) = append accepts (run accepts is) i :=
  run_append is [i]

theorem append_accepted (h : accepts log i = true) : append accepts log i = log ++ [i] := if_pos h

/-- One more entry: a prefix that ends in an entry ended before, or is the whole. -/
theorem prefix_append_singleton {j : I} (h : before ++ [j] <+: log ++ [i]) :
    before ++ [j] <+: log ∨ (before = log ∧ j = i) := by
  rcases List.prefix_concat_iff.mp h with heq | hle
  · obtain ⟨rfl,hlast⟩ := List.append_inj' heq rfl
    exact .inr ⟨rfl,List.singleton_inj.mp hlast⟩
  · exact .inl hle

theorem kept_nil : Kept accepts [] := by
  intro before i h
  simp at h

theorem Kept.append (h : Kept accepts log) (i : I) : Kept accepts (append accepts log i) := by
  by_cases hi : accepts log i = true
  · rw [append_accepted hi]
    intro before j hj
    rcases prefix_append_singleton hj with hold | ⟨rfl,rfl⟩
    · exact h before j hold
    · exact hi
  · rw [PolicyLog.append,if_neg hi]
    exact h

theorem kept_run (accepts : Policy I) (is : List I) : Kept accepts (run accepts is) := by
  induction is using List.reverseRecOn with
  | nil => exact kept_nil
  | append_singleton is i ih =>
    rw [run_append_singleton]
    exact ih.append i

theorem Kept.of_prefix (h : Kept accepts log) (hp : before <+: log) : Kept accepts before :=
  fun past i hi => h past i (hi.trans hp)

theorem take_prefix_of_getElem? {n : ℕ} (h : log[n]? = some i) : log.take n ++ [i] <+: log := by
  obtain ⟨hlt,rfl⟩ := List.getElem?_eq_some_iff.mp h
  rw [List.take_append_getElem hlt]
  exact List.take_prefix _ log

end

section Recorded

/-- What `f` makes of the entries, each with the log before it. -/
def recordedFrom (f : List I → I → Option T) (past : List I) : List I → List T
  | [] => []
  | i::is => (f past i).toList ++ recordedFrom f (past ++ [i]) is

def recorded (f : List I → I → Option T) (log : List I) : List T := recordedFrom f [] log

variable {f : List I → I → Option T} {log : List I}

theorem recordedFrom_append_singleton (past is : List I) (i : I) :
    recordedFrom f past (is ++ [i]) = recordedFrom f past is ++ (f (past ++ is) i).toList := by
  induction is generalizing past with
  | nil => simp [recordedFrom]
  | cons j is ih => simp [recordedFrom,ih]

@[simp] theorem recorded_nil : recorded f [] = [] := rfl

@[simp] theorem recorded_append_singleton (log : List I) (i : I) :
    recorded f (log ++ [i]) = recorded f log ++ (f log i).toList := recordedFrom_append_singleton [] log i

theorem mem_recorded {t : T} : t ∈ recorded f log ↔ ∃ before i, before ++ [i] <+: log ∧ f before i = some t := by
  induction log using List.reverseRecOn with
  | nil => simp
  | append_singleton log i ih =>
    rw [recorded_append_singleton,List.mem_append,ih,Option.mem_toList]
    constructor
    · rintro (⟨before,j,hj,ht⟩ | ht)
      · exact ⟨before,j,hj.trans (List.prefix_append log [i]),ht⟩
      · exact ⟨log,i,List.prefix_refl _,ht⟩
    · rintro ⟨before,j,hj,ht⟩
      rcases prefix_append_singleton hj with hold | ⟨rfl,rfl⟩
      · exact .inl ⟨before,j,hold,ht⟩
      · exact .inr ht

/-- Two entries of a log, of which the later one has the earlier one before it. -/
theorem pairwise_recorded {R : T → T → Prop} (h : ∀ before i between j t t',
    before ++ [i] ++ between ++ [j] <+: log → f before i = some t → f (before ++ [i] ++ between) j = some t' →
      R t t') : (recorded f log).Pairwise R := by
  induction log using List.reverseRecOn with
  | nil => exact List.Pairwise.nil
  | append_singleton log j ih =>
    rw [recorded_append_singleton,List.pairwise_append]
    refine ⟨ih fun before i between j' t t' hp =>
      h before i between j' t t' (hp.trans (List.prefix_append log [j])),?_,?_⟩
    · cases f log j <;> simp
    · intro t ht t' ht'
      obtain ⟨before,i,⟨between,rfl⟩,hi⟩ := mem_recorded.mp ht
      exact h before i between j t t' (List.prefix_refl _) hi (Option.mem_toList.mp ht')

theorem length_recorded {p : I → Bool} (h : ∀ before i, before ++ [i] <+: log → (f before i).isSome = p i) :
    (recorded f log).length = log.countP p := by
  induction log using List.reverseRecOn with
  | nil => rfl
  | append_singleton log i ih =>
    have hlast := h log i (List.prefix_refl _)
    rw [recorded_append_singleton,List.length_append,List.countP_append,
      ih fun before j hj => h before j (hj.trans (List.prefix_append log [i])),List.countP_singleton,← hlast]
    cases f log i <;> rfl

end Recorded

/-! Logs of several places in one: each place has its own policy, which sees its own part. -/

section Places

variable [DecidableEq N]

def part (n : N) (log : List (N × I)) : List I := log.filterMap fun e => if e.1 = n then some e.2 else none

def beside (accepts : N → Policy I) : Policy (N × I) := fun log e => accepts e.1 (part e.1 log) e.2

variable {n : N} {log before : List (N × I)}

@[simp] theorem part_append (log log' : List (N × I)) : part n (log ++ log') = part n log ++ part n log' :=
  List.filterMap_append

@[simp] theorem part_self (i : I) : part n [(n,i)] = [i] := by simp [part]

theorem part_mono (h : before <+: log) : part n before <+: part n log := by
  obtain ⟨rest,rfl⟩ := h
  rw [part_append]
  exact List.prefix_append _ _

theorem part_snoc {e : N × I} (h : before ++ [e] <+: log) : part e.1 before ++ [e.2] <+: part e.1 log := by
  have hpart := part_mono (n := e.1) h
  rwa [part_append,part_self] at hpart

/-- Each part is kept by its own policy. -/
theorem Kept.part {accepts : N → Policy I} (h : Kept (beside accepts) log) (n : N) :
    Kept (accepts n) (PolicyLog.part n log) := by
  induction log using List.reverseRecOn with
  | nil => exact kept_nil
  | append_singleton log e ih =>
    obtain ⟨m,i⟩ := e
    have hold := ih (h.of_prefix (List.prefix_append log [(m,i)]))
    by_cases hm : m = n
    · subst hm
      have haccepted : accepts m (PolicyLog.part m log) i = true := h log (m,i) (List.prefix_refl _)
      rw [part_append,part_self,← append_accepted haccepted]
      exact hold.append i
    · have hnone : PolicyLog.part n [(m,i)] = [] := by simp [PolicyLog.part,hm]
      rw [part_append,hnone,List.append_nil]
      exact hold

end Places

end PolicyLog

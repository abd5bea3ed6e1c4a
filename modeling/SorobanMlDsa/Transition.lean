import Mathlib.Data.List.Basic
import Mathlib.Tactic.Common

/-! Finite runs of a deterministic machine driven by a list of inputs.
A run is kept as the list of its edges, so that a property of every step taken
and a property of the state reached are statements about one object. -/
namespace Transition

variable {S T I O : Type}

structure Edge (S I : Type) where
  before : S
  input : I
  after : S

/-- The edges passed while feeding `is` to a machine in state `s`. -/
def trace (step : S → I → S) : S → List I → List (Edge S I)
  | _, [] => []
  | s, i::is => ⟨s,i,step s i⟩ :: trace step (step s i) is

@[simp] theorem trace_nil (step : S → I → S) (s : S) : trace step s [] = [] := rfl

@[simp] theorem trace_cons (step : S → I → S) (s : S) (i : I) (is : List I) :
    trace step s (i::is) = ⟨s,i,step s i⟩ :: trace step (step s i) is := rfl

theorem trace_append (step : S → I → S) (s : S) (is js : List I) :
    trace step s (is ++ js) = trace step s is ++ trace step (is.foldl step s) js := by
  induction is generalizing s with
  | nil => rfl
  | cons i is ih => simp [ih]

theorem trace_after {step : S → I → S} {s : S} {is : List I} {e : Edge S I}
    (he : e ∈ trace step s is) : e.after = step e.before e.input := by
  induction is generalizing s with
  | nil => simp at he
  | cons i is ih =>
    rcases List.mem_cons.mp he with rfl | he
    · rfl
    · exact ih he

theorem foldl_of_trace {step : S → I → S} {P : S → Prop} {s : S} {is : List I}
    (h : ∀ e ∈ trace step s is, P e.before → P e.after) (hs : P s) : P (is.foldl step s) := by
  induction is generalizing s with
  | nil => exact hs
  | cons i is ih =>
    simp only [trace_cons,List.forall_mem_cons] at h
    exact ih h.2 (h.1 hs)

/-- When a step either overwrites a cell or leaves it, a run leaves the last value
written to it. -/
theorem foldl_lastWrite {step : S → I → S} {cell : S → Option O} {write : Edge S I → Option O}
    (h : ∀ s i, cell (step s i) = (write ⟨s,i,step s i⟩).or (cell s)) (s : S) (is : List I) :
    cell (is.foldl step s) = ((trace step s is).filterMap write).getLast?.or (cell s) := by
  induction is generalizing s with
  | nil => rfl
  | cons i is ih =>
    rw [List.foldl_cons,ih,h,trace_cons]
    cases hw : write ⟨s,i,step s i⟩ with
    | none => simp [hw]
    | some o => simp [hw,List.getLast?_cons]

theorem forall_trace_iff {step : S → I → S} {P Q : Edge S I → Prop}
    (h : ∀ s i, P ⟨s,i,step s i⟩ ↔ Q ⟨s,i,step s i⟩) (s : S) (is : List I) :
    (∀ e ∈ trace step s is, P e) ↔ ∀ e ∈ trace step s is, Q e := by
  induction is generalizing s with
  | nil => simp
  | cons i is ih => simp only [trace_cons,List.forall_mem_cons,h,ih]

/-- Two machines stay related when every step keeps them related. -/
theorem foldl_simulates {step : S → I → S} {step' : T → I → T} {R : S → T → Prop}
    (h : ∀ s t i, R s t → R (step s i) (step' t i)) {s : S} {t : T} (hst : R s t)
    (is : List I) : R (is.foldl step s) (is.foldl step' t) := by
  induction is generalizing s t with
  | nil => exact hst
  | cons i is ih => exact ih (h s t i hst)

/-- A guard that remembers the keys it has seen. -/
def remember [DecidableEq I] (used : List I) (k : I) : List I := List.insert k used

/-- The guard meets no key again exactly when none is presented twice. -/
theorem forall_fresh_iff [DecidableEq I] (used ks : List I) :
    (∀ e ∈ trace remember used ks, e.input ∉ e.before) ↔ ks.Nodup ∧ ∀ k ∈ ks, k ∉ used := by
  induction ks generalizing used with
  | nil => simp
  | cons k ks ih =>
    simp only [trace_cons,List.forall_mem_cons,ih,List.nodup_cons,remember,List.mem_insert_iff,not_or]
    constructor
    · rintro ⟨hk,hnodup,hks⟩
      exact ⟨⟨fun hmem => (hks k hmem).1 rfl,hnodup⟩,hk,fun j hj => (hks j hj).2⟩
    · rintro ⟨⟨hk,hnodup⟩,hused,hks⟩
      refine ⟨hused,hnodup,fun j hj => ⟨?_,hks j hj⟩⟩
      rintro rfl
      exact hk hj

end Transition

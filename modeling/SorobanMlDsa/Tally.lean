import Mathlib.Algebra.BigOperators.Group.List.Basic
import Mathlib.Data.Nat.Notation
import Mathlib.Tactic.Common

/-!
# Loops that check and count

Each element is read, tested and counted, and the first that fails ends the loop. When one
element passes exactly if it reads as something good, so does the loop, and its count is a sum
over what was read.
-/

namespace Tally

variable {E A C M : Type} [AddMonoid M]

/-- The counts of all elements, up to the first that fails. -/
def tally (f : A → Except E M) : List A → Except E M
  | [] => .ok 0
  | a::as => do
    let m ← f a
    let ms ← tally f as
    return m + ms

/-- `f` passes `a` exactly if it reads as some `c` that is good, and counts it as `weight c`. -/
def Passes (f : A → Except E M) (read : A → Option C) (good : C → Prop) (weight : C → M) : Prop :=
  ∀ a m, f a = .ok m ↔ ∃ c, read a = some c ∧ good c ∧ weight c = m

variable {f : A → Except E M} {read : A → Option C} {good : C → Prop} {weight : C → M}

theorem tally_cons_eq_ok {a : A} {as : List A} {s : M} :
    tally f (a::as) = .ok s ↔ ∃ m ms, f a = .ok m ∧ tally f as = .ok ms ∧ m + ms = s := by
  show (f a >>= fun m => tally f as >>= fun ms => Except.ok (m + ms)) = .ok s ↔ _
  cases f a with
  | error e => simp [bind,Except.bind]
  | ok m => cases tally f as <;> simp [bind,Except.bind]

theorem mapM_cons_eq_some {a : A} {as : List A} {cs : List C} :
    (a::as).mapM read = some cs ↔ ∃ c cs', read a = some c ∧ as.mapM read = some cs' ∧ c::cs' = cs := by
  simp only [List.mapM_cons,Option.bind_eq_bind,Option.bind_eq_some_iff,Option.pure_def,Option.some.injEq]
  constructor
  · rintro ⟨c,hc,cs',hcs,heq⟩
    exact ⟨c,cs',hc,hcs,heq⟩
  · rintro ⟨c,cs',hc,hcs,heq⟩
    exact ⟨c,hc,cs',hcs,heq⟩

theorem mapM_eq_some_map {C' : Type} {read' : A → Option C'} {part : C → C'}
    (h : ∀ a c, read a = some c → read' a = some (part c)) {as : List A} {cs : List C}
    (hcs : as.mapM read = some cs) : as.mapM read' = some (cs.map part) := by
  induction as generalizing cs with
  | nil =>
    obtain rfl : [] = cs := Option.some.inj hcs
    rfl
  | cons a as ih =>
    obtain ⟨c,rest,hc,hrest,rfl⟩ := mapM_cons_eq_some.mp hcs
    exact mapM_cons_eq_some.mpr ⟨part c,_,h a c hc,ih hrest,rfl⟩

/-- The loop over a list passes under the rule for one element, with the counts added up. -/
theorem Passes.tally (h : Passes f read good weight) :
    Passes (tally f) (List.mapM read) (fun cs => ∀ c ∈ cs, good c) fun cs => (cs.map weight).sum := by
  intro as
  induction as with
  | nil =>
    intro s
    simp [Tally.tally]
  | cons a as ih =>
    intro s
    rw [tally_cons_eq_ok]
    constructor
    · rintro ⟨m,ms,hm,hms,rfl⟩
      obtain ⟨c,hc,hgood,rfl⟩ := (h a m).mp hm
      obtain ⟨cs,hcs,hall,rfl⟩ := (ih ms).mp hms
      exact ⟨c::cs,mapM_cons_eq_some.mpr ⟨c,cs,hc,hcs,rfl⟩,List.forall_mem_cons.mpr ⟨hgood,hall⟩,
        List.sum_cons⟩
    · rintro ⟨_,hread,hall,rfl⟩
      obtain ⟨c,cs,hc,hcs,rfl⟩ := mapM_cons_eq_some.mp hread
      obtain ⟨hgood,hrest⟩ := List.forall_mem_cons.mp hall
      exact ⟨weight c,_,(h a _).mpr ⟨c,hc,hgood,rfl⟩,(ih _).mpr ⟨cs,hcs,hrest,rfl⟩,List.sum_cons.symm⟩

theorem tally_eq_ok {good : A → Prop} {weight : A → M} (as : List A)
    (h : ∀ a ∈ as, ∀ m, f a = .ok m ↔ good a ∧ weight a = m) (s : M) :
    tally f as = .ok s ↔ (∀ a ∈ as, good a) ∧ (as.map weight).sum = s := by
  induction as generalizing s with
  | nil => simp [Tally.tally]
  | cons a as ih =>
    obtain ⟨ha,has⟩ := List.forall_mem_cons.mp h
    rw [tally_cons_eq_ok,List.forall_mem_cons,List.map_cons,List.sum_cons]
    constructor
    · rintro ⟨m,ms,hm,hms,rfl⟩
      obtain ⟨hgood,rfl⟩ := (ha m).mp hm
      obtain ⟨hrest,rfl⟩ := (ih has ms).mp hms
      exact ⟨⟨hgood,hrest⟩,rfl⟩
    · rintro ⟨⟨hgood,hrest⟩,rfl⟩
      exact ⟨_,_,(ha _).mpr ⟨hgood,rfl⟩,(ih has _).mpr ⟨hrest,rfl⟩,rfl⟩

end Tally

import Mathlib.Tactic.Common

/-!
# What a rejection can reveal

A computation that may fail is read as an oracle on its inputs, of which some
public view is known anyway. It rejects uniformly when the view alone decides
which error a rejected input gets. The rules below follow the shape of programs.
-/
namespace Rejection

variable {I V E F A B : Type}

/-- Two rejected inputs with one view are rejected with one error. -/
def Uniform (view : I → V) (run : I → Except E A) : Prop :=
  ∀ x y e e', view x = view y → run x = .error e → run y = .error e' → e = e'

/-- The errors a computation can end in are all `e`. -/
def Only (e : E) (run : I → Except E A) : Prop := ∀ x e', run x = .error e' → e' = e

theorem Only.uniform {e : E} {run : I → Except E A} (h : Only e run) (view : I → V) : Uniform view run :=
  fun x y _ _ _ hx hy => (h x _ hx).trans (h y _ hy).symm

theorem Uniform.mapError {view : I → V} {run : I → Except E A} (h : Uniform view run) (g : E → F) :
    Uniform view fun x => (run x).mapError g := by
  intro x y e e' hview hx hy
  cases hrx : run x with
  | ok a => simp [hrx,Except.mapError] at hx
  | error d =>
    cases hry : run y with
    | ok a => simp [hry,Except.mapError] at hy
    | error d' =>
      simp only [hrx,Except.mapError,Except.error.injEq] at hx
      simp only [hry,Except.mapError,Except.error.injEq] at hy
      rw [← hx,← hy,h x y d d' hview hrx hry]

/-- A test of the view in front of a uniform computation. -/
theorem Uniform.gate {view : I → V} (test : V → Except E B) {run : B → I → Except E A}
    (h : ∀ b, Uniform view (run b)) : Uniform view fun x => test (view x) >>= fun b => run b x := by
  intro x y e e' hview hx hy
  cases ht : test (view x) with
  | error d =>
    have hty : test (view y) = .error d := hview ▸ ht
    simp only [ht] at hx
    simp only [hty] at hy
    exact (Except.error.inj hx).symm.trans (Except.error.inj hy)
  | ok b =>
    have hty : test (view y) = .ok b := hview ▸ ht
    simp only [ht] at hx
    simp only [hty] at hy
    exact h b x y e e' hview hx hy

end Rejection

import Mathlib.Data.List.Basic
import Mathlib.Data.Nat.Notation
import Mathlib.Tactic.Common

/-! Byte strings, fixed-size arrays and caller-owned output buffers.
A slice operation that aborts the program is a value of its own here, so that
the absence of a panic is something to prove and not a convention. -/
namespace ByteSlice

abbrev Bytes := List UInt8

/-- The ways a computation ends without returning. -/
inductive Panic
  | copyLength (dst src : ℕ)
  | sliceRange (stop len : ℕ)
  | malformedKey
  | trap
  deriving DecidableEq, Repr

abbrev Outcome (α : Type) := Except Panic α

@[simp] theorem ok_bind {ε α β : Type} (a : α) (f : α → Except ε β) : (Except.ok a >>= f) = f a := rfl

@[simp] theorem error_bind {ε α β : Type} (e : ε) (f : α → Except ε β) :
    (Except.error e >>= f) = .error e := rfl

@[simp] theorem pure_eq_ok {ε α : Type} (a : α) : (pure a : Except ε α) = .ok a := rfl

theorem bind_eq_ok {ε α β : Type} {x : Except ε α} {f : α → Except ε β} {b : β} :
    (x >>= f) = .ok b ↔ ∃ a, x = .ok a ∧ f a = .ok b := by
  cases x <;> simp

theorem toOption_eq_some {ε α : Type} {x : Except ε α} {a : α} : x.toOption = some a ↔ x = .ok a := by
  cases x <;> simp [Except.toOption]

/-- A byte array of fixed length; also the contents of a mutable slice, whose
length no write through it can change. -/
abbrev Arr (n : ℕ) := {b : Bytes // b.length = n}

theorem Arr.length_val {n : ℕ} (a : Arr n) : a.val.length = n := a.property

def Arr.zero (n : ℕ) : Arr n := ⟨List.replicate n 0,List.length_replicate⟩

def tryFrom (n : ℕ) (bytes : Bytes) : Option (Arr n) :=
  if h : bytes.length = n then some ⟨bytes,h⟩ else none

theorem tryFrom_of_length {n : ℕ} {bytes : Bytes} (h : bytes.length = n) :
    tryFrom n bytes = some ⟨bytes,h⟩ := dif_pos h

@[simp] theorem tryFrom_val {n : ℕ} (a : Arr n) : tryFrom n a.val = some a :=
  tryFrom_of_length a.property

theorem tryFrom_eq_none {n : ℕ} {bytes : Bytes} (h : bytes.length ≠ n) :
    tryFrom n bytes = none := dif_neg h

/-- Copy the whole of `src` over the array `dst`; the lengths must agree. -/
def copyIntoSlice {n : ℕ} (src : Bytes) (_dst : Arr n) : Outcome (Arr n) :=
  if h : src.length = n then .ok ⟨src,h⟩ else .error (.copyLength n src.length)

theorem copyIntoSlice_ok {n : ℕ} {src : Bytes} (dst : Arr n) (h : src.length = n) :
    copyIntoSlice src dst = .ok ⟨src,h⟩ := dif_pos h

def Arr.overwrite {k : ℕ} (out : Arr k) (src : Bytes) (h : src.length ≤ k) : Arr k :=
  ⟨src ++ out.val.drop src.length,by simp [out.property]; omega⟩

@[simp] theorem Arr.overwrite_take {k : ℕ} (out : Arr k) (src : Bytes) (h : src.length ≤ k) :
    (out.overwrite src h).val.take src.length = src := by simp [Arr.overwrite]

/-- Copy `src` over the first `stop` bytes of a buffer. Taking the prefix panics
when the buffer is shorter, the copy when the lengths differ. -/
def copyPrefix {k : ℕ} (out : Arr k) (stop : ℕ) (src : Bytes) : Outcome (Arr k) :=
  if hk : stop ≤ k then
    if hs : src.length = stop then .ok (out.overwrite src (hs ▸ hk))
    else .error (.copyLength stop src.length)
  else .error (.sliceRange stop k)

theorem copyPrefix_ok {k stop : ℕ} (out : Arr k) {src : Bytes}
    (hs : src.length = stop) (hk : stop ≤ k) :
    copyPrefix out stop src = .ok (out.overwrite src (hs ▸ hk)) := by
  simp [copyPrefix,hs,hk]

end ByteSlice

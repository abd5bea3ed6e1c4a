import Mathlib.Data.Nat.Notation
import Mathlib.Data.Int.Notation
import Mathlib.Tactic.Common

/-!
# Fixed-width integers in two builds

A fixed-width type is an interval of the integers and a wrapping conversion back into it. When
the result of an operator leaves the interval, a debug build stops and a release build wraps;
casts always wrap.
-/
namespace MachineInt

class FixedWidth (α : Type) where
  lo : ℤ
  hi : ℤ
  toInt : α → ℤ
  wrap : ℤ → α
  lo_le : ∀ a, lo ≤ toInt a
  le_hi : ∀ a, toInt a ≤ hi
  toInt_wrap : ∀ z, lo ≤ z → z ≤ hi → toInt (wrap z) = z
  wrap_toInt : ∀ a, wrap (toInt a) = a

export FixedWidth (toInt wrap)

instance : FixedWidth UInt32 where
  lo := 0
  hi := 4294967295
  toInt a := a.toNat
  wrap := UInt32.ofInt
  lo_le a := by omega
  le_hi a := by
    have := a.toNat_lt
    omega
  toInt_wrap z h0 h1 := by
    rw [UInt32.ofInt,UInt32.toNat_ofNat']
    omega
  wrap_toInt a := by
    have := a.toNat_lt
    apply UInt32.toNat_inj.mp
    rw [UInt32.ofInt,UInt32.toNat_ofNat']
    omega

instance : FixedWidth UInt64 where
  lo := 0
  hi := 18446744073709551615
  toInt a := a.toNat
  wrap := UInt64.ofInt
  lo_le a := by omega
  le_hi a := by
    have := a.toNat_lt
    omega
  toInt_wrap z h0 h1 := by
    rw [UInt64.ofInt,UInt64.toNat_ofNat']
    omega
  wrap_toInt a := by
    have := a.toNat_lt
    apply UInt64.toNat_inj.mp
    rw [UInt64.ofInt,UInt64.toNat_ofNat']
    omega

instance : FixedWidth Int64 where
  lo := -9223372036854775808
  hi := 9223372036854775807
  toInt := Int64.toInt
  wrap := Int64.ofInt
  lo_le a := by
    have := a.le_toInt
    omega
  le_hi a := by
    have := a.toInt_lt
    omega
  toInt_wrap z h0 h1 := Int64.toInt_ofInt_of_le (by omega) (by omega)
  wrap_toInt := Int64.ofInt_toInt

/-- Whether a build checks for overflow. -/
inductive Build
  | debug
  | release
  deriving DecidableEq, Repr

inductive Fault
  | overflow
  | divisionByZero
  deriving DecidableEq, Repr

abbrev Checked (α : Type) := Except Fault α

variable {α β : Type} [FixedWidth α] [FixedWidth β]

variable (α) in
def Fits (z : ℤ) : Prop := FixedWidth.lo α ≤ z ∧ z ≤ FixedWidth.hi α

instance (z : ℤ) : Decidable (Fits α z) := inferInstanceAs (Decidable (_ ∧ _))

/-- The result of an operator whose value on the integers is `z`. -/
def settle (b : Build) (z : ℤ) : Checked α :=
  match b with
  | .release => .ok (wrap z)
  | .debug => if Fits α z then .ok (wrap z) else .error .overflow

def add (b : Build) (x y : α) : Checked α := settle b (toInt x + toInt y)

def sub (b : Build) (x y : α) : Checked α := settle b (toInt x - toInt y)

def mul (b : Build) (x y : α) : Checked α := settle b (toInt x * toInt y)

/-- Division towards zero; both of its faults stop every build. -/
def div (x y : α) : Checked α :=
  if toInt y = 0 then .error .divisionByZero
  else if Fits α ((toInt x).tdiv (toInt y)) then .ok (wrap ((toInt x).tdiv (toInt y)))
  else .error .overflow

variable (β) in
/-- A cast, which wraps in every build. -/
def cast (x : α) : β := wrap (toInt x)

theorem fits_toInt (x : α) : Fits α (toInt x) := ⟨FixedWidth.lo_le x,FixedWidth.le_hi x⟩

theorem toInt_wrap {z : ℤ} (h : Fits α z) : toInt (wrap z : α) = z := FixedWidth.toInt_wrap z h.1 h.2

theorem toInt_inj {x y : α} : toInt x = toInt y ↔ x = y := by
  constructor
  · intro h
    rw [← FixedWidth.wrap_toInt x,h,FixedWidth.wrap_toInt]
  · exact congrArg toInt

theorem toInt_cast {x : α} (h : Fits β (toInt x)) : toInt (cast β x) = toInt x := toInt_wrap h

theorem settle_fits {z : ℤ} (b : Build) (h : Fits α z) : (settle b z : Checked α) = .ok (wrap z) := by
  cases b with
  | debug => exact if_pos h
  | release => rfl

/-- An operator stops in debug builds only, and there exactly on overflow. -/
theorem settle_eq_error {b : Build} {z : ℤ} {f : Fault} :
    (settle b z : Checked α) = .error f ↔ b = .debug ∧ ¬ Fits α z ∧ f = .overflow := by
  cases b with
  | release => simp [settle]
  | debug =>
    by_cases h : Fits α z
    · simp [settle,h]
    · simp [settle,h,eq_comm]

/-- An operator yields the integer it stands for exactly when that integer fits. -/
theorem settle_exact_iff {b : Build} {z : ℤ} :
    (∃ r : α, settle b z = .ok r ∧ toInt r = z) ↔ Fits α z := by
  constructor
  · rintro ⟨r,-,hr⟩
    exact hr ▸ fits_toInt r
  · intro h
    exact ⟨wrap z,settle_fits b h,toInt_wrap h⟩

theorem add_exact (b : Build) {x y : α} (h : Fits α (toInt x + toInt y)) :
    ∃ r, add b x y = .ok r ∧ toInt r = toInt x + toInt y := settle_exact_iff.mpr h

theorem mul_exact (b : Build) {x y : α} (h : Fits α (toInt x * toInt y)) :
    ∃ r, mul b x y = .ok r ∧ toInt r = toInt x * toInt y := settle_exact_iff.mpr h

theorem div_exact {x y : α} (hy : toInt y ≠ 0) (h : Fits α ((toInt x).tdiv (toInt y))) :
    ∃ r, div x y = .ok r ∧ toInt r = (toInt x).tdiv (toInt y) := by
  refine ⟨wrap ((toInt x).tdiv (toInt y)),?_,toInt_wrap h⟩
  rw [div,if_neg hy,if_pos h]

@[simp] theorem uint32_toInt (x : UInt32) : toInt x = (x.toNat : ℤ) := rfl

@[simp] theorem uint64_toInt (x : UInt64) : toInt x = (x.toNat : ℤ) := rfl

@[simp] theorem fits_uint32 {z : ℤ} : Fits UInt32 z ↔ 0 ≤ z ∧ z ≤ 4294967295 := Iff.rfl

@[simp] theorem fits_uint64 {z : ℤ} : Fits UInt64 z ↔ 0 ≤ z ∧ z ≤ 18446744073709551615 := Iff.rfl

@[simp] theorem fits_int64 {z : ℤ} :
    Fits Int64 z ↔ -9223372036854775808 ≤ z ∧ z ≤ 9223372036854775807 := Iff.rfl

theorem uint64_toNat_min (x y : UInt64) : (min x y).toNat = min x.toNat y.toNat := by
  have hmin : min x y = if x ≤ y then x else y := rfl
  rw [hmin,Nat.min_def,apply_ite UInt64.toNat]
  simp only [UInt64.le_iff_toNat_le]

theorem uint64_toNat_max (x y : UInt64) : (max x y).toNat = max x.toNat y.toNat := by
  have hmax : max x y = if x ≤ y then y else x := rfl
  rw [hmax,Nat.max_def,apply_ite UInt64.toNat]
  simp only [UInt64.le_iff_toNat_le]

def ofDigits (cs : List Char) : Option ℕ :=
  if cs ≠ [] ∧ cs.all Char.isDigit then some (Nat.ofDigitChars 10 cs 0) else none

variable (α) in
/-- Conversion that fails where a cast would wrap. -/
def narrow (z : ℤ) : Option α := if Fits α z then some (wrap z) else none

variable (α) in
/-- `str::parse` at a signed type: a sign if any, then at least one decimal digit, of
a value that fits. -/
def parse (s : String) : Option α :=
  match s.toList with
  | '-'::cs => (ofDigits cs).bind fun n => narrow α (-n)
  | '+'::cs => (ofDigits cs).bind fun n => narrow α n
  | cs => (ofDigits cs).bind fun n => narrow α n

def decimal (x : α) : String := toString (toInt x)

theorem narrow_toInt (x : α) : narrow α (toInt x) = some x := by
  rw [narrow,if_pos (fits_toInt x),FixedWidth.wrap_toInt]

theorem ofDigits_toDigits (n : ℕ) : ofDigits (Nat.toDigits 10 n) = some n := by
  have hall : (Nat.toDigits 10 n).all Char.isDigit = true := by
    rw [List.all_eq_true]
    intro c hc
    exact Nat.isDigit_of_mem_toDigits (by decide) (by decide) hc
  rw [ofDigits,if_pos ⟨Nat.toDigits_ne_nil,hall⟩,Nat.ofDigitChars_ten_toDigits]

theorem parse_repr (n : ℕ) : parse α n.repr = narrow α n := by
  have hdigits := ofDigits_toDigits n
  cases hcs : Nat.toDigits 10 n with
  | nil => exact absurd hcs Nat.toDigits_ne_nil
  | cons c cs =>
    have hc : c.isDigit = true :=
      Nat.isDigit_of_mem_toDigits (by decide) (by decide) (hcs ▸ List.mem_cons_self : c ∈ Nat.toDigits 10 n)
    rw [hcs] at hdigits
    rw [parse,Nat.toList_repr,hcs]
    split
    · rename_i heq
      rw [(List.cons.inj heq).1] at hc
      exact absurd hc (by decide)
    · rename_i heq
      rw [(List.cons.inj heq).1] at hc
      exact absurd hc (by decide)
    · rw [hdigits]
      rfl

/-- Every value of the type is read back from its decimal form. -/
theorem parse_decimal (x : α) : parse α (decimal x) = some x := by
  have hx := narrow_toInt x
  cases h : toInt x with
  | ofNat n =>
    have hdec : decimal x = n.repr := congrArg Int.repr h
    rw [hdec,parse_repr]
    rwa [h] at hx
  | negSucc n =>
    have hdec : (decimal x).toList = '-' :: Nat.toDigits 10 (n+1) := by
      have hrepr : decimal x = "-" ++ (n+1).repr := congrArg Int.repr h
      rw [hrepr,String.toList_append,Nat.toList_repr]
      rfl
    rw [parse,hdec]
    simp only [ofDigits_toDigits]
    rwa [h] at hx

end MachineInt

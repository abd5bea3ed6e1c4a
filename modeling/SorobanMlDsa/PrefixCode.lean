import Mathlib.Data.List.Basic
import Mathlib.Data.Nat.Notation
import Mathlib.Tactic.Common
import Mathlib.Tactic.Ring

/-!
# Self-delimiting encodings

An encoder maps a value to a word, or refuses it. It is self-delimiting when a word that starts
with the code of a value determines that value and the rest of the word; the property is kept
value by value, for inductions on the value being encoded.
-/

namespace PrefixCode

variable {α β γ σ : Type}

abbrev Encoder (α σ : Type) := α → Option (List σ)

/-- A word starting with the code of `x` is read back as `x` and nothing else. -/
def DelimitedAt (enc : Encoder α σ) (x : α) : Prop :=
  ∀ (y : α) (u v r s : List σ), enc x = some u → enc y = some v →
    u ++ r = v ++ s → y = x ∧ s = r

def SelfDelimiting (enc : Encoder α σ) : Prop := ∀ x, DelimitedAt enc x

def InjectiveCode (enc : Encoder α σ) : Prop :=
  ∀ (x y : α) (u : List σ), enc x = some u → enc y = some u → x = y

/-- No code is a proper prefix of another one. -/
def PrefixFree (enc : Encoder α σ) : Prop :=
  ∀ (x y : α) (u v : List σ), enc x = some u → enc y = some v → u <+: v → u = v

theorem SelfDelimiting.injectiveCode {enc : Encoder α σ} (h : SelfDelimiting enc) :
    InjectiveCode enc := fun x y u hx hy => (h x y u u [] [] hx hy rfl).1.symm

theorem SelfDelimiting.prefixFree {enc : Encoder α σ} (h : SelfDelimiting enc) :
    PrefixFree enc := by
  rintro x y u v hx hy ⟨t,rfl⟩
  have ht : [] = t := (h x y u (u ++ t) t [] hx hy (by simp)).2
  simp [← ht]

/-- Injectivity and prefix-freeness together are exactly what reading back needs. -/
theorem selfDelimiting_iff (enc : Encoder α σ) :
    SelfDelimiting enc ↔ InjectiveCode enc ∧ PrefixFree enc := by
  constructor
  · intro h
    exact ⟨h.injectiveCode,h.prefixFree⟩
  · rintro ⟨hi,hp⟩ x y u v r s hx hy h
    have huv : u = v := by
      rcases List.prefix_or_prefix_of_prefix (List.prefix_append u r) (h ▸ List.prefix_append v s) with hu | hv
      · exact hp x y u v hx hy hu
      · exact (hp y x v u hy hx hv).symm
    subst huv
    exact ⟨(hi x y u hx hy).symm,(List.append_cancel_left h).symm⟩

theorem SelfDelimiting.of_length {enc : Encoder α σ} (n : ℕ)
    (hlen : ∀ x u, enc x = some u → u.length = n) (hinj : InjectiveCode enc) :
    SelfDelimiting enc := by
  intro x y u v r s hx hy h
  obtain ⟨rfl,rfl⟩ := List.append_inj h ((hlen x u hx).trans (hlen y v hy).symm)
  exact ⟨(hinj x y u hx hy).symm,rfl⟩

theorem DelimitedAt.comap {enc : Encoder β σ} {f : α → β} {x : α}
    (h : DelimitedAt enc (f x)) (hf : ∀ y, f y = f x → y = x) :
    DelimitedAt (fun y => enc (f y)) x := by
  intro y u v r s hx hy huv
  obtain ⟨he,hr⟩ := h (f y) u v r s hx hy huv
  exact ⟨hf y he,hr⟩

theorem SelfDelimiting.comap {enc : Encoder β σ} {f : α → β} (h : SelfDelimiting enc)
    (hf : ∀ x y, f y = f x → y = x) : SelfDelimiting fun x => enc (f x) :=
  fun x => (h (f x)).comap (hf x)

def cat (a b : Option (List σ)) : Option (List σ) := do
  let u ← a
  let v ← b
  some (u ++ v)

theorem cat_eq_some {a b : Option (List σ)} {w : List σ} :
    cat a b = some w ↔ ∃ u v, a = some u ∧ b = some v ∧ w = u ++ v := by
  cases a <;> cases b <;> simp [cat,eq_comm]

def both (f : Encoder α σ) (g : Encoder β σ) : Encoder (α × β) σ := fun p => cat (f p.1) (g p.2)

theorem both_split {f : Encoder α σ} {g : Encoder β σ} {p q : α × β} {w w' r s : List σ}
    (hf : DelimitedAt f p.1) (hw : both f g p = some w) (hw' : both f g q = some w')
    (h : w ++ r = w' ++ s) :
    q.1 = p.1 ∧ ∃ v v', g p.2 = some v ∧ g q.2 = some v' ∧ v ++ r = v' ++ s := by
  obtain ⟨u,v,hu,hv,rfl⟩ := cat_eq_some.mp hw
  obtain ⟨u',v',hu',hv',rfl⟩ := cat_eq_some.mp hw'
  simp only [List.append_assoc] at h
  obtain ⟨he,ht⟩ := hf q.1 u u' _ _ hu hu' h
  exact ⟨he,v,v',hv,hv',ht.symm⟩

theorem DelimitedAt.both {f : Encoder α σ} {g : Encoder β σ} {p : α × β}
    (hf : DelimitedAt f p.1) (hg : DelimitedAt g p.2) : DelimitedAt (both f g) p := by
  intro q w w' r s hw hw' h
  obtain ⟨h1,v,v',hv,hv',ht⟩ := both_split hf hw hw' h
  obtain ⟨h2,hr⟩ := hg q.2 v v' r s hv hv' ht
  exact ⟨Prod.ext h1 h2,hr⟩

theorem SelfDelimiting.both {f : Encoder α σ} {g : Encoder β σ}
    (hf : SelfDelimiting f) (hg : SelfDelimiting g) : SelfDelimiting (both f g) :=
  fun p => DelimitedAt.both (hf p.1) (hg p.2)

/-- A fixed word in front of the code: the discriminant of a union. -/
def tagged (tag : List σ) (f : Encoder α σ) : Encoder α σ := fun x => (f x).map (tag ++ ·)

/-- Arms of a union with tags of one width are told apart by their tags, and the
bodies that follow start equal words. -/
theorem tagged_split {f : Encoder α σ} {g : Encoder β σ} {x : α} {y : β} {t t' u v r s : List σ}
    (hx : tagged t f x = some u) (hy : tagged t' g y = some v) (hlen : t.length = t'.length)
    (h : u ++ r = v ++ s) :
    t = t' ∧ ∃ u' v', f x = some u' ∧ g y = some v' ∧ u' ++ r = v' ++ s := by
  obtain ⟨u',hu,rfl⟩ := Option.map_eq_some_iff.mp hx
  obtain ⟨v',hv,rfl⟩ := Option.map_eq_some_iff.mp hy
  simp only [List.append_assoc] at h
  obtain ⟨ht,hbody⟩ := List.append_inj h hlen
  exact ⟨ht,u',v',hu,hv,hbody⟩

theorem SelfDelimiting.tagged {f : Encoder α σ} (hf : SelfDelimiting f) (tag : List σ) :
    SelfDelimiting (tagged tag f) := by
  intro x y u v r s hx hy h
  obtain ⟨-,u',v',hu,hv,hbody⟩ := tagged_split hx hy rfl h
  exact hf x y u' v' r s hu hv hbody

/-- A fixed word for nothing, another one in front of the code for something. -/
def optional (absent present : List σ) (f : Encoder α σ) : Encoder (Option α) σ
  | none => some absent
  | some x => tagged present f x

theorem SelfDelimiting.optional {f : Encoder α σ} (hf : SelfDelimiting f) {absent present : List σ}
    (hlen : absent.length = present.length) (hne : absent ≠ present) :
    SelfDelimiting (optional absent present f) := by
  have hnothing : ∀ u, PrefixCode.optional absent present f none = some u →
      PrefixCode.tagged absent (fun _ : Unit => some []) () = some u := by
    intro u hu
    simpa [PrefixCode.optional,PrefixCode.tagged] using hu
  intro x y u v r s hx hy h
  cases x with
  | none =>
    cases y with
    | none =>
      obtain rfl := Option.some.inj (hx.symm.trans hy)
      exact ⟨rfl,(List.append_cancel_left h).symm⟩
    | some y => exact absurd (tagged_split (hnothing u hx) hy hlen h).1 hne
  | some x =>
    cases y with
    | none => exact absurd (tagged_split hx (hnothing v hy) hlen.symm h).1 hne.symm
    | some y =>
      obtain ⟨rfl,hr⟩ := hf.tagged present x y u v r s hx hy h
      exact ⟨rfl,hr⟩

/-- The codes of the elements one after the other, with no framing of their own. -/
def elems (enc : Encoder α σ) : Encoder (List α) σ
  | [] => some []
  | x::xs => cat (enc x) (elems enc xs)

/-- Without a count the elements are only readable against a known length. -/
theorem elems_delimited {enc : Encoder α σ} (xs : List α) (hxs : ∀ x ∈ xs, DelimitedAt enc x)
    (ys : List α) (u v r s : List σ) (hlen : ys.length = xs.length)
    (hu : elems enc xs = some u) (hv : elems enc ys = some v) (h : u ++ r = v ++ s) :
    ys = xs ∧ s = r := by
  induction xs generalizing ys u v r s with
  | nil =>
    have hy : ys = [] := List.length_eq_zero_iff.mp hlen
    subst hy
    simp only [elems,Option.some.injEq] at hu hv
    subst hu hv
    exact ⟨rfl,h.symm⟩
  | cons x xs ih =>
    cases ys with
    | nil => simp at hlen
    | cons y ys =>
      obtain ⟨u₁,u₂,hu₁,hu₂,rfl⟩ := cat_eq_some.mp hu
      obtain ⟨v₁,v₂,hv₁,hv₂,rfl⟩ := cat_eq_some.mp hv
      simp only [List.append_assoc] at h
      obtain ⟨rfl,ht⟩ := hxs x (by simp) y u₁ v₁ _ _ hu₁ hv₁ h
      obtain ⟨rfl,hr⟩ := ih (fun z hz => hxs z (by simp [hz])) ys u₂ v₂ r s
        (by simpa using hlen) hu₂ hv₂ ht.symm
      exact ⟨rfl,hr⟩

/-- A variable-length array: the element count, then the elements. -/
def counted (count : Encoder ℕ σ) (enc : Encoder α σ) : Encoder (List α) σ :=
  fun xs => cat (count xs.length) (elems enc xs)

theorem DelimitedAt.counted {count : Encoder ℕ σ} {enc : Encoder α σ} {xs : List α}
    (hc : DelimitedAt count xs.length) (hxs : ∀ x ∈ xs, DelimitedAt enc x) :
    DelimitedAt (counted count enc) xs := by
  intro ys w w' r s hw hw' h
  obtain ⟨c,e,hc₁,he₁,rfl⟩ := cat_eq_some.mp hw
  obtain ⟨c',e',hc₂,he₂,rfl⟩ := cat_eq_some.mp hw'
  simp only [List.append_assoc] at h
  obtain ⟨hlen,ht⟩ := hc ys.length c c' _ _ hc₁ hc₂ h
  exact elems_delimited xs hxs ys e e' r s hlen he₁ he₂ ht.symm

theorem SelfDelimiting.counted {count : Encoder ℕ σ} {enc : Encoder α σ}
    (hc : SelfDelimiting count) (he : SelfDelimiting enc) : SelfDelimiting (counted count enc) :=
  fun xs => DelimitedAt.counted (hc xs.length) fun x _ => he x

/-- The `n` low-order bytes of `v`, most significant first. -/
def bigEndian : ℕ → ℕ → List UInt8
  | 0, _ => []
  | n+1, v => bigEndian n (v/256) ++ [UInt8.ofNat v]

@[simp] theorem bigEndian_length (n v : ℕ) : (bigEndian n v).length = n := by
  induction n generalizing v with
  | zero => rfl
  | succ n ih => simp [bigEndian,ih]

theorem bigEndian_inj {n v w : ℕ} (hv : v < 256^n) (hw : w < 256^n)
    (h : bigEndian n v = bigEndian n w) : v = w := by
  induction n generalizing v w with
  | zero => simp only [pow_zero] at hv hw; omega
  | succ n ih =>
    obtain ⟨hhi,hlo⟩ := List.append_inj' h rfl
    have hq : v/256 = w/256 := by
      apply ih _ _ hhi
      · rw [pow_succ] at hv; omega
      · rw [pow_succ] at hw; omega
    have hr : v % 256 = w % 256 := by
      have hb := congrArg UInt8.toNat (List.singleton_injective hlo)
      simpa using hb
    omega

def uint (n : ℕ) : Encoder ℕ UInt8 := fun v => if v < 256^n then some (bigEndian n v) else none

theorem uint_eq_some {n v : ℕ} {u : List UInt8} :
    uint n v = some u ↔ v < 256^n ∧ u = bigEndian n v := by
  by_cases h : v < 256^n <;> simp [uint,h,eq_comm]

theorem uint_selfDelimiting (n : ℕ) : SelfDelimiting (uint n) := by
  apply SelfDelimiting.of_length n
  · intro v u hu
    obtain ⟨-,rfl⟩ := uint_eq_some.mp hu
    exact bigEndian_length n v
  · intro v w u hv hw
    obtain ⟨hvlt,hvu⟩ := uint_eq_some.mp hv
    obtain ⟨hwlt,hwu⟩ := uint_eq_some.mp hw
    exact bigEndian_inj hvlt hwlt (hvu.symm.trans hwu)

def fixed (n : ℕ) : Encoder (List σ) σ := fun w => if w.length = n then some w else none

theorem fixed_eq_some {n : ℕ} {w u : List σ} : fixed n w = some u ↔ w.length = n ∧ u = w := by
  by_cases h : w.length = n <;> simp [fixed,h,eq_comm]

theorem fixed_selfDelimiting (n : ℕ) : SelfDelimiting (fixed n : Encoder (List σ) σ) := by
  apply SelfDelimiting.of_length n
  · intro w u hu
    obtain ⟨hw,rfl⟩ := fixed_eq_some.mp hu
    exact hw
  · intro w w' u hw hw'
    exact (fixed_eq_some.mp hw).2.symm.trans (fixed_eq_some.mp hw').2

/-- A word and a stop symbol after it; a word that has the symbol in it is refused. -/
def terminated [DecidableEq σ] (stop : σ) : Encoder (List σ) σ := fun w =>
  if stop ∈ w then none else some (w ++ [stop])

theorem terminated_eq_some [DecidableEq σ] {stop : σ} {w u : List σ} :
    terminated stop w = some u ↔ stop ∉ w ∧ u = w ++ [stop] := by
  by_cases h : stop ∈ w <;> simp [terminated,h,eq_comm]

theorem terminated_selfDelimiting [DecidableEq σ] (stop : σ) : SelfDelimiting (terminated stop) := by
  intro w w' u v r s hu hv h
  obtain ⟨hw,rfl⟩ := terminated_eq_some.mp hu
  obtain ⟨hw',rfl⟩ := terminated_eq_some.mp hv
  simp only [List.append_assoc,List.singleton_append] at h
  clear hu hv
  induction w generalizing w' with
  | nil =>
    cases w' with
    | nil => exact ⟨rfl,(List.cons.inj h).2.symm⟩
    | cons c w' => exact absurd (List.cons.inj h).1 fun he => hw' (he ▸ List.mem_cons_self)
  | cons c w ih =>
    cases w' with
    | nil => exact absurd (List.cons.inj h).1.symm fun he => hw (he ▸ List.mem_cons_self)
    | cons c' w' =>
      obtain ⟨rfl,ht⟩ := List.cons.inj h
      rw [List.mem_cons,not_or] at hw hw'
      obtain ⟨rfl,hr⟩ := ih w' hw.2 hw'.2 ht
      exact ⟨rfl,hr⟩

/-- A byte string of varying length: its length on `w` bytes, its bytes, and the
zero bytes that fill the last group of `w`. -/
def varBytes (w : ℕ) : Encoder (List UInt8) UInt8 := fun b =>
  cat (uint w b.length) (some (b ++ List.replicate ((w - b.length % w) % w) 0))

theorem varBytes_selfDelimiting (w : ℕ) : SelfDelimiting (varBytes w) := by
  intro b b' u v r s hu hv h
  obtain ⟨n,x,hn,hx,rfl⟩ := cat_eq_some.mp hu
  obtain ⟨n',x',hn',hx',rfl⟩ := cat_eq_some.mp hv
  simp only [Option.some.injEq] at hx hx'
  subst hx hx'
  simp only [List.append_assoc] at h
  obtain ⟨hlen,hbody⟩ := uint_selfDelimiting w b.length b'.length n n' _ _ hn hn' h
  obtain ⟨rfl,hpad⟩ := List.append_inj hbody hlen
  exact ⟨rfl,List.append_cancel_left hpad⟩

end PrefixCode

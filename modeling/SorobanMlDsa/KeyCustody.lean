import SorobanMlDsa.Account

/-!
# Custody of the stored key

A key that guards the account should only give way to its own holder. `init` asks
nobody, so what the contract provides is custody up to the steps in `Rekeys`.
-/

namespace SorobanMlDsa.PqAccount

open ByteSlice Transition

variable (D : MlDsaCrate) {A : Type}

/-- The invocation committed after `require_auth` on the contract's own address. -/
def Authorized (e : Edge Storage (Invocation A)) : Prop :=
  ∃ v env, invoke D e.before e.input = .ok (.ok v,env) ∧ env.authorized = true

/-- A stored key is replaced only with the authorization of its holder. -/
def Custody (e : Edge Storage (Invocation A)) : Prop :=
  ∀ k, e.before.pubKey = some k → e.after.pubKey ≠ some k → Authorized D e

/-- `init` is called with another key of the right length while one is stored. -/
def Rekeys (e : Edge Storage (Invocation A)) : Prop :=
  ∃ k k', e.before.pubKey = some k ∧ e.input.call = .init k' ∧ k'.length = 1952 ∧ k' ≠ k

section

variable {D} {s : Storage} {i : Invocation A}

theorem init_not_authorized (hS : D.SizesMatch mldsa65) {e : Edge Storage (Invocation A)} {k : Bytes}
    (hcall : e.input.call = .init k) (hk : k.length = mldsa65.vkLen) : ¬ Authorized D e := by
  rintro ⟨v,env,hinvoke,hauth⟩
  have heq := (invoke_init_ok hS hcall hk).symm.trans hinvoke
  simp only [Except.ok.injEq,Prod.mk.injEq] at heq
  rw [← heq.2] at hauth
  cases hauth

/-- An authorized step was authorized by the holder of the key it found. -/
theorem Authorized.accepted (hS : D.SizesMatch mldsa65) {e : Edge Storage (Invocation A)}
    (h : Authorized D e) : ∃ a, e.input.presented = some a ∧
      checkAuth D e.before a.signaturePayload a.signature = .ok (.ok ()) := by
  obtain ⟨v,env,hinvoke,hauth⟩ := h
  cases hcall : e.input.call with
  | init k =>
    by_cases hk : k.length = mldsa65.vkLen
    · exact absurd ⟨v,env,hinvoke,hauth⟩ (init_not_authorized hS hcall hk)
    · have heq := (invoke_init_wrongLength hcall hk).symm.trans hinvoke
      cases heq
  | protectedCall =>
    cases hp : protectedCall D ⟨e.before,e.input.presented,false⟩ with
    | error p => simp [invoke,hcall,dispatch,hp] at hinvoke
    | ok r =>
      obtain ⟨a,ha,hc,-⟩ := protectedCall_ok hp
      exact ⟨a,ha,hc⟩
  | checkAuth p sig =>
    cases hc : checkAuth D e.before p sig with
    | error p => simp [invoke,hcall,dispatch,hc] at hinvoke
    | ok r =>
      have henv : (⟨e.before,e.input.presented,false⟩ : Env) = env := by
        simp only [invoke,hcall,dispatch,hc,ok_bind,pure_eq_ok,Except.ok.injEq,
          Prod.mk.injEq] at hinvoke
        exact hinvoke.2
      rw [← henv] at hauth
      cases hauth

theorem step_keeps_key (hS : D.SizesMatch mldsa65) {k : Bytes} (hk : s.pubKey = some k)
    (h : ¬ Rekeys ⟨s,i,step D s i⟩) : (step D s i).pubKey = some k := by
  rw [step_pubKey hS s i]
  cases ha : acceptedInit D ⟨s,i,step D s i⟩ with
  | none => exact hk
  | some k' =>
    obtain ⟨hcall,hlen⟩ := (acceptedInit_eq_some hS).mp ha
    have hsame : k' = k := by
      by_contra hne
      exact h ⟨k,k',hk,hcall,hlen,hne⟩
    rw [hsame]
    rfl

/-- Custody of one step fails exactly when the step rekeys. -/
theorem custody_iff (hS : D.SizesMatch mldsa65) (s : Storage) (i : Invocation A) :
    Custody D ⟨s,i,step D s i⟩ ↔ ¬ Rekeys ⟨s,i,step D s i⟩ := by
  constructor
  · rintro hcustody ⟨k,k',hk,hcall,hlen,hne⟩
    have hafter : (step D s i).pubKey = some k' := by rw [step_init_ok hS hcall hlen]
    have hreplaced : (step D s i).pubKey ≠ some k := by
      rw [hafter]
      exact fun h => hne (Option.some.inj h)
    exact init_not_authorized hS hcall hlen (hcustody k hk hreplaced)
  · intro h k hk hreplaced
    exact absurd (step_keeps_key hS hk h) hreplaced

/-- In a run that never rekeys, the first key guards the account to the end. -/
theorem run_keeps_key (hS : D.SizesMatch mldsa65) {k : Bytes} (hk : s.pubKey = some k)
    {is : List (Invocation A)} (h : ∀ e ∈ trace (step D) s is, ¬ Rekeys e) :
    (is.foldl (step D) s).pubKey = some k := by
  refine foldl_of_trace (P := fun s : Storage => s.pubKey = some k) ?_ hk
  intro e he hbefore
  have hafter := trace_after he
  rw [hafter]
  refine step_keeps_key hS hbefore ?_
  rw [← hafter]
  exact h e he

end

/-- Custody holds along a run exactly when no step rekeys, and then what the
account accepts is settled from the first stored key on. -/
theorem key_custody_unless_rekeyed {A : Type} (D : MlDsaCrate) (hS : D.SizesMatch mldsa65)
    (is : List (Invocation A)) :
    ((∀ e ∈ trace (step D) fresh is, Custody D e) ↔ ∀ e ∈ trace (step D) fresh is, ¬ Rekeys e) ∧
    ((∀ e ∈ trace (step D) fresh is, ¬ Rekeys e) →
      ∀ pre post k, is = pre ++ post → (pre.foldl (step D) fresh).pubKey = some k →
        ∀ p sig, checkAuth D (is.foldl (step D) fresh) p sig =
          checkAuth D (pre.foldl (step D) fresh) p sig) := by
  refine ⟨forall_trace_iff (custody_iff hS) fresh is,?_⟩
  intro h pre post k his hk p sig
  have hpost : ∀ e ∈ trace (step D) (pre.foldl (step D) fresh) post, ¬ Rekeys e := by
    intro e he
    apply h e
    rw [his,trace_append]
    exact List.mem_append_right _ he
  have hend : (is.foldl (step D) fresh).pubKey = some k := by
    rw [his,List.foldl_append]
    exact run_keeps_key hS hk hpost
  simp only [checkAuth,hend,hk]

def ownKey : Bytes := List.replicate 1952 0

def otherKey : Bytes := List.replicate 1952 1

/-- A second party calls `init` on a guarded account, presenting nothing. -/
def takeover : List (Invocation ℕ) := [⟨0,none,.init ownKey⟩,⟨1,none,.init otherKey⟩]

def otherSignature : Bytes :=
  (TagCrate.tag mldsa65 ⟨otherKey,List.length_replicate⟩ (frame (Arr.zero 32).val context)).val

/-- The second `init` replaces the key although nobody authorized it, and from then
on the account answers to the second party. -/
theorem init_breaks_custody :
    (¬ ∀ e ∈ trace (step (TagCrate.crate mldsa65)) fresh takeover, Custody (TagCrate.crate mldsa65) e) ∧
    checkAuth (TagCrate.crate mldsa65) ((takeover.take 1).foldl (step (TagCrate.crate mldsa65)) fresh)
      (Arr.zero 32) otherSignature = .ok (.error .sigVerifyFailed) ∧
    checkAuth (TagCrate.crate mldsa65) (takeover.foldl (step (TagCrate.crate mldsa65)) fresh)
      (Arr.zero 32) otherSignature = .ok (.ok ()) := by
  refine ⟨?_,by decide +kernel,by decide +kernel⟩
  intro h
  have hS := TagCrate.sizesMatch mldsa65
  have hfirst : step (TagCrate.crate mldsa65) fresh (⟨0,none,.init ownKey⟩ : Invocation ℕ) =
    ⟨some ownKey⟩ := step_init_ok hS rfl List.length_replicate
  have hsecond := h _ (List.mem_cons_of_mem _ List.mem_cons_self)
  refine (custody_iff hS _ _).mp hsecond ⟨ownKey,otherKey,?_,rfl,List.length_replicate,by decide⟩
  rw [hfirst]

/-- A second party that can only repeat the stored key, or offer a malformed one. -/
def harmless : List (Invocation ℕ) :=
  [⟨0,none,.init ownKey⟩,⟨1,none,.init ownKey⟩,⟨1,none,.init [1]⟩]

/-- Such a run keeps custody, and the second party stays locked out. -/
theorem key_custody_unless_rekeyed_harmless :
    (∀ e ∈ trace (step (TagCrate.crate mldsa65)) fresh harmless, Custody (TagCrate.crate mldsa65) e) ∧
    checkAuth (TagCrate.crate mldsa65) (harmless.foldl (step (TagCrate.crate mldsa65)) fresh)
      (Arr.zero 32) otherSignature = .ok (.error .sigVerifyFailed) := by
  have hS := TagCrate.sizesMatch mldsa65
  have h := key_custody_unless_rekeyed (TagCrate.crate mldsa65) hS harmless
  have hinit (s : Storage) (n : ℕ) : step (TagCrate.crate mldsa65) s (⟨n,none,.init ownKey⟩ : Invocation ℕ) =
    ⟨some ownKey⟩ := step_init_ok hS rfl List.length_replicate
  have hguarded : ∀ e ∈ trace (step (TagCrate.crate mldsa65)) fresh harmless, ¬ Rekeys e := by
    simp only [harmless,trace_cons,trace_nil,hinit,List.forall_mem_cons,List.not_mem_nil,
      IsEmpty.forall_iff,implies_true]
    refine ⟨?_,?_,?_,trivial⟩
    · rintro ⟨k,k',hk,-⟩
      cases hk
    · rintro ⟨k,k',hk,hcall,-,hne⟩
      cases hk; cases hcall
      exact hne rfl
    · rintro ⟨k,k',-,hcall,hlen,-⟩
      cases hcall
      exact absurd hlen (by decide)
  have hfirst : ((harmless.take 1).foldl (step (TagCrate.crate mldsa65)) fresh).pubKey = some ownKey := by
    rw [harmless,List.take_succ_cons,List.take_zero,List.foldl_cons,hinit]
    rfl
  refine ⟨h.1.mpr hguarded,?_⟩
  rw [h.2 hguarded (harmless.take 1) (harmless.drop 1) ownKey (List.take_append_drop 1 _).symm hfirst]
  decide +kernel

end SorobanMlDsa.PqAccount

import SorobanMlDsa.Conformance

/-!
# Against `fips204`

The same documents once more, with a second implementation asked beside the binding. Its
interface takes arrays, so a case of another length cannot be put to it and is skipped.
-/

namespace SorobanMlDsa.Conformance

open ByteSlice SerdeJson Tally

/-- What the suite uses of `fips204` to verify. -/
structure Fips204 (P : ParamSet) where
  PublicKey : Type
  tryFromBytes : Arr P.vkLen → Option PublicKey
  verify : PublicKey → (message : Bytes) → Arr P.sigLen → (context : Bytes) → Bool

variable {P : ParamSet}

/-- Its verdict, on key and signature bytes of the lengths it takes. -/
def Fips204.verdict (F : Fips204 P) (key message context signature : Bytes) : Option Bool := do
  let key ← tryFrom P.vkLen key
  let signature ← tryFrom P.sigLen signature
  match F.tryFromBytes key with
  | none => return false
  | some k => return F.verify k message signature context

theorem Fips204.verdict_eq_none {F : Fips204 P} {key m c s : Bytes} :
    F.verdict key m c s = none ↔ key.length ≠ P.vkLen ∨ s.length ≠ P.sigLen := by
  by_cases hkey : key.length = P.vkLen
  · by_cases hs : s.length = P.sigLen
    · simp only [verdict,tryFrom_of_length hkey,tryFrom_of_length hs,Option.bind_eq_bind,Option.bind_some]
      split <;> simp [hkey,hs]
    · simp [verdict,tryFrom_of_length hkey,tryFrom_eq_none hs,hs]
  · simp [verdict,tryFrom_eq_none hkey,hkey]

namespace Differential

variable (H : Hex) (F : Fips204 P) {V : Type} [PqVerifier V]

abbrev Count := ℕ × ℕ

def counted (theirs : Option Bool) : Count := if theirs.isSome then (1,0) else (0,1)

variable (V) in
/-- The binding's verdict, with keys that do not decode rejecting. -/
def ours (key m c s : Bytes) : Suite Bool := do
  let vk ← returned (PqEncode.fromBytes key : Outcome (Except PqError V))
  returned (verdict vk m c s)

variable (V) in
def checkAcvp (t : Value) : Suite Count := do
  let c ← need (Acvp.Case.read H t)
  let ok ← ours V c.pk c.message c.context c.signature
  match F.verdict c.pk c.message c.context c.signature with
  | none => return (0,1)
  | some theirs =>
    require (ok = theirs) (.disagreement c.tcId ok theirs c.testPassed)
    require (ok = c.testPassed) (.wrongVerdict c.tcId "both implementations" c.testPassed ok)
    return (1,0)

variable (V) in
def acvpGroup (g : Value) : Suite Count :=
  if !(Acvp.isSet P.name g && Acvp.isExternalPure g) then .ok 0 else loop "tests" (checkAcvp H F V) g

variable (V) in
def checkWycheproof (key : Bytes) (t : Value) : Suite Count := do
  let c ← need (Wycheproof.Case.read H t)
  let ok ← ours V key c.msg c.ctx c.sig
  match F.verdict key c.msg c.ctx c.sig with
  | none =>
    require (ok = false) (.acceptedWrongLength c.tcId)
    return (0,1)
  | some theirs =>
    require (ok = theirs) (.disagreement c.tcId ok theirs c.valid)
    return (1,0)

variable (V) in
def wycheproofGroup (g : Value) : Suite Count := do
  let key ← need (Wycheproof.Group.readKey H g)
  loop "tests" (checkWycheproof H F V key) g

variable (V) in
/-- The test on the vectors, on the two documents that were loaded. -/
def test (acvp wycheproof : Value) : Suite Count := do
  let a ← loop "testGroups" (acvpGroup H F V) acvp
  let w ← loop "testGroups" (wycheproofGroup H F V) wycheproof
  require (0 < (a + w).1) .nothingRan
  return a + w

def readGroup (set : String) (g : Value) : Option (List Acvp.Case) :=
  if !(Acvp.isSet set g && Acvp.isExternalPure g) then some [] else readAll "tests" (Acvp.Case.read H) g

def readAcvp (set : String) : (doc : Value) → Option (List (List Acvp.Case)) :=
  readAll "testGroups" (readGroup H set)

section

variable {J : Judge}

theorem ours_eq (h : Judges V J) (key m c s : Bytes) : ours V key m c s = .ok (J.accepts key m c s) := by
  obtain ⟨vk,hvk,-,hverdict⟩ := h key
  rw [ours,hvk]
  show returned (verdict vk m c s) = _
  rw [hverdict]
  rfl

theorem checkAcvp_passes (h : Judges V J) : Passes (checkAcvp H F V) (Acvp.Case.read H)
    (fun c => ∀ b, F.verdict c.pk c.message c.context c.signature = some b →
      J.accepts c.pk c.message c.context c.signature = b ∧ b = c.testPassed)
    fun c => counted (F.verdict c.pk c.message c.context c.signature) := by
  intro t m
  simp only [checkAcvp,bind_eq_ok,need_eq_ok,ours_eq h,Except.ok.injEq]
  constructor
  · rintro ⟨c,hc,_,rfl,hm⟩
    refine ⟨c,hc,?_⟩
    cases hv : F.verdict c.pk c.message c.context c.signature with
    | none =>
      rw [hv] at hm
      refine ⟨?_,Except.ok.inj hm⟩
      intro b hb
      cases hb
    | some b =>
      simp only [hv,bind_eq_ok,require_eq_ok,pure_eq_ok,Except.ok.injEq] at hm
      obtain ⟨_,hsame,_,hexpected,hm⟩ := hm
      refine ⟨?_,hm⟩
      intro b' hb
      obtain rfl := Option.some.inj hb
      exact ⟨hsame,hsame.symm.trans hexpected⟩
  · rintro ⟨c,hc,hgood,hm⟩
    refine ⟨c,hc,_,rfl,?_⟩
    cases hv : F.verdict c.pk c.message c.context c.signature with
    | none =>
      rw [hv] at hm
      exact congrArg Except.ok hm
    | some b =>
      obtain ⟨hsame,hexpected⟩ := hgood b hv
      rw [hv] at hm
      simp only [bind_eq_ok,require_eq_ok,pure_eq_ok,Except.ok.injEq]
      exact ⟨(),hsame,(),hsame.trans hexpected,hm⟩

/-- Where the second implementation cannot be asked, ours has to reject. -/
theorem checkWycheproof_passes (h : Judges V J) (key : Bytes) : Passes (checkWycheproof H F V key)
    (Wycheproof.Case.read H) (fun c => J.accepts key c.msg c.ctx c.sig = (F.verdict key c.msg c.ctx c.sig).getD false)
    fun c => counted (F.verdict key c.msg c.ctx c.sig) := by
  intro t m
  simp only [checkWycheproof,bind_eq_ok,need_eq_ok,ours_eq h,Except.ok.injEq]
  constructor
  · rintro ⟨c,hc,_,rfl,hm⟩
    refine ⟨c,hc,?_⟩
    cases hv : F.verdict key c.msg c.ctx c.sig with
    | none =>
      simp only [hv,bind_eq_ok,require_eq_ok,pure_eq_ok,Except.ok.injEq] at hm
      obtain ⟨_,hgood,hm⟩ := hm
      exact ⟨hgood,hm⟩
    | some b =>
      simp only [hv,bind_eq_ok,require_eq_ok,pure_eq_ok,Except.ok.injEq] at hm
      obtain ⟨_,hgood,hm⟩ := hm
      exact ⟨hgood,hm⟩
  · rintro ⟨c,hc,hgood,hm⟩
    refine ⟨c,hc,_,rfl,?_⟩
    cases hv : F.verdict key c.msg c.ctx c.sig with
    | none =>
      rw [hv] at hm hgood
      simp only [bind_eq_ok,require_eq_ok,pure_eq_ok,Except.ok.injEq]
      exact ⟨(),hgood,hm⟩
    | some b =>
      rw [hv] at hm hgood
      simp only [bind_eq_ok,require_eq_ok,pure_eq_ok,Except.ok.injEq]
      exact ⟨(),hgood,hm⟩

theorem acvpGroup_passes (h : Judges V J) : Passes (acvpGroup H F V) (readGroup H P.name)
    (fun cs => ∀ c ∈ cs, ∀ b, F.verdict c.pk c.message c.context c.signature = some b →
      J.accepts c.pk c.message c.context c.signature = b ∧ b = c.testPassed)
    fun cs => (cs.map fun c => counted (F.verdict c.pk c.message c.context c.signature)).sum := by
  intro g m
  rw [acvpGroup,readGroup]
  by_cases hset : (Acvp.isSet P.name g && Acvp.isExternalPure g) = true
  · simp only [hset,Bool.not_true,Bool.false_eq_true,if_false]
    exact loop_passes (checkAcvp_passes H F h) "tests" g m
  · simp only [hset,Bool.not_false,if_true,Except.ok.injEq,Option.some.injEq]
    constructor
    · intro hm
      exact ⟨[],rfl,List.forall_mem_nil _,hm⟩
    · rintro ⟨_,rfl,-,hm⟩
      exact hm

theorem wycheproofGroup_passes (h : Judges V J) : Passes (wycheproofGroup H F V) (Wycheproof.Group.read H)
    (fun g => ∀ c ∈ g.cases, J.accepts g.key c.msg c.ctx c.sig = (F.verdict g.key c.msg c.ctx c.sig).getD false)
    fun g => (g.cases.map fun c => counted (F.verdict g.key c.msg c.ctx c.sig)).sum := by
  intro g m
  simp only [wycheproofGroup,bind_eq_ok,need_eq_ok,Wycheproof.Group.read_eq_some]
  constructor
  · rintro ⟨key,hkey,hm⟩
    obtain ⟨cases,hcases,hgood,rfl⟩ := (loop_passes (checkWycheproof_passes H F h key) "tests" g m).mp hm
    exact ⟨_,⟨key,hkey,cases,hcases,rfl⟩,hgood,rfl⟩
  · rintro ⟨_,⟨key,hkey,cases,hcases,rfl⟩,hgood,rfl⟩
    exact ⟨key,hkey,(loop_passes (checkWycheproof_passes H F h key) "tests" g _).mpr ⟨cases,hcases,hgood,rfl⟩⟩

def countAcvp (cases : List (List Acvp.Case)) : Count :=
  (cases.map fun cs => (cs.map fun c => counted (F.verdict c.pk c.message c.context c.signature)).sum).sum

def countWycheproof (groups : List Wycheproof.Group) : Count :=
  (groups.map fun g => (g.cases.map fun c => counted (F.verdict g.key c.msg c.ctx c.sig)).sum).sum

theorem test_eq_ok (h : Judges V J) (acvp wycheproof : Value) (n : Count) : test H F V acvp wycheproof = .ok n ↔
    ∃ as ws, readAcvp H P.name acvp = some as ∧ Wycheproof.read H wycheproof = some ws ∧
      (∀ cs ∈ as, ∀ c ∈ cs, ∀ b, F.verdict c.pk c.message c.context c.signature = some b →
        J.accepts c.pk c.message c.context c.signature = b ∧ b = c.testPassed) ∧
      (∀ g ∈ ws, ∀ c ∈ g.cases,
        J.accepts g.key c.msg c.ctx c.sig = (F.verdict g.key c.msg c.ctx c.sig).getD false) ∧
      0 < n.1 ∧ n = countAcvp F as + countWycheproof F ws := by
  have hacvp := loop_passes (acvpGroup_passes H F h) "testGroups" acvp
  have hwycheproof := loop_passes (wycheproofGroup_passes H F h) "testGroups" wycheproof
  simp only [test,bind_eq_ok,require_eq_ok,pure_eq_ok,Except.ok.injEq]
  constructor
  · rintro ⟨a,ha,w,hw,_,hpos,rfl⟩
    obtain ⟨as,has,hgoodAs,rfl⟩ := (hacvp a).mp ha
    obtain ⟨ws,hws,hgoodWs,rfl⟩ := (hwycheproof w).mp hw
    exact ⟨as,ws,has,hws,hgoodAs,hgoodWs,hpos,rfl⟩
  · rintro ⟨as,ws,has,hws,hgoodAs,hgoodWs,hpos,rfl⟩
    exact ⟨_,(hacvp _).mpr ⟨as,has,hgoodAs,rfl⟩,_,(hwycheproof _).mpr ⟨ws,hws,hgoodWs,rfl⟩,(),hpos,rfl⟩

end

def external : Acvp.Group → List Acvp.Case
  | .cases cs => cs
  | _ => []

theorem readGroup_external {set : String} {g : Value} {G : Acvp.Group} (h : Acvp.Group.read H set g = some G) :
    readGroup H set g = some (external G) := by
  rw [Acvp.Group.read] at h
  rw [readGroup]
  by_cases hset : Acvp.isSet set g = true
  · by_cases hpure : Acvp.isExternalPure g = true
    · simp only [hset,hpure,Bool.not_true,Bool.false_eq_true,if_false,Bool.and_true,Option.bind_eq_bind,
        Option.bind_eq_some_iff,Option.pure_def,Option.some.injEq] at h ⊢
      obtain ⟨cs,hcs,rfl⟩ := h
      exact hcs
    · simp only [hset,hpure,Bool.not_true,Bool.false_eq_true,if_false,Bool.and_false,Bool.not_false,if_true,
        Option.bind_eq_bind,Option.bind_eq_some_iff,Option.pure_def,Option.some.injEq] at h ⊢
      obtain ⟨tests,-,rfl⟩ := h
      rfl
  · simp only [hset,Bool.not_false,if_true,Bool.false_and,Option.some.injEq] at h ⊢
    rw [← h]
    rfl

theorem readAcvp_external {set : String} {doc : Value} {gs : List Acvp.Group}
    (h : Acvp.read H set doc = some gs) : readAcvp H set doc = some (gs.map external) := by
  simp only [Acvp.read,readAll,Option.bind_eq_bind,Option.bind_eq_some_iff] at h
  obtain ⟨items,hitems,hgs⟩ := h
  simp only [readAcvp,readAll,hitems,Option.bind_eq_bind,Option.bind_some]
  exact mapM_eq_some_map (fun g G => readGroup_external H) hgs

end Differential

/-- Our side rejects what cannot be put to the other. -/
theorem mlDsaJudge_unsized {D : MlDsaCrate} (hS : D.SizesMatch P) {F : Fips204 P} {key m c s : Bytes}
    (h : F.verdict key m c s = none) : (mlDsaJudge P D).accepts key m c s = false := by
  rw [← Bool.not_eq_true,mlDsaJudge_accepts]
  rintro ⟨-,haccepts⟩
  rcases Fips204.verdict_eq_none.mp h with hkey | hs
  · exact hkey (haccepts.length.1.trans hS.verifyingKey)
  · exact hs (haccepts.length.2.trans hS.signature)

namespace Differential

/-- On every case of the two documents that `fips204` can be asked, it says what they say. -/
def Documented (F : Fips204 P) (as : List (List Acvp.Case)) (ws : List Wycheproof.Group) : Prop :=
  (∀ cs ∈ as, ∀ c ∈ cs, ∀ b, F.verdict c.pk c.message c.context c.signature = some b → b = c.testPassed) ∧
    ∀ g ∈ ws, ∀ c ∈ g.cases, ∀ b, F.verdict g.key c.msg c.ctx c.sig = some b → b = c.valid

/-- On every case that `fips204` can be asked, it says what ML-DSA of the binding does. -/
def Agrees (F : Fips204 P) (D : MlDsaCrate) (as : List (List Acvp.Case)) (ws : List Wycheproof.Group) : Prop :=
  (∀ cs ∈ as, ∀ c ∈ cs, ∀ b, F.verdict c.pk c.message c.context c.signature = some b →
    (b = true ↔ c.context.length ≤ 255 ∧ D.AcceptsEncoded c.pk c.message c.context c.signature)) ∧
  ∀ g ∈ ws, ∀ c ∈ g.cases, ∀ b, F.verdict g.key c.msg c.ctx c.sig = some b →
    (b = true ↔ c.ctx.length ≤ 255 ∧ D.AcceptsEncoded g.key c.msg c.ctx c.sig)

section

variable {D : MlDsaCrate} {F : Fips204 P} {as : List (List Acvp.Case)} {ws : List Wycheproof.Group}

theorem accepts_eq_iff {key m c s : Bytes} {b : Bool} : (mlDsaJudge P D).accepts key m c s = b ↔
    (b = true ↔ c.length ≤ 255 ∧ D.AcceptsEncoded key m c s) := by
  rw [Bool.eq_iff_iff,mlDsaJudge_accepts]
  exact iff_comm

/-- A case that cannot be asked is one both count as rejected. -/
theorem agrees_case_iff (hS : D.SizesMatch P) {key m c s : Bytes} :
    (mlDsaJudge P D).accepts key m c s = (F.verdict key m c s).getD false ↔
      ∀ b, F.verdict key m c s = some b → (b = true ↔ c.length ≤ 255 ∧ D.AcceptsEncoded key m c s) := by
  cases hv : F.verdict key m c s with
  | none => exact iff_of_true (mlDsaJudge_unsized hS hv) nofun
  | some b =>
    rw [Option.getD_some,accepts_eq_iff]
    constructor
    · intro h b' hb
      obtain rfl := Option.some.inj hb
      exact h
    · exact fun h => h b rfl

theorem agrees_iff (hS : D.SizesMatch P) : (∀ cs ∈ as, ∀ c ∈ cs, ∀ b,
      F.verdict c.pk c.message c.context c.signature = some b →
        (mlDsaJudge P D).accepts c.pk c.message c.context c.signature = b ∧ b = c.testPassed) ∧
      (∀ g ∈ ws, ∀ c ∈ g.cases, (mlDsaJudge P D).accepts g.key c.msg c.ctx c.sig =
        (F.verdict g.key c.msg c.ctx c.sig).getD false) ↔
    Agrees F D as ws ∧ ∀ cs ∈ as, ∀ c ∈ cs, ∀ b,
      F.verdict c.pk c.message c.context c.signature = some b → b = c.testPassed := by
  simp only [accepts_eq_iff,agrees_case_iff hS]
  constructor
  · rintro ⟨has,hws⟩
    exact ⟨⟨fun cs hcs c hc b hb => (has cs hcs c hc b hb).1,hws⟩,fun cs hcs c hc b hb => (has cs hcs c hc b hb).2⟩
  · rintro ⟨⟨has,hws⟩,hdocumented⟩
    exact ⟨fun cs hcs c hc b hb => ⟨has cs hcs c hc b hb,hdocumented cs hcs c hc b hb⟩,hws⟩

theorem met_external {gs : List Acvp.Group} (h : ∀ g ∈ gs, g.Judged (mlDsaJudge P D)) :
    ∀ cs ∈ gs.map external, ∀ c ∈ cs,
      (c.testPassed = true ↔ c.context.length ≤ 255 ∧ D.AcceptsEncoded c.pk c.message c.context c.signature) := by
  intro cs hcs c hc
  obtain ⟨g,hg,rfl⟩ := List.mem_map.mp hcs
  cases g with
  | cases cs => exact accepts_eq_iff.mp (h _ hg c hc).2
  | other => cases hc
  | skipped n => cases hc

/-- Where the document says what the binding does, agreeing is being documented. -/
theorem agrees_of_documented (hmet : ∀ cs ∈ as, ∀ c ∈ cs,
      (c.testPassed = true ↔ c.context.length ≤ 255 ∧ D.AcceptsEncoded c.pk c.message c.context c.signature))
    (hjudged : ∀ g ∈ ws, ∀ c ∈ g.cases,
      (c.valid = true ↔ c.ctx.length ≤ 255 ∧ D.AcceptsEncoded g.key c.msg c.ctx c.sig)) :
    (Agrees F D as ws ∧ ∀ cs ∈ as, ∀ c ∈ cs, ∀ b,
      F.verdict c.pk c.message c.context c.signature = some b → b = c.testPassed) ↔ Documented F as ws := by
  constructor
  · rintro ⟨⟨-,hws⟩,hdocumented⟩
    refine ⟨hdocumented,?_⟩
    intro g hg c hc b hb
    rw [Bool.eq_iff_iff,hws g hg c hc b hb,hjudged g hg c hc]
  · rintro ⟨has,hws⟩
    refine ⟨⟨?_,?_⟩,has⟩
    · intro cs hcs c hc b hb
      rw [has cs hcs c hc b hb,hmet cs hcs c hc]
    · intro g hg c hc b hb
      rw [hws g hg c hc b hb,hjudged g hg c hc]

end

end Differential

/-- The differential test passes exactly if the two implementations agree on every case that
both can be asked, with the document too for ACVP. Once our own tests have passed on the
same documents, that is `fips204` giving every documented verdict on those cases. -/
theorem differential_passes_iff (H : Hex) (P : ParamSet) (D : MlDsaCrate) (hS : D.SizesMatch P) (F : Fips204 P)
    (acvp wycheproof : Value) :
    (∀ n, @Differential.test P H F (VerifyingKey D) (vkVerifier P D) acvp wycheproof = .ok n ↔
      ∃ as ws, Differential.readAcvp H P.name acvp = some as ∧ Wycheproof.read H wycheproof = some ws ∧
        (Differential.Agrees F D as ws ∧ ∀ cs ∈ as, ∀ c ∈ cs, ∀ b,
          F.verdict c.pk c.message c.context c.signature = some b → b = c.testPassed) ∧
        0 < n.1 ∧ n = Differential.countAcvp F as + Differential.countWycheproof F ws) ∧
    ∀ a w, @Acvp.sigVerTest H (VerifyingKey D) (vkVerifier P D) P.name acvp = .ok a →
      @Wycheproof.test H (VerifyingKey D) (vkVerifier P D) wycheproof = .ok w →
      ∃ as ws, Differential.readAcvp H P.name acvp = some as ∧ Wycheproof.read H wycheproof = some ws ∧
        ((∃ n, @Differential.test P H F (VerifyingKey D) (vkVerifier P D) acvp wycheproof = .ok n) ↔
          Differential.Documented F as ws ∧
            0 < (Differential.countAcvp F as + Differential.countWycheproof F ws).1) := by
  let := vkVerifier P D
  have htest (n : Differential.Count) :
      Differential.test H F (VerifyingKey D) acvp wycheproof = .ok n ↔
      ∃ as ws, Differential.readAcvp H P.name acvp = some as ∧ Wycheproof.read H wycheproof = some ws ∧
        (Differential.Agrees F D as ws ∧ ∀ cs ∈ as, ∀ c ∈ cs, ∀ b,
          F.verdict c.pk c.message c.context c.signature = some b → b = c.testPassed) ∧
        0 < n.1 ∧ n = Differential.countAcvp F as + Differential.countWycheproof F ws := by
    simp only [Differential.test_eq_ok H F (judges_mlDsa hS),← Differential.agrees_iff hS,and_assoc]
  refine ⟨htest,?_⟩
  intro a w ha hw
  rw [Acvp.sigVerTest,tested_eq_ok,Acvp.sigVer_passes H (judges_mlDsa hS) P.name acvp a] at ha
  rw [Wycheproof.test,tested_eq_ok,Wycheproof.run_passes H (judges_mlDsa hS) wycheproof w] at hw
  obtain ⟨⟨gs,hgs,hmet,-⟩,-⟩ := ha
  obtain ⟨⟨ws,hws,hjudged,-⟩,-⟩ := hw
  have has := Differential.readAcvp_external H hgs
  have hsame := Differential.agrees_of_documented (F := F) (Differential.met_external hmet)
    fun g hg c hc => Differential.accepts_eq_iff.mp (hjudged g hg c hc)
  refine ⟨_,ws,has,hws,?_⟩
  simp only [htest]
  constructor
  · rintro ⟨n,as',ws',has',hws',hagrees,hpos,rfl⟩
    obtain rfl := Option.some.inj (has.symm.trans has')
    obtain rfl := Option.some.inj (hws.symm.trans hws')
    exact ⟨hsame.mp hagrees,hpos⟩
  · rintro ⟨hdocumented,hpos⟩
    exact ⟨_,_,ws,has,hws,hsame.mpr hdocumented,hpos,rfl⟩

def sampleFips204 (P : ParamSet) : Fips204 P :=
  ⟨Arr P.vkLen,some,fun vk m s c => decide (c.length ≤ 255 ∧ s = TagCrate.tag P vk (frame m c))⟩

theorem sampleFips204_verdict {P : ParamSet} (key : Arr P.vkLen) (sig : Arr P.sigLen) (m c : Bytes) :
    (sampleFips204 P).verdict key.val m c sig.val =
      some (decide (c.length ≤ 255 ∧ sig = TagCrate.tag P key (frame m c))) := by
  simp [Fips204.verdict,tryFrom_val,sampleFips204]

/-- Of the four cases of the two documents, two can be put to both. -/
theorem differential_passes_iff_two : ∃ pk message signature : Bytes,
    @Differential.test mldsa44 lowerHex (sampleFips204 mldsa44) (VerifyingKey (TagCrate.crate mldsa44))
      (vkVerifier mldsa44 _) (sigVerDoc pk message signature) (wycheproofDoc pk message signature) = .ok (2,2) := by
  let key : Arr mldsa44.vkLen := Arr.zero mldsa44.vkLen
  let sig := TagCrate.tag mldsa44 key (frame [1] [])
  have haccepts : (TagCrate.crate mldsa44).AcceptsEncoded key.val [1] [] sig.val :=
    ⟨key,tryFrom_val key,sig,by rw [tryFrom_val]; rfl,by simp [sig]⟩
  have hasked : (sampleFips204 mldsa44).verdict key.val [1] [] sig.val = some true := by
    simp [sampleFips204_verdict,sig]
  have hskipped : (sampleFips204 mldsa44).verdict key.val [1] [] [] = none :=
    Fips204.verdict_eq_none.mpr (Or.inr (by decide))
  have hacvp := Differential.readAcvp_external lowerHex (read_sigVerDoc key.val [1] sig.val)
  refine ⟨key.val,[1],sig.val,?_⟩
  apply ((differential_passes_iff lowerHex mldsa44 (TagCrate.crate mldsa44) (TagCrate.sizesMatch mldsa44)
    (sampleFips204 mldsa44) _ _).1 (2,2)).mpr
  refine ⟨_,_,hacvp,read_wycheproofDoc _ _ _,?_,by decide,?_⟩
  · simp [Differential.Agrees,Differential.external,hasked,hskipped,haccepts]
  · simp [Differential.countAcvp,Differential.countWycheproof,Differential.external,Differential.counted,
      hasked,hskipped]

end SorobanMlDsa.Conformance

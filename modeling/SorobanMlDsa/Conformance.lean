import SorobanMlDsa.Cli
import SorobanMlDsa.TagCrate
import SorobanMlDsa.Tally
import Mathlib.Algebra.Group.Nat.Defs
import Mathlib.Algebra.Group.Prod
import Mathlib.Algebra.Order.Group.Multiset

/-!
# The conformance suites

The suites are loops over JSON documents that end at the first assertion that fails. What a
document says is read off it once more here, without any scheme; a suite passes exactly if the
scheme gives every verdict the document asks for.
-/

namespace SorobanMlDsa.Conformance

open ByteSlice SerdeJson Tally

/-- How a suite fails. -/
inductive Failure
  | unwrap
  | panic (p : Panic)
  | keyRejected (tcId : UInt64) (e : PqError)
  | wrongVerdict (tcId : UInt64) (note : String) (expected got : Bool)
  | keyMismatch (tcId : UInt64)
  | disagreement (tcId : UInt64) (ours theirs expected : Bool)
  | acceptedWrongLength (tcId : UInt64)
  | assertion (message : String)
  | nothingRan

abbrev Suite (A : Type) := Except Failure A

def need {A : Type} : Option A → Suite A
  | none => .error .unwrap
  | some a => .ok a

def returned {A : Type} (r : Outcome A) : Suite A := r.mapError .panic

def require (p : Prop) [Decidable p] (e : Failure) : Suite Unit := if p then .ok () else .error e

theorem need_eq_ok {A : Type} {x : Option A} {a : A} : need x = .ok a ↔ x = some a := by
  cases x <;> simp [need]

theorem returned_eq_ok {A : Type} {r : Outcome A} {a : A} : returned r = .ok a ↔ r = .ok a := by
  cases r <;> simp [returned,Except.mapError]

theorem require_eq_ok {p : Prop} [Decidable p] {e : Failure} {u : Unit} : require p e = .ok u ↔ p := by
  by_cases h : p <;> simp [require,h]

def written {α : Type} [PqEncode α] (len : ℕ) (x : α) : Suite (Arr len) :=
  unwrapBuffer .panic .unwrap (PqEncode.writeTo x (Arr.zero len))

theorem written_eq {α : Type} [PqEncode α] {len : ℕ} {x : α} {v : Arr len}
    (h : PqEncode.writeTo x (Arr.zero len) = writeEncoded len v.val (Arr.zero len)) : written len x = .ok v := by
  obtain ⟨buf,hbuf,hval⟩ := unwrapBuffer_writeEncoded v.property
  rw [written,h,hbuf,Subtype.ext hval]

theorem tested_eq_ok {A : Type} {r : Suite A} {p : A → Prop} [DecidablePred p] {e : Failure} {a : A} :
    (do
      let n ← r
      require (p n) e
      return n : Suite A) = .ok a ↔ r = .ok a ∧ p a := by
  simp only [bind_eq_ok,require_eq_ok,pure_eq_ok,Except.ok.injEq]
  constructor
  · rintro ⟨_,hr,_,hp,rfl⟩
    exact ⟨hr,hp⟩
  · rintro ⟨hr,hp⟩
    exact ⟨a,hr,(),hp,rfl⟩

def loop {M : Type} [AddMonoid M] (key : String) (f : Value → Suite M) (v : Value) : Suite M := do
  let items ← need (v.field key).asArray
  tally f items

def readAll {C : Type} (key : String) (read : Value → Option C) (v : Value) : Option (List C) := do
  let items ← (v.field key).asArray
  items.mapM read

theorem loop_passes {C M : Type} [AddMonoid M] {f : Value → Suite M} {read : Value → Option C} {good : C → Prop}
    {weight : C → M} (h : Passes f read good weight) (key : String) :
    Passes (loop key f) (readAll key read) (fun cs => ∀ c ∈ cs, good c) fun cs => (cs.map weight).sum := by
  intro v m
  simp only [loop,readAll,bind_eq_ok,need_eq_ok,Option.bind_eq_bind,Option.bind_eq_some_iff]
  constructor
  · rintro ⟨items,hitems,hm⟩
    obtain ⟨cs,hcs,hgood,rfl⟩ := (h.tally items m).mp hm
    exact ⟨cs,⟨items,hitems,hcs⟩,hgood,rfl⟩
  · rintro ⟨cs,⟨items,hitems,hcs⟩,hgood,rfl⟩
    exact ⟨items,hitems,(h.tally items _).mpr ⟨cs,hcs,hgood,rfl⟩⟩

structure Hex where
  encode : Bytes → String
  decode : String → Option Bytes

variable (H : Hex)

def Hex.field (t : Value) (key : String) : Option Bytes := H.decode (((t.get key).bind Value.asStr).getD "")

/-- What a scheme answers on bytes: which keys decode, and what is accepted. -/
structure Judge where
  decodes : (key : Bytes) → Bool
  accepts : (key message context signature : Bytes) → Bool

section Verdicts

variable {V : Type} [PqVerifier V]

/-- Whether a key, if it decoded, accepts. -/
def verdict (vk : Except PqError V) (m c s : Bytes) : Outcome Bool :=
  match vk with
  | .error _ => .ok false
  | .ok k => do
    let r ← PqVerifier.verify k m c s
    return r.isOk

variable (V) in
/-- A scheme that answers everything, and always what `J` says. -/
def Judges (J : Judge) : Prop :=
  ∀ key, ∃ vk : Except PqError V, PqEncode.fromBytes key = .ok vk ∧ vk.isOk = J.decodes key ∧
    ∀ m c s, verdict vk m c s = .ok (J.accepts key m c s)

end Verdicts

namespace Wycheproof

structure Case where
  tcId : UInt64
  valid : Bool
  msg : Bytes
  sig : Bytes
  ctx : Bytes
  comment : String
  flags : List String

structure Group where
  key : Bytes
  cases : List Case

def Case.read (t : Value) : Option Case := do
  let tcId ← (t.field "tcId").asU64
  let result ← (t.field "result").asStr
  let msg ← H.field t "msg"
  let sig ← H.field t "sig"
  let ctx ← H.field t "ctx"
  let flags := ((t.field "flags").asArray.getD []).map fun f => f.asStr.getD "?"
  return ⟨tcId,result == "valid",msg,sig,ctx,(t.field "comment").asStr.getD "",flags⟩

def Group.readKey (g : Value) : Option Bytes := (g.field "publicKey").asStr.bind H.decode

def Group.read (g : Value) : Option Group := do
  let key ← Group.readKey H g
  let cases ← readAll "tests" (Case.read H) g
  return ⟨key,cases⟩

def read : (doc : Value) → Option (List Group) := readAll "testGroups" (Group.read H)

/-- Valid is what `J` accepts, on every case. -/
def Group.Judged (J : Judge) (g : Group) : Prop :=
  ∀ c ∈ g.cases, J.accepts g.key c.msg c.ctx c.sig = c.valid

/-- Cases, and how often each flag occurs on them. -/
abbrev Count := ℕ × Multiset String

def Case.count (c : Case) : Count := (1,c.flags)

def Group.count (g : Group) : Count := (g.cases.map Case.count).sum

section

variable {V : Type} [PqVerifier V]

def check (vk : Except PqError V) (t : Value) : Suite Count := do
  let c ← need (Case.read H t)
  let got ← returned (verdict vk c.msg c.ctx c.sig)
  require (got = c.valid) (.wrongVerdict c.tcId c.comment c.valid got)
  return c.count

variable (V) in
def runGroup (g : Value) : Suite Count := do
  let key ← need (Group.readKey H g)
  let vk ← returned (PqEncode.fromBytes key : Outcome (Except PqError V))
  loop "tests" (check H vk) g

variable (V) in
def run : (doc : Value) → Suite Count := loop "testGroups" (runGroup H V)

variable (V) in
def test (doc : Value) : Suite Count := do
  let n ← run H V doc
  require (0 < n.1) .nothingRan
  return n

theorem check_passes {vk : Except PqError V} {judge : (m c s : Bytes) → Bool}
    (h : ∀ m c s, verdict vk m c s = .ok (judge m c s)) :
    Passes (check H vk) (Case.read H) (fun c => judge c.msg c.ctx c.sig = c.valid) Case.count := by
  intro t m
  simp only [check,bind_eq_ok,need_eq_ok,returned_eq_ok,require_eq_ok,h,Except.ok.injEq,pure_eq_ok]
  constructor
  · rintro ⟨c,hc,got,rfl,_,hgood,hm⟩
    exact ⟨c,hc,hgood,hm⟩
  · rintro ⟨c,hc,hgood,hm⟩
    exact ⟨c,hc,_,rfl,(),hgood,hm⟩

theorem Group.read_eq_some {g : Value} {G : Group} : Group.read H g = some G ↔
    ∃ key, Group.readKey H g = some key ∧
      ∃ cases, readAll "tests" (Case.read H) g = some cases ∧ ⟨key,cases⟩ = G := by
  simp only [Group.read,Option.bind_eq_bind,Option.bind_eq_some_iff,Option.pure_def,Option.some.injEq]

theorem runGroup_passes {J : Judge} (h : Judges V J) :
    Passes (runGroup H V) (Group.read H) (Group.Judged J) Group.count := by
  intro g m
  simp only [runGroup,bind_eq_ok,need_eq_ok,returned_eq_ok,Group.read_eq_some]
  constructor
  · rintro ⟨key,hkey,vk,hvk,hm⟩
    obtain ⟨vk',hvk',-,hverdict⟩ := h key
    obtain rfl := Except.ok.inj (hvk.symm.trans hvk')
    obtain ⟨cases,hcases,hgood,rfl⟩ := (loop_passes (check_passes H hverdict) "tests" g m).mp hm
    exact ⟨_,⟨key,hkey,cases,hcases,rfl⟩,hgood,rfl⟩
  · rintro ⟨_,⟨key,hkey,cases,hcases,rfl⟩,hgood,rfl⟩
    obtain ⟨vk,hvk,-,hverdict⟩ := h key
    exact ⟨key,hkey,vk,hvk,(loop_passes (check_passes H hverdict) "tests" g _).mpr ⟨cases,hcases,hgood,rfl⟩⟩

theorem run_passes {J : Judge} (h : Judges V J) : Passes (run H V) (read H)
    (fun gs => ∀ g ∈ gs, g.Judged J) fun gs => (gs.map Group.count).sum :=
  loop_passes (runGroup_passes H h) "testGroups"

end

end Wycheproof

namespace Acvp

structure Case where
  tcId : UInt64
  testPassed : Bool
  reason : String
  pk : Bytes
  message : Bytes
  context : Bytes
  signature : Bytes

/-- Only the external, pure interface is run; the cases of the others are counted. -/
inductive Group
  | other
  | skipped (tests : ℕ)
  | cases (cs : List Case)

def Case.read (t : Value) : Option Case := do
  let tcId ← (t.field "tcId").asU64
  let testPassed ← (t.field "testPassed").asBool
  let pk ← H.field t "pk"
  let message ← H.field t "message"
  let context ← H.field t "context"
  let signature ← H.field t "signature"
  return ⟨tcId,testPassed,(t.field "reason").asStr.getD "",pk,message,context,signature⟩

def isSet (set : String) (g : Value) : Bool := (g.field "parameterSet").asStr == some set

def isExternalPure (g : Value) : Bool :=
  (g.field "signatureInterface").asStr == some "external" && (g.field "preHash").asStr == some "pure"

def Group.read (set : String) (g : Value) : Option Group :=
  if !isSet set g then some .other
  else if !isExternalPure g then do
    let tests ← (g.field "tests").asArray
    return .skipped tests.length
  else do
    let cs ← readAll "tests" (Case.read H) g
    return .cases cs

def read (set : String) : (doc : Value) → Option (List Group) := readAll "testGroups" (Group.read H set)

abbrev Count := ℕ × ℕ

def Group.count : Group → Count
  | .other => 0
  | .skipped n => (0,n)
  | .cases cs => (cs.length,0)

/-- Every key decodes, and `J` accepts what is to pass. -/
def Group.Judged (J : Judge) : Group → Prop
  | .cases cs => ∀ c ∈ cs, J.decodes c.pk = true ∧ J.accepts c.pk c.message c.context c.signature = c.testPassed
  | _ => True

section

variable {V : Type} [PqVerifier V]

variable (V) in
def check (t : Value) : Suite Count := do
  let tcId ← need (t.field "tcId").asU64
  let expected ← need (t.field "testPassed").asBool
  let pk ← need (H.field t "pk")
  match ← returned (PqEncode.fromBytes pk : Outcome (Except PqError V)) with
  | .error e => .error (.keyRejected tcId e)
  | .ok vk =>
    let message ← need (H.field t "message")
    let context ← need (H.field t "context")
    let signature ← need (H.field t "signature")
    let got ← returned (verdict (.ok vk) message context signature)
    require (got = expected) (.wrongVerdict tcId ((t.field "reason").asStr.getD "") expected got)
    return (1,0)

variable (V) in
def runGroup (set : String) (g : Value) : Suite Count :=
  if !isSet set g then .ok 0
  else if !isExternalPure g then do
    let tests ← need (g.field "tests").asArray
    return (0,tests.length)
  else loop "tests" (check H V) g

variable (V) in
def sigVer (set : String) : (doc : Value) → Suite Count := loop "testGroups" (runGroup H V set)

variable (V) in
def sigVerTest (set : String) (doc : Value) : Suite Count := do
  let n ← sigVer H V set doc
  require (0 < n.1) .nothingRan
  return n

theorem Case.read_eq_some {t : Value} {c : Case} : Case.read H t = some c ↔
    (t.field "tcId").asU64 = some c.tcId ∧ (t.field "testPassed").asBool = some c.testPassed ∧
      (t.field "reason").asStr.getD "" = c.reason ∧ H.field t "pk" = some c.pk ∧
      H.field t "message" = some c.message ∧ H.field t "context" = some c.context ∧
      H.field t "signature" = some c.signature := by
  obtain ⟨tcId,testPassed,reason,pk,message,context,signature⟩ := c
  simp only [Case.read,Option.bind_eq_bind,Option.bind_eq_some_iff,Option.pure_def,Option.some.injEq,Case.mk.injEq]
  constructor
  · rintro ⟨_,h1,_,h2,_,h3,_,h4,_,h5,_,h6,rfl,rfl,rfl,rfl,rfl,rfl,rfl⟩
    exact ⟨h1,h2,rfl,h3,h4,h5,h6⟩
  · rintro ⟨h1,h2,h,h3,h4,h5,h6⟩
    exact ⟨_,h1,_,h2,_,h3,_,h4,_,h5,_,h6,rfl,rfl,h,rfl,rfl,rfl,rfl⟩

theorem check_passes {J : Judge} (h : Judges V J) : Passes (check H V) (Case.read H)
    (fun c => J.decodes c.pk = true ∧ J.accepts c.pk c.message c.context c.signature = c.testPassed)
    (fun _ => ((1,0) : Count)) := by
  intro t m
  simp only [check,bind_eq_ok,need_eq_ok,returned_eq_ok]
  constructor
  · rintro ⟨tcId,htcId,expected,hexpected,pk,hpk,vk,hvk,hm⟩
    obtain ⟨vk',hvk',hdecodes,hverdict⟩ := h pk
    obtain rfl := Except.ok.inj (hvk.symm.trans hvk')
    cases vk with
    | error e => cases hm
    | ok k =>
      simp only [bind_eq_ok,need_eq_ok,returned_eq_ok,require_eq_ok,hverdict,Except.ok.injEq,pure_eq_ok] at hm
      obtain ⟨message,hmessage,context,hcontext,signature,hsignature,got,rfl,_,hgood,hm⟩ := hm
      exact ⟨⟨tcId,expected,_,pk,message,context,signature⟩,
        (Case.read_eq_some H).mpr ⟨htcId,hexpected,rfl,hpk,hmessage,hcontext,hsignature⟩,
        ⟨hdecodes.symm,hgood⟩,hm⟩
  · rintro ⟨c,hread,⟨hdecodes,hgood⟩,hm⟩
    obtain ⟨htcId,hexpected,-,hpk,hmessage,hcontext,hsignature⟩ := (Case.read_eq_some H).mp hread
    obtain ⟨vk,hvk,hvkOk,hverdict⟩ := h c.pk
    refine ⟨c.tcId,htcId,c.testPassed,hexpected,c.pk,hpk,vk,hvk,?_⟩
    cases vk with
    | error e => simp [← hvkOk,Except.isOk,Except.toBool] at hdecodes
    | ok k =>
      simp only [bind_eq_ok,need_eq_ok,returned_eq_ok,require_eq_ok,hverdict,Except.ok.injEq,pure_eq_ok]
      exact ⟨c.message,hmessage,c.context,hcontext,c.signature,hsignature,_,rfl,(),hgood,hm⟩

theorem sum_ones (cs : List Case) : (cs.map fun _ => ((1,0) : Count)).sum = (cs.length,0) := by
  induction cs with
  | nil => rfl
  | cons c cs ih =>
    rw [List.map_cons,List.sum_cons,ih,Prod.mk_add_mk,List.length_cons,Nat.add_comm]

theorem runGroup_passes {J : Judge} (h : Judges V J) (set : String) :
    Passes (runGroup H V set) (Group.read H set) (Group.Judged J) Group.count := by
  intro g m
  rw [runGroup,Group.read]
  by_cases hset : isSet set g
  · simp only [hset,Bool.not_true,Bool.false_eq_true,if_false]
    by_cases hpure : isExternalPure g
    · simp only [hpure,Bool.not_true,Bool.false_eq_true,if_false,Option.bind_eq_bind,
        Option.bind_eq_some_iff,Option.pure_def,Option.some.injEq]
      constructor
      · intro hm
        obtain ⟨cs,hcs,hgood,rfl⟩ := (loop_passes (check_passes H h) "tests" g m).mp hm
        exact ⟨.cases cs,⟨cs,hcs,rfl⟩,hgood,(sum_ones cs).symm⟩
      · rintro ⟨_,⟨cs,hcs,rfl⟩,hgood,rfl⟩
        exact (loop_passes (check_passes H h) "tests" g _).mpr ⟨cs,hcs,hgood,sum_ones cs⟩
    · simp only [hpure,Bool.not_false,if_true,bind_eq_ok,need_eq_ok,Option.bind_eq_bind,
        Option.bind_eq_some_iff,Option.pure_def,Option.some.injEq,pure_eq_ok,Except.ok.injEq]
      constructor
      · rintro ⟨tests,htests,hm⟩
        exact ⟨_,⟨tests,htests,rfl⟩,trivial,hm⟩
      · rintro ⟨_,⟨tests,htests,rfl⟩,-,hm⟩
        exact ⟨tests,htests,hm⟩
  · simp only [hset,Bool.not_false,if_true,Except.ok.injEq,Option.some.injEq]
    constructor
    · intro hm
      exact ⟨.other,rfl,trivial,hm⟩
    · rintro ⟨_,rfl,-,hm⟩
      exact hm

theorem sigVer_passes {J : Judge} (h : Judges V J) (set : String) : Passes (sigVer H V set) (read H set)
    (fun gs => ∀ g ∈ gs, g.Judged J) fun gs => (gs.map Group.count).sum :=
  loop_passes (runGroup_passes H h set) "testGroups"

end

structure KeyCase where
  tcId : UInt64
  seed : Bytes
  pk : Bytes
  sk : Bytes

def KeyCase.read (t : Value) : Option KeyCase := do
  let tcId ← (t.field "tcId").asU64
  let seed ← H.field t "seed"
  let pk ← H.field t "pk"
  let sk ← H.field t "sk"
  return ⟨tcId,seed,pk,sk⟩

/-- The cases of a group of the set, and none of another's. -/
def readKeyGroup (set : String) (g : Value) : Option (List KeyCase) :=
  if !isSet set g then some [] else readAll "tests" (KeyCase.read H) g

def readKeys (set : String) : (doc : Value) → Option (List (List KeyCase)) :=
  readAll "testGroups" (readKeyGroup H set)

section

variable (S : PqScheme)

def checkKey (vkLen skLen : ℕ) (t : Value) : Suite ℕ := do
  let tcId ← need (t.field "tcId").asU64
  let seed ← need (H.field t "seed")
  match ← returned (PqKeypair.fromSeed seed : Outcome (Except PqError S.Keypair)) with
  | .error _ => .error .unwrap
  | .ok kp =>
    let vk ← written vkLen (PqKeypair.verifyingKey kp)
    let pk ← need (H.field t "pk")
    require (H.encode vk.val = H.encode pk) (.keyMismatch tcId)
    let sk ← written skLen (PqKeypair.signingKey kp)
    let expected ← need (H.field t "sk")
    require (H.encode sk.val = H.encode expected) (.keyMismatch tcId)
    return 1

def runKeyGroup (set : String) (vkLen skLen : ℕ) (g : Value) : Suite ℕ :=
  if !isSet set g then .ok 0 else loop "tests" (checkKey H S vkLen skLen) g

def keyGen (set : String) (vkLen skLen : ℕ) : (doc : Value) → Suite ℕ :=
  loop "testGroups" (runKeyGroup H S set vkLen skLen)

def keyGenTest (set : String) (vkLen skLen : ℕ) (doc : Value) : Suite ℕ := do
  let n ← keyGen H S set vkLen skLen doc
  require (0 < n) .nothingRan
  return n

end

/-- The pair of the seed has these encodings. -/
def KeyCase.Derived (D : MlDsaCrate) (c : KeyCase) : Prop :=
  ∃ h : c.seed.length = 32, (D.encode (D.verifyingKey (D.fromSeed ⟨c.seed,h⟩))).val = c.pk ∧
    (D.toExpanded (D.fromSeed ⟨c.seed,h⟩)).val = c.sk

theorem KeyCase.read_eq_some {t : Value} {c : KeyCase} : KeyCase.read H t = some c ↔
    (t.field "tcId").asU64 = some c.tcId ∧ H.field t "seed" = some c.seed ∧ H.field t "pk" = some c.pk ∧
      H.field t "sk" = some c.sk := by
  obtain ⟨tcId,seed,pk,sk⟩ := c
  simp only [KeyCase.read,Option.bind_eq_bind,Option.bind_eq_some_iff,Option.pure_def,Option.some.injEq,
    KeyCase.mk.injEq]
  constructor
  · rintro ⟨_,h1,_,h2,_,h3,_,h4,rfl,rfl,rfl,rfl⟩
    exact ⟨h1,h2,h3,h4⟩
  · rintro ⟨h1,h2,h3,h4⟩
    exact ⟨_,h1,_,h2,_,h3,_,h4,rfl,rfl,rfl,rfl⟩

end Acvp

section MlDsa

variable {P : ParamSet} {D : MlDsaCrate}

theorem written_verifyingKey (hS : D.SizesMatch P) (vk : VerifyingKey D) :
    @written (VerifyingKey D) (vkEncode P D) P.vkLen vk =
      .ok ⟨(D.encode vk.inner).val,(Arr.length_val _).trans hS.verifyingKey⟩ :=
  @written_eq _ (vkEncode P D) _ _ _ rfl

theorem written_signingKey (hS : D.SizesMatch P) (sk : SigningKey D) :
    @written (SigningKey D) (skSigner P D).toPqEncode P.skLen sk =
      .ok ⟨(D.toExpanded sk.inner).val,(Arr.length_val _).trans hS.signingKey⟩ :=
  @written_eq _ (skSigner P D).toPqEncode _ _ _ rfl

/-- ML-DSA on bytes: a length for keys, and verification within the context limit. -/
def mlDsaJudge (P : ParamSet) (D : MlDsaCrate) : Judge where
  decodes key := decide (key.length = P.vkLen)
  accepts key m c s := decide (c.length ≤ maxContextLen ∧ D.AcceptsEncoded key m c s)

theorem mlDsaJudge_accepts {key m c s : Bytes} :
    (mlDsaJudge P D).accepts key m c s = true ↔ c.length ≤ 255 ∧ D.AcceptsEncoded key m c s := decide_eq_true_iff

theorem isOk_eq_decide (r : Except PqError Unit) : r.isOk = decide (r = .ok ()) := by
  cases r <;> simp [Except.isOk,Except.toBool]

theorem judges_mlDsa (hS : D.SizesMatch P) : @Judges (VerifyingKey D) (vkVerifier P D) (mlDsaJudge P D) := by
  intro key
  refine ⟨VerifyingKey.fromBytes P D key,rfl,?_,?_⟩
  · by_cases hkey : key.length = P.vkLen
    · simp [VerifyingKey.fromBytes_ok hS hkey,mlDsaJudge,hkey,Except.isOk,Except.toBool]
    · simp [VerifyingKey.fromBytes_wrongLength hkey,mlDsaJudge,hkey,Except.isOk,Except.toBool]
  · intro m c s
    by_cases hkey : key.length = P.vkLen
    · have hvk := VerifyingKey.fromBytes_ok hS hkey
      have hacc := VerifyingKey.acceptsEncoded_iff hS hvk m c s
      have hlen (h : D.AcceptsEncoded key m c s) : s.length = P.sigLen := h.length.2.trans hS.signature
      rw [hvk]
      show Except.ok (VerifyingKey.verify P _ m c s).isOk = _
      rw [isOk_eq_decide,mlDsaJudge,Except.ok.injEq,decide_eq_decide,VerifyingKey.verify_eq_ok_iff,← hacc]
      exact ⟨fun h => ⟨h.1,h.2.2⟩,fun h => ⟨h.1,hlen h.2,h.2⟩⟩
    · have hno : ¬ D.AcceptsEncoded key m c s := fun h => hkey (h.length.1.trans hS.verifyingKey)
      simp [VerifyingKey.fromBytes_wrongLength hkey,verdict,mlDsaJudge,hno]

namespace Wycheproof

theorem sum_count (gs : List Group) : (gs.map Group.count).sum =
    ((gs.flatMap Group.cases).length,((gs.flatMap Group.cases).map fun c => (c.flags : Multiset String)).sum) := by
  have hone (cs : List Case) :
      (cs.map Case.count).sum = (cs.length,(cs.map fun c => (c.flags : Multiset String)).sum) := by
    induction cs with
    | nil => rfl
    | cons c cs ih =>
      rw [List.map_cons,List.sum_cons,ih,Case.count,Prod.mk_add_mk,List.length_cons,Nat.add_comm,List.map_cons,
        List.sum_cons]
  rw [← hone]
  induction gs with
  | nil => rfl
  | cons g gs ih => rw [List.map_cons,List.sum_cons,ih,Group.count,List.flatMap_cons,List.map_append,List.sum_append]

end Wycheproof

/-- A Wycheproof test passes exactly if the document can be read, has a case, and the
scheme accepts the cases marked valid and no others; none is left out of the counts. -/
theorem wycheproof_passes_iff (H : Hex) (P : ParamSet) (D : MlDsaCrate) (hS : D.SizesMatch P) (doc : Value)
    (n : ℕ) (flags : Multiset String) :
    @Wycheproof.test H (VerifyingKey D) (vkVerifier P D) doc = .ok (n,flags) ↔ ∃ gs, Wycheproof.read H doc = some gs ∧
      (∀ g ∈ gs, ∀ c ∈ g.cases, c.valid = true ↔
        c.ctx.length ≤ 255 ∧ D.AcceptsEncoded g.key c.msg c.ctx c.sig) ∧
      n = (gs.flatMap Wycheproof.Group.cases).length ∧ 0 < n ∧
      flags = ((gs.flatMap Wycheproof.Group.cases).map fun c => (c.flags : Multiset String)).sum := by
  let := vkVerifier P D
  have hrun (n : Wycheproof.Count) := Wycheproof.run_passes H (judges_mlDsa hS) doc n
  have hjudged (g : Wycheproof.Group) : g.Judged (mlDsaJudge P D) ↔ ∀ c ∈ g.cases, (c.valid = true ↔
      c.ctx.length ≤ 255 ∧ D.AcceptsEncoded g.key c.msg c.ctx c.sig) := by
    refine forall₂_congr fun c _ => ?_
    rw [Bool.eq_iff_iff,mlDsaJudge_accepts]
    exact iff_comm
  simp only [hjudged,Wycheproof.sum_count] at hrun
  rw [Wycheproof.test,tested_eq_ok,hrun]
  constructor
  · rintro ⟨⟨gs,hgs,hgood,hn⟩,hpos⟩
    obtain ⟨rfl,rfl⟩ := Prod.mk.inj hn
    exact ⟨gs,hgs,hgood,rfl,hpos,rfl⟩
  · rintro ⟨gs,hgs,hgood,rfl,hpos,rfl⟩
    exact ⟨⟨gs,hgs,hgood,rfl⟩,hpos⟩

namespace Acvp

/-- The external, pure cases say what the scheme does, over keys of its length. -/
def Group.Met (P : ParamSet) (D : MlDsaCrate) : Group → Prop
  | .cases cs => ∀ c ∈ cs, c.pk.length = P.vkLen ∧
      (c.testPassed = true ↔ c.context.length ≤ 255 ∧ D.AcceptsEncoded c.pk c.message c.context c.signature)
  | _ => True

theorem Group.judged_iff {g : Group} : g.Judged (mlDsaJudge P D) ↔ g.Met P D := by
  cases g with
  | cases cs =>
    refine forall₂_congr fun c _ => and_congr decide_eq_true_iff ?_
    rw [Bool.eq_iff_iff,mlDsaJudge_accepts]
    exact iff_comm
  | other => exact Iff.rfl
  | skipped n => exact Iff.rfl

theorem checkKey_passes (hH : Function.Injective H.encode) (hS : D.SizesMatch P) :
    Passes (checkKey H (scheme P D) P.vkLen P.skLen) (KeyCase.read H) (KeyCase.Derived D) fun _ => 1 := by
  intro t m
  simp only [checkKey,bind_eq_ok,need_eq_ok,returned_eq_ok]
  constructor
  · rintro ⟨tcId,htcId,seed,hseed,r,hr,hm⟩
    by_cases hlen : seed.length = 32
    · obtain rfl := Except.ok.inj ((Keypair.fromSeed_ok (D := D) hlen).symm.trans hr)
      simp only [bind_eq_ok,need_eq_ok,require_eq_ok] at hm
      obtain ⟨vk,hvk,pk,hpk,_,heqVk,sk,hsk,expected,hexpected,_,heqSk,hm⟩ := hm
      obtain rfl := Except.ok.inj ((written_verifyingKey hS _).symm.trans hvk)
      obtain rfl := Except.ok.inj ((written_signingKey hS _).symm.trans hsk)
      exact ⟨⟨tcId,seed,pk,expected⟩,(KeyCase.read_eq_some H).mpr ⟨htcId,hseed,hpk,hexpected⟩,
        ⟨hlen,hH heqVk,hH heqSk⟩,Except.ok.inj hm⟩
    · obtain rfl := Except.ok.inj ((Keypair.fromSeed_wrongLength (D := D) hlen).symm.trans hr)
      cases hm
  · rintro ⟨c,hread,⟨hlen,hvk,hsk⟩,hm⟩
    obtain ⟨htcId,hseed,hpk,hexpected⟩ := (KeyCase.read_eq_some H).mp hread
    refine ⟨c.tcId,htcId,c.seed,hseed,_,Keypair.fromSeed_ok hlen,?_⟩
    simp only [bind_eq_ok,need_eq_ok,require_eq_ok]
    exact ⟨_,written_verifyingKey hS _,c.pk,hpk,(),congrArg H.encode hvk,_,written_signingKey hS _,c.sk,hexpected,
      (),congrArg H.encode hsk,congrArg Except.ok hm⟩

theorem runKeyGroup_passes (hH : Function.Injective H.encode) (hS : D.SizesMatch P) (set : String) :
    Passes (runKeyGroup H (scheme P D) set P.vkLen P.skLen) (readKeyGroup H set)
      (fun cs => ∀ c ∈ cs, c.Derived D) List.length := by
  intro g m
  rw [runKeyGroup,readKeyGroup]
  by_cases hset : isSet set g
  · have hloop := loop_passes (checkKey_passes H hH hS) "tests" g m
    have hones (cs : List KeyCase) : (cs.map fun _ => 1).sum = cs.length := by
      induction cs with
      | nil => rfl
      | cons c cs ih => rw [List.map_cons,List.sum_cons,ih,List.length_cons,Nat.add_comm]
    simp only [hones] at hloop
    simpa only [hset,Bool.not_true,Bool.false_eq_true,if_false] using hloop
  · simp only [hset,Bool.not_false,if_true,Except.ok.injEq,Option.some.injEq]
    constructor
    · intro hm
      exact ⟨[],rfl,List.forall_mem_nil _,hm⟩
    · rintro ⟨_,rfl,-,hm⟩
      exact hm

end Acvp

/-- The digit a character stands for, in either case. -/
def nibble (c : Char) : Option ℕ := (List.range 16).find? fun d => d.digitChar == c || d.digitChar.toUpper == c

def unhex : List Char → Option Bytes
  | [] => some []
  | [_] => none
  | a::b::cs => do
    let x ← nibble a
    let y ← nibble b
    let bs ← unhex cs
    return UInt8.ofNat (16 * x + y)::bs

theorem unhex_hex (bytes : Bytes) : unhex (Cli.hex bytes).toList = some bytes := by
  have hnibble : ∀ d < 16, nibble d.digitChar = some d := by decide
  rw [Cli.hex,String.toList_ofList]
  induction bytes with
  | nil => rfl
  | cons b bytes ih =>
    have hb := b.toNat_lt
    have hsum : 16 * (b.toNat / 16) + b.toNat % 16 = b.toNat := Nat.div_add_mod b.toNat 16
    simp only [List.flatMap_cons,List.cons_append,List.nil_append,unhex,hnibble _ (Nat.mod_lt b.toNat (by decide)),
      hnibble _ (show b.toNat / 16 < 16 by omega),ih,hsum,UInt8.ofNat_toNat,Option.bind_eq_bind,Option.bind_some,
      Option.pure_def]

def lowerHex : Hex := ⟨Cli.hex,fun s => unhex s.toList⟩

theorem lowerHex_decode (bytes : Bytes) : lowerHex.decode (Cli.hex bytes) = some bytes := unhex_hex bytes

theorem lowerHex_injective : Function.Injective lowerHex.encode := by
  intro x y h
  exact Option.some.inj ((lowerHex_decode x).symm.trans ((congrArg lowerHex.decode h).trans (lowerHex_decode y)))

def wycheproofDoc (key msg sig : Bytes) : Value :=
  .object [("testGroups",.array [.object [("publicKey",.string (Cli.hex key)),("tests",.array [
    .object [("tcId",.number (.posInt 1)),("result",.string "valid"),("msg",.string (Cli.hex msg)),
      ("sig",.string (Cli.hex sig)),("flags",.array [.string "ValidSignature"])],
    .object [("tcId",.number (.posInt 2)),("result",.string "invalid"),("msg",.string (Cli.hex msg)),
      ("flags",.array [.string "IncorrectSignatureLength"])]])]])]

theorem read_wycheproofDoc (key msg sig : Bytes) : Wycheproof.read lowerHex (wycheproofDoc key msg sig) =
    some [⟨key,[⟨1,true,msg,sig,[],"",["ValidSignature"]⟩,⟨2,false,msg,[],[],"",["IncorrectSignatureLength"]⟩]⟩] := by
  have hempty : lowerHex.decode "" = some [] := lowerHex_decode []
  simp [Wycheproof.read,wycheproofDoc,readAll,Wycheproof.Group.read,Wycheproof.Group.readKey,Wycheproof.Case.read,
    Hex.field,Value.asArray,Value.asStr,Value.asU64,lowerHex_decode,hempty]

theorem wycheproof_passes_iff_two : ∃ key msg sig : Bytes,
    @Wycheproof.test lowerHex (VerifyingKey (TagCrate.crate mldsa44)) (vkVerifier mldsa44 _)
      (wycheproofDoc key msg sig) = .ok (2,{"ValidSignature","IncorrectSignatureLength"}) := by
  let key : Arr mldsa44.vkLen := Arr.zero mldsa44.vkLen
  let sig := TagCrate.tag mldsa44 key (frame [1] [])
  have haccepts : (TagCrate.crate mldsa44).AcceptsEncoded key.val [1] [] sig.val :=
    ⟨key,tryFrom_val key,sig,by rw [tryFrom_val]; rfl,by simp [sig]⟩
  have hrejects : ¬ (TagCrate.crate mldsa44).AcceptsEncoded key.val [1] [] [] := fun h => by
    have hlen := h.length.2
    simp [mldsa44] at hlen
  refine ⟨key.val,[1],sig.val,?_⟩
  apply (wycheproof_passes_iff lowerHex mldsa44 (TagCrate.crate mldsa44) (TagCrate.sizesMatch mldsa44) _ 2 _).mpr
  refine ⟨_,read_wycheproofDoc _ _ _,?_,rfl,by decide,rfl⟩
  simp [haccepts,hrejects]

/-- The ACVP tests pass exactly if their documents can be read, have cases of the set, and say
what the scheme does: on external, pure cases the verdict, and on seeds both encodings. -/
theorem acvp_passes_iff (H : Hex) (hH : Function.Injective H.encode) (P : ParamSet) (D : MlDsaCrate)
    (hS : D.SizesMatch P) (doc : Value) :
    (∀ n, @Acvp.sigVerTest H (VerifyingKey D) (vkVerifier P D) P.name doc = .ok n ↔
      ∃ gs, Acvp.read H P.name doc = some gs ∧ (∀ g ∈ gs, g.Met P D) ∧ 0 < n.1 ∧
        n = (gs.map Acvp.Group.count).sum) ∧
    ∀ n, Acvp.keyGenTest H (scheme P D) P.name P.vkLen P.skLen doc = .ok n ↔
      ∃ gs, Acvp.readKeys H P.name doc = some gs ∧ (∀ g ∈ gs, ∀ c ∈ g, c.Derived D) ∧ 0 < n ∧
        n = gs.flatten.length := by
  constructor
  · intro n
    let := vkVerifier P D
    rw [Acvp.sigVerTest,tested_eq_ok,Acvp.sigVer_passes H (judges_mlDsa hS) P.name doc n]
    simp only [Acvp.Group.judged_iff]
    constructor
    · rintro ⟨⟨gs,hgs,hgood,rfl⟩,hpos⟩
      exact ⟨gs,hgs,hgood,hpos,rfl⟩
    · rintro ⟨gs,hgs,hgood,hpos,rfl⟩
      exact ⟨⟨gs,hgs,hgood,rfl⟩,hpos⟩
  · intro n
    have hloop := loop_passes (Acvp.runKeyGroup_passes H hH hS P.name) "testGroups" doc n
    rw [Acvp.keyGenTest,tested_eq_ok,Acvp.keyGen,hloop]
    simp only [← List.length_flatten]
    constructor
    · rintro ⟨⟨gs,hgs,hgood,rfl⟩,hpos⟩
      exact ⟨gs,hgs,hgood,hpos,rfl⟩
    · rintro ⟨gs,hgs,hgood,hpos,rfl⟩
      exact ⟨⟨gs,hgs,hgood,rfl⟩,hpos⟩

def sigVerDoc (pk message signature : Bytes) : Value :=
  .object [("testGroups",.array [.object [("parameterSet",.string "ML-DSA-87")],
    .object [("parameterSet",.string "ML-DSA-44"),("signatureInterface",.string "internal"),
      ("tests",.array [.null])],
    .object [("parameterSet",.string "ML-DSA-44"),("signatureInterface",.string "external"),
      ("preHash",.string "pure"),("tests",.array [
        .object [("tcId",.number (.posInt 1)),("testPassed",.bool true),("pk",.string (Cli.hex pk)),
          ("message",.string (Cli.hex message)),("signature",.string (Cli.hex signature))],
        .object [("tcId",.number (.posInt 2)),("testPassed",.bool false),("reason",.string "too short"),
          ("pk",.string (Cli.hex pk)),("message",.string (Cli.hex message))]])]])]

theorem read_sigVerDoc (pk message signature : Bytes) :
    Acvp.read lowerHex "ML-DSA-44" (sigVerDoc pk message signature) = some [.other,.skipped 1,
      .cases [⟨1,true,"",pk,message,[],signature⟩,⟨2,false,"too short",pk,message,[],[]⟩]] := by
  have hempty : lowerHex.decode "" = some [] := lowerHex_decode []
  simp [Acvp.read,sigVerDoc,readAll,Acvp.Group.read,Acvp.isSet,Acvp.isExternalPure,Acvp.Case.read,Hex.field,
    Value.asArray,Value.asStr,Value.asU64,Value.asBool,lowerHex_decode,hempty]

def keyGenDoc (seed pk sk : Bytes) : Value :=
  .object [("testGroups",.array [.object [("parameterSet",.string "ML-DSA-87")],
    .object [("parameterSet",.string "ML-DSA-44"),("tests",.array [
      .object [("tcId",.number (.posInt 1)),("seed",.string (Cli.hex seed)),("pk",.string (Cli.hex pk)),
        ("sk",.string (Cli.hex sk))]])]])]

theorem read_keyGenDoc (seed pk sk : Bytes) :
    Acvp.readKeys lowerHex "ML-DSA-44" (keyGenDoc seed pk sk) = some [[],[⟨1,seed,pk,sk⟩]] := by
  simp [Acvp.readKeys,keyGenDoc,readAll,Acvp.readKeyGroup,Acvp.isSet,Acvp.KeyCase.read,Hex.field,
    Value.asArray,Value.asStr,Value.asU64,lowerHex_decode]

theorem acvp_passes_iff_small : ∃ pk message signature seed sk : Bytes,
    @Acvp.sigVerTest lowerHex (VerifyingKey (TagCrate.crate mldsa44)) (vkVerifier mldsa44 _) "ML-DSA-44"
      (sigVerDoc pk message signature) = .ok (2,1) ∧
    Acvp.keyGenTest lowerHex (scheme mldsa44 (TagCrate.crate mldsa44)) "ML-DSA-44" 1312 2560
      (keyGenDoc seed pk sk) = .ok 1 := by
  let seed : Arr 32 := Arr.zero 32
  let key : Arr mldsa44.vkLen := TagCrate.pad mldsa44.vkLen seed.val
  let sig := TagCrate.tag mldsa44 key (frame [1] [])
  have hkey : key.val.length = mldsa44.vkLen := Arr.length_val key
  have haccepts : (TagCrate.crate mldsa44).AcceptsEncoded key.val [1] [] sig.val :=
    ⟨key,tryFrom_val key,sig,by rw [tryFrom_val]; rfl,by simp [sig]⟩
  have hrejects : ¬ (TagCrate.crate mldsa44).AcceptsEncoded key.val [1] [] [] := fun h => by
    have hlen := h.length.2
    simp [mldsa44] at hlen
  have hacvp (doc : Value) := acvp_passes_iff lowerHex lowerHex_injective mldsa44 (TagCrate.crate mldsa44)
    (TagCrate.sizesMatch mldsa44) doc
  refine ⟨key.val,[1],sig.val,seed.val,(TagCrate.pad mldsa44.skLen seed.val).val,?_,?_⟩
  · apply ((hacvp _).1 (2,1)).mpr
    refine ⟨_,read_sigVerDoc _ _ _,?_,by decide,rfl⟩
    simp [Acvp.Group.Met,hkey,haccepts,hrejects]
  · apply ((hacvp _).2 1).mpr
    refine ⟨_,read_keyGenDoc _ _ _,?_,by decide,rfl⟩
    simp only [List.forall_mem_cons]
    exact ⟨nofun,⟨⟨Arr.length_val seed,rfl,rfl⟩,nofun⟩,nofun⟩

end MlDsa
end SorobanMlDsa.Conformance

import Mathlib.Data.List.Induction
import Mathlib.Tactic.Common

/-!
# Programs that put questions

A program ends with a value, stops, or asks something and goes on with whatever it is told. The
other party is not trusted: `Meets` follows the program through all answers, and
`Meets.converse` turns that into a statement about runs.
-/

namespace Dialogue

variable {Q R E A B : Type}

inductive Talk (Q R E A : Type)
  | done (a : A)
  | stop (e : E)
  | ask (q : Q) (next : R → Talk Q R E A)

/-- Questions with their answers, the earliest first. -/
abbrev Said (Q R : Type) := List (Q × R)

abbrev Party (Q R : Type) := Said Q R → Q → R

namespace Talk

def bind : Talk Q R E A → (A → Talk Q R E B) → Talk Q R E B
  | .done a, f => f a
  | .stop e, _ => .stop e
  | .ask q next, f => .ask q fun r => (next r).bind f

instance : Monad (Talk Q R E) where
  pure := .done
  bind := Talk.bind

@[simp] theorem pure_eq (a : A) : (pure a : Talk Q R E A) = .done a := rfl

@[simp] theorem done_bind (a : A) (f : A → Talk Q R E B) : (Talk.done a >>= f) = f a := rfl

@[simp] theorem stop_bind (e : E) (f : A → Talk Q R E B) : (Talk.stop e >>= f) = .stop e := rfl

@[simp] theorem ask_bind (q : Q) (next : R → Talk Q R E A) (f : A → Talk Q R E B) :
    (Talk.ask q next >>= f) = .ask q fun r => next r >>= f := rfl

def ofExcept : Except E A → Talk Q R E A
  | .ok a => .done a
  | .error e => .stop e

@[simp] theorem ofExcept_ok (a : A) : (ofExcept (.ok a) : Talk Q R E A) = .done a := rfl

@[simp] theorem ofExcept_error (e : E) : (ofExcept (.error e) : Talk Q R E A) = .stop e := rfl

def question (q : Q) : Talk Q R E R := .ask q .done

/-- One element after another, with what each one comes to. -/
def forEach (f : A → Talk Q R E B) : List A → Talk Q R E (List B)
  | [] => .done []
  | a::as => do
    let b ← f a
    let bs ← forEach f as
    return b::bs

end Talk

/-- All that has been said when the program ends, and how it ends. -/
def converse (party : Party Q R) : Said Q R → Talk Q R E A → Said Q R × Except E A
  | past, .done a => (past,.ok a)
  | past, .stop e => (past,.error e)
  | past, .ask q next => converse party (past ++ [(q,party past q)]) (next (party past q))

/-- Whatever is answered, every question is put where `allowed` lets it be, and the
program ends as `post` says. -/
def Meets (allowed : Said Q R → Q → Prop) (post : Said Q R → Except E A → Prop) :
    Said Q R → Talk Q R E A → Prop
  | past, .done a => post past (.ok a)
  | past, .stop e => post past (.error e)
  | past, .ask q next => allowed past q ∧ ∀ r, Meets allowed post (past ++ [(q,r)]) (next r)

/-- No question of the record was out of place. -/
def Orderly (allowed : Said Q R → Q → Prop) (said : Said Q R) : Prop :=
  ∀ before q r after, said = before ++ (q,r) :: after → allowed before q

section

variable {allowed : Said Q R → Q → Prop} {post : Said Q R → Except E A → Prop} {past : Said Q R}

@[simp] theorem orderly_nil : Orderly allowed [] := by
  intro before q r after h
  simp at h

theorem Orderly.append_singleton (h : Orderly allowed past) {q : Q} (hq : allowed past q) (r : R) :
    Orderly allowed (past ++ [(q,r)]) := by
  intro before q' r' after he
  rcases List.eq_nil_or_concat after with rfl | ⟨init,last,rfl⟩
  · obtain ⟨rfl,hlast⟩ := List.append_inj' he rfl
    have hpair : (q,r) = (q',r') := by simpa using hlast
    obtain ⟨rfl,-⟩ := Prod.mk.inj hpair
    exact hq
  · have hsplit : past ++ [(q,r)] = (before ++ (q',r') :: init) ++ [last] := by simpa using he
    exact h before q' r' init (List.append_inj' hsplit rfl).1

/-- Where the place of a question decides what it is, the record is known by its length. -/
theorem Orderly.map_eq {C : Type} {said : Said Q R} (h : Orderly allowed said) {kind : Q → C}
    {schedule : List C} (hs : ∀ past q, allowed past q → schedule[past.length]? = some (kind q)) :
    said.map (fun e => kind e.1) <+: schedule := by
  induction said using List.reverseRecOn with
  | nil => exact List.nil_prefix
  | append_singleton said e ih =>
    obtain ⟨q,r⟩ := e
    have hbefore : Orderly allowed said := fun before q' r' after he =>
      h before q' r' (after ++ [(q,r)]) (by simp [he])
    have hnext := hs said q (h said q r [] rfl)
    obtain ⟨rest,hrest⟩ := ih hbefore
    have hhead : rest[0]? = some (kind q) := by
      have hlen : said.length = (said.map fun e => kind e.1).length := by simp
      rw [← hrest,hlen,List.getElem?_append_right (Nat.le_refl _),Nat.sub_self] at hnext
      exact hnext
    cases rest with
    | nil => simp at hhead
    | cons c rest =>
      have hc : c = kind q := Option.some.inj hhead
      refine ⟨rest,?_⟩
      rw [← hrest,hc]
      simp

/-- A program that meets its specification keeps it in every run. -/
theorem Meets.converse {t : Talk Q R E A} (h : Meets allowed post past t) (hpast : Orderly allowed past)
    (party : Party Q R) :
    Orderly allowed (converse party past t).1 ∧ post (converse party past t).1 (converse party past t).2 := by
  induction t generalizing past with
  | done a => exact ⟨hpast,h⟩
  | stop e => exact ⟨hpast,h⟩
  | ask q next ih => exact ih _ (h.2 _) (hpast.append_singleton h.1 _)

/-- A demand on the value returned; a program that stops owes nothing. -/
def Returning (good : Said Q R → A → Prop) : Said Q R → Except E A → Prop :=
  fun said r => ∀ a, r = .ok a → good said a

theorem returning_ok {good : Said Q R → A → Prop} {a : A} :
    Returning (E := E) good past (.ok a) ↔ good past a :=
  ⟨fun h => h a rfl,fun h _ he => Except.ok.inj he ▸ h⟩

theorem returning_error {good : Said Q R → A → Prop} {e : E} : Returning good past (.error e) := by
  intro a h
  cases h

/-- Sequencing: what the first part returns is where the second starts. -/
theorem Meets.bind {mid : Said Q R → A → Prop} {good : Said Q R → B → Prop} {t : Talk Q R E A}
    {f : A → Talk Q R E B} (ht : Meets allowed (Returning mid) past t)
    (hf : ∀ said a, mid said a → Meets allowed (Returning good) said (f a)) :
    Meets allowed (Returning good) past (t >>= f) := by
  induction t generalizing past with
  | done a => exact hf _ _ (returning_ok.mp ht)
  | stop e => exact returning_error
  | ask q next ih => exact ⟨ht.1,fun r => ih r (ht.2 r)⟩

theorem Meets.imp {good good' : Said Q R → A → Prop} {t : Talk Q R E A}
    (h : Meets allowed (Returning good) past t) (himp : ∀ said a, good said a → good' said a) :
    Meets allowed (Returning good') past t := by
  induction t generalizing past with
  | done a => exact returning_ok.mpr (himp _ _ (returning_ok.mp h))
  | stop e => exact returning_error
  | ask q next ih => exact ⟨h.1,fun r => ih r (h.2 r)⟩

theorem meets_ofExcept {x : Except E A} : Meets allowed post past (Talk.ofExcept x) ↔ post past x := by
  cases x <;> rfl

theorem meets_ofExcept_bind {good : Said Q R → B → Prop} {x : Except E A} {f : A → Talk Q R E B}
    (h : ∀ a, x = .ok a → Meets allowed (Returning good) past (f a)) :
    Meets allowed (Returning good) past (Talk.ofExcept x >>= f) := by
  cases x with
  | ok a => exact h a rfl
  | error e => exact returning_error

/-- A loop keeps what each of its rounds keeps; `inv` speaks of the elements done, the
record and the results so far. -/
theorem Meets.forEach {inv : List A → Said Q R → List B → Prop} {f : A → Talk Q R E B} {as : List A}
    (hround : ∀ done a rest said bs, as = done ++ a::rest → inv done said bs →
      Meets allowed (Returning fun said' b => inv (done ++ [a]) said' (bs ++ [b])) said (f a))
    (h : inv [] past []) : Meets allowed (Returning (inv as)) past (Talk.forEach f as) := by
  suffices hrest : ∀ rest done said bs, as = done ++ rest → inv done said bs →
      Meets allowed (Returning fun said' bs' => inv as said' (bs ++ bs')) said (Talk.forEach f rest) from
    hrest as [] past [] rfl h
  intro rest
  induction rest with
  | nil =>
    intro done said bs has hinv
    show Returning _ _ (Except.ok [])
    rw [returning_ok,has,List.append_nil,List.append_nil]
    exact hinv
  | cons a rest ih =>
    intro done said bs has hinv
    apply Meets.bind (hround done a rest said bs has hinv)
    intro said' b hb
    apply Meets.bind (ih (done ++ [a]) said' (bs ++ [b]) (by simp [has]) hb)
    intro said'' bs' hbs
    show Returning _ _ (Except.ok (b::bs'))
    rw [returning_ok]
    simpa using hbs

end

/-- The program puts the questions of the record, is told its answers, and ends with `x`. -/
inductive Follows : Talk Q R E A → Said Q R → Except E A → Prop
  | done (a : A) : Follows (.done a) [] (.ok a)
  | stop (e : E) : Follows (.stop e) [] (.error e)
  | ask {q : Q} {r : R} {next : R → Talk Q R E A} {said : Said Q R} {x : Except E A} :
      Follows (next r) said x → Follows (.ask q next) ((q,r)::said) x

/-- After `past`, the party gives the answers of the record. -/
def Answered (party : Party Q R) : Said Q R → Said Q R → Prop
  | _, [] => True
  | past, (q,r)::said => r = party past q ∧ Answered party (past ++ [(q,r)]) said

section

variable {party : Party Q R} {past said : Said Q R}

theorem Follows.converse {t : Talk Q R E A} {x : Except E A} (h : Follows t said x)
    (hanswered : Answered party past said) : converse party past t = (past ++ said,x) := by
  induction h generalizing past with
  | done a => rw [Dialogue.converse,List.append_nil]
  | stop e => rw [Dialogue.converse,List.append_nil]
  | ask h ih =>
    obtain ⟨rfl,hrest⟩ := hanswered
    rw [Dialogue.converse,ih hrest,List.append_assoc]
    rfl

theorem converse_follows (party : Party Q R) (past : Said Q R) (t : Talk Q R E A) :
    ∃ said, (converse party past t).1 = past ++ said ∧ Answered party past said ∧
      Follows t said (converse party past t).2 := by
  induction t generalizing past with
  | done a => exact ⟨[],(List.append_nil past).symm,trivial,.done a⟩
  | stop e => exact ⟨[],(List.append_nil past).symm,trivial,.stop e⟩
  | ask q next ih =>
    obtain ⟨said,hsaid,hanswered,hfollows⟩ := ih (party past q) (past ++ [(q,party past q)])
    refine ⟨(q,party past q)::said,?_,⟨rfl,hanswered⟩,.ask hfollows⟩
    rw [converse,hsaid,List.append_assoc]
    rfl

theorem converse_ask_mem (party : Party Q R) (past : Said Q R) (q : Q) (next : R → Talk Q R E A) :
    (q,party past q) ∈ (converse party past (.ask q next)).1 := by
  obtain ⟨said,hsaid,-⟩ := converse_follows party (past ++ [(q,party past q)]) (next (party past q))
  rw [converse,hsaid]
  simp

theorem Follows.bind {t : Talk Q R E A} {f : A → Talk Q R E B} {a : A} {said' : Said Q R} {x : Except E B}
    (h : Follows t said (.ok a)) (h' : Follows (f a) said' x) : Follows (t >>= f) (said ++ said') x := by
  generalize hx : (Except.ok a : Except E A) = y at h
  induction h with
  | done b =>
    obtain rfl := Except.ok.inj hx
    exact h'
  | stop e => cases hx
  | ask h ih => exact .ask (ih hx)

theorem Follows.bind_silent {t : Talk Q R E A} {f : A → Talk Q R E B} {a : A} {x : Except E B}
    (h : Follows t said (.ok a)) (h' : Follows (f a) [] x) : Follows (t >>= f) said x := by
  have hbind := h.bind h'
  rwa [List.append_nil] at hbind

theorem follows_ofExcept (x : Except E A) : Follows (Talk.ofExcept x : Talk Q R E A) [] x := by
  cases x with
  | ok a => exact .done a
  | error e => exact .stop e

theorem Follows.ofExcept_bind {c : Except E A} {f : A → Talk Q R E B} {a : A} {x : Except E B}
    (hc : c = .ok a) (h : Follows (f a) said x) : Follows (Talk.ofExcept c >>= f) said x := by
  rw [hc]
  exact h

/-- The record of a loop is those of its rounds, one after the other. -/
theorem Follows.forEach {f : A → Talk Q R E B} {as : List A} {rounds : List (Said Q R × B)}
    (h : List.Forall₂ (fun a round => Follows (f a) round.1 (.ok round.2)) as rounds) :
    Follows (Talk.forEach f as) (rounds.map Prod.fst).flatten (.ok (rounds.map Prod.snd)) := by
  induction h with
  | nil => exact .done []
  | @cons a round as rounds h _ ih =>
    exact h.bind (ih.bind_silent (.done (round.2::rounds.map Prod.snd)))

end

/-- Once it has been told the answers of the record, the program puts the question. -/
inductive Asks : Talk Q R E A → Said Q R → Q → Prop
  | here (q : Q) (next : R → Talk Q R E A) : Asks (.ask q next) [] q
  | later {q q' : Q} {r : R} {next : R → Talk Q R E A} {said : Said Q R} :
      Asks (next r) said q' → Asks (.ask q next) ((q,r)::said) q'

section

variable {said : Said Q R} {q : Q}

theorem follows_done_ok {a a' : A} :
    Follows (.done a : Talk Q R E A) said (.ok a') ↔ said = [] ∧ a' = a := by
  constructor
  · rintro ⟨⟩
    exact ⟨rfl,rfl⟩
  · rintro ⟨rfl,rfl⟩
    exact .done a'

theorem not_follows_stop_ok {e : E} {a : A} : ¬ Follows (.stop e : Talk Q R E A) said (.ok a) := by
  rintro ⟨⟩

theorem follows_ask {next : R → Talk Q R E A} {x : Except E A} :
    Follows (.ask q next) said x ↔ ∃ r rest, said = (q,r)::rest ∧ Follows (next r) rest x := by
  constructor
  · rintro ⟨⟩
    rename_i r rest h
    exact ⟨r,rest,rfl,h⟩
  · rintro ⟨r,rest,rfl,h⟩
    exact .ask h

/-- A sequence returns by way of what its first part returns. -/
theorem follows_bind_ok {t : Talk Q R E A} {f : A → Talk Q R E B} {b : B} :
    Follows (t >>= f) said (.ok b) ↔
      ∃ before after a, said = before ++ after ∧ Follows t before (.ok a) ∧ Follows (f a) after (.ok b) := by
  constructor
  · intro h
    induction t generalizing said with
    | done a => exact ⟨[],said,a,rfl,.done a,h⟩
    | stop e => exact absurd h not_follows_stop_ok
    | ask q next ih =>
      rw [Talk.ask_bind,follows_ask] at h
      obtain ⟨r,rest,rfl,h⟩ := h
      obtain ⟨before,after,a,rfl,ht,hf⟩ := ih r h
      exact ⟨(q,r)::before,after,a,rfl,.ask ht,hf⟩
  · rintro ⟨before,after,a,rfl,ht,hf⟩
    exact ht.bind hf

theorem follows_ofExcept_bind_ok {c : Except E A} {f : A → Talk Q R E B} {b : B} :
    Follows (Talk.ofExcept c >>= f) said (.ok b) ↔ ∃ a, c = .ok a ∧ Follows (f a) said (.ok b) := by
  cases c with
  | ok a => simp
  | error e => simp [not_follows_stop_ok]

theorem follows_ofExcept_ok {c : Except E A} {a : A} :
    Follows (Talk.ofExcept c : Talk Q R E A) said (.ok a) ↔ said = [] ∧ c = .ok a := by
  cases c with
  | ok a' => simp [follows_done_ok,eq_comm]
  | error e => simp [not_follows_stop_ok]

theorem not_asks_done {a : A} : ¬ Asks (.done a : Talk Q R E A) said q := by
  rintro ⟨⟩

theorem not_asks_stop {e : E} : ¬ Asks (.stop e : Talk Q R E A) said q := by
  rintro ⟨⟩

theorem not_asks_ofExcept {c : Except E A} : ¬ Asks (Talk.ofExcept c : Talk Q R E A) said q := by
  cases c with
  | ok a => exact not_asks_done
  | error e => exact not_asks_stop

theorem asks_ask {next : R → Talk Q R E A} {q' : Q} :
    Asks (.ask q next) said q' ↔
      (said = [] ∧ q' = q) ∨ ∃ r rest, said = (q,r)::rest ∧ Asks (next r) rest q' := by
  constructor
  · rintro (⟨⟩ | h)
    · exact .inl ⟨rfl,rfl⟩
    · exact .inr ⟨_,_,rfl,h⟩
  · rintro (⟨rfl,rfl⟩ | ⟨r,rest,rfl,h⟩)
    · exact .here q' next
    · exact .later h

/-- A question of a sequence is one of its first part, or comes after that has returned. -/
theorem asks_bind {t : Talk Q R E A} {f : A → Talk Q R E B} :
    Asks (t >>= f) said q ↔ Asks t said q ∨
      ∃ before after a, said = before ++ after ∧ Follows t before (.ok a) ∧ Asks (f a) after q := by
  induction t generalizing said with
  | done a => simp [not_asks_done,follows_done_ok]
  | stop e => simp [not_asks_stop,not_follows_stop_ok]
  | ask q' next ih =>
    rw [Talk.ask_bind,asks_ask,asks_ask]
    simp only [ih,follows_ask]
    constructor
    · rintro (h | ⟨r,rest,rfl,h | ⟨before,after,a,rfl,ht,hf⟩⟩)
      · exact .inl (.inl h)
      · exact .inl (.inr ⟨r,rest,rfl,h⟩)
      · exact .inr ⟨(q',r)::before,after,a,rfl,⟨r,before,rfl,ht⟩,hf⟩
    · rintro ((h | ⟨r,rest,rfl,h⟩) | ⟨before,after,a,rfl,⟨r,rest,rfl,ht⟩,hf⟩)
      · exact .inl h
      · exact .inr ⟨r,rest,rfl,.inl h⟩
      · exact .inr ⟨r,rest ++ after,rfl,.inr ⟨rest,after,a,rfl,ht,hf⟩⟩

theorem asks_ofExcept_bind {c : Except E A} {f : A → Talk Q R E B} :
    Asks (Talk.ofExcept c >>= f) said q ↔ ∃ a, c = .ok a ∧ Asks (f a) said q := by
  cases c with
  | ok a => simp
  | error e => simp [not_asks_stop]

/-- Whoever answers, the questions of a run are the ones the program asks. -/
theorem converse_asks (t : Talk Q R E A) (party : Party Q R) : Orderly (Asks t) (converse party [] t).1 := by
  have hmeets (past : Said Q R) (t' : Talk Q R E A) (h : ∀ said q, Asks t' said q → Asks t (past ++ said) q) :
      Meets (Asks t) (fun _ _ => True) past t' := by
    induction t' generalizing past with
    | done a => exact trivial
    | stop e => exact trivial
    | ask q next ih =>
      refine ⟨by simpa using h [] q (.here q next),fun r => ih r _ fun said q' hq => ?_⟩
      simpa using h ((q,r)::said) q' (.later hq)
  exact ((hmeets [] t fun _ _ h => h).converse orderly_nil party).1

/-- The runs of a program against a party are the records it follows to the end and the
party answers. -/
theorem converse_eq_iff {party : Party Q R} {t : Talk Q R E A} {x : Except E A} :
    converse party [] t = (said,x) ↔ Answered party [] said ∧ Follows t said x := by
  constructor
  · intro h
    obtain ⟨said',hsaid,hanswered,hfollows⟩ := converse_follows party [] t
    rw [h] at hsaid hfollows
    obtain rfl : said = said' := hsaid
    exact ⟨hanswered,hfollows⟩
  · rintro ⟨hanswered,hfollows⟩
    exact hfollows.converse hanswered

end

end Dialogue

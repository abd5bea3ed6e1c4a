import SorobanMlDsa.Host

/-!
# A host that meets the laws

It reads the log anew each time: deadlines and nonces off the entries in it, and the nodes
that are still to be granted off their trees.
-/

namespace SorobanMlDsa

open ByteSlice PolicyLog

variable {L : XdrLeaves} {Form Other : Type} (W : Network L) [DecidableEq L.ScAddress] [DecidableEq L.ScSymbol]

namespace PlainHost

/-- The nodes by which the `i`-th event answers for a call. -/
def nodesAt (a : L.ScAddress) (i : ℕ) : Event L Form Other → List Grant
  | .authenticate e =>
    if e.credentials.address = a then (e.rootInvocation.nodes.filter fun n => W.names a n.2).map fun n => ⟨i,n.1⟩
    else []
  | _ => []

def nodes (a : L.ScAddress) (log : List (Event L Form Other)) : List Grant :=
  (List.range log.length).reverse.flatMap fun i => log[i]?.elim [] (nodesAt W a i)

/-- The nodes granted in a log, which is given last event first. -/
def taken : List (Event L Form Other) → List Grant
  | [] => []
  | .protectedCall a::past => ((nodes W a past.reverse).find? (· ∉ taken past)).toList ++ taken past
  | _::past => taken past

def grants (log : List (Event L Form Other)) (a : L.ScAddress) : Option Grant :=
  (nodes W a log).find? (· ∉ taken W log.reverse)

def admits (genesis maxTtl : ℕ) (log : List (Event L Form Other)) (e : AddressEntry L Form) : Bool :=
  let now := genesis + log.countP Event.closes
  let expiry := e.credentials.signatureExpirationLedger.toNat
  now ≤ expiry && expiry < now + maxTtl && log.all fun
    | .authenticate e' =>
      !(e'.credentials.address = e.credentials.address && e'.credentials.nonce = e.credentials.nonce) ||
        e'.credentials.signatureExpirationLedger.toNat < now
    | _ => true

/-- A host that knows the `Address` arm only, remembers every entry, and grants whatever the
laws let it grant. -/
def host (genesis maxTtl : ℕ) : Host W Empty Other where
  genesis := genesis
  formPreimage f := f.elim
  admits := admits genesis maxTtl
  grants := grants W

variable {W}

theorem mem_nodesAt {a : L.ScAddress} {i : ℕ} {event : Event L Form Other} {g : Grant} :
    g ∈ nodesAt W a i event ↔ g.entry = i ∧ ∃ e, event = .authenticate e ∧ e.credentials.address = a ∧
      (g.path,.contractFn ⟨a,W.functionName,[]⟩) ∈ e.rootInvocation.nodes := by
  cases event with
  | authenticate e =>
    constructor
    · intro h
      obtain ⟨ha,h⟩ := List.mem_ite_nil_right.mp h
      obtain ⟨⟨path,f⟩,hn,rfl⟩ := List.mem_map.mp h
      obtain ⟨hmem,hf⟩ := List.mem_filter.mp hn
      obtain rfl := Network.names_iff.mp hf
      exact ⟨rfl,e,rfl,ha,hmem⟩
    · rintro ⟨rfl,e',he,ha,hmem⟩
      obtain rfl := Event.authenticate.inj he
      rw [nodesAt,if_pos ha]
      exact List.mem_map.mpr ⟨_,List.mem_filter.mpr ⟨hmem,Network.names_iff.mpr rfl⟩,rfl⟩
  | close => simp [nodesAt]
  | init contract pubkey => simp [nodesAt]
  | protectedCall contract => simp [nodesAt]
  | other o => simp [nodesAt]

theorem mem_nodes {a : L.ScAddress} {log : List (Event L Form Other)} {g : Grant} : g ∈ nodes W a log ↔
    ∃ e, log[g.entry]? = some (.authenticate e) ∧ e.credentials.address = a ∧
      (g.path,.contractFn ⟨a,W.functionName,[]⟩) ∈ e.rootInvocation.nodes := by
  rw [nodes,List.mem_flatMap]
  constructor
  · rintro ⟨i,-,hi⟩
    cases hlog : log[i]? with
    | none => simp [hlog] at hi
    | some event =>
      rw [hlog,Option.elim_some] at hi
      obtain ⟨rfl,e,rfl,h⟩ := mem_nodesAt.mp hi
      exact ⟨e,hlog,h⟩
  · rintro ⟨e,he,h⟩
    refine ⟨g.entry,?_,?_⟩
    · simpa using (List.getElem?_eq_some_iff.mp he).1
    · rw [he,Option.elim_some]
      exact mem_nodesAt.mpr ⟨rfl,e,rfl,h⟩

theorem grants_eq_some {a : L.ScAddress} {log : List (Event L Form Other)} {g : Grant}
    (h : grants W log a = some g) : g ∈ nodes W a log ∧ g ∉ taken W log.reverse := by
  rw [grants] at h
  exact ⟨List.mem_of_find?_eq_some h,by simpa using List.find?_some h⟩

theorem taken_append {g : Grant} {past : List (Event L Form Other)} (h : g ∈ taken W past)
    (later : List (Event L Form Other)) : g ∈ taken W (later ++ past) := by
  induction later with
  | nil => exact h
  | cons i later ih =>
    rw [List.cons_append]
    cases i with
    | protectedCall a => exact List.mem_append_right _ ih
    | close => exact ih
    | init contract pubkey => exact ih
    | authenticate e => exact ih
    | other o => exact ih

theorem taken_mono {a : L.ScAddress} {before log : List (Event L Form Other)} {g : Grant}
    (hp : before ++ [.protectedCall a] <+: log) (h : grants W before a = some g) : g ∈ taken W log.reverse := by
  obtain ⟨rest,rfl⟩ := hp
  have hfirst : g ∈ taken W (.protectedCall a::before.reverse) := by
    rw [taken,List.reverse_reverse]
    exact List.mem_append_left _ (Option.mem_toList.mpr h)
  simpa using taken_append hfirst rest.reverse

theorem taken_lt {past : List (Event L Form Other)} {g : Grant} (h : g ∈ taken W past) : g.entry < past.length := by
  induction past with
  | nil => cases h
  | cons i past ih =>
    have hskip : g ∈ taken W past → g.entry < (i::past).length := fun h => Nat.lt_succ_of_lt (ih h)
    cases i with
    | protectedCall a =>
      rcases List.mem_append.mp h with hnew | hold
      · obtain ⟨e,he,-⟩ := mem_nodes.mp (List.mem_of_find?_eq_some (Option.mem_toList.mp hnew))
        have hlt := (List.getElem?_eq_some_iff.mp he).1
        rw [List.length_reverse] at hlt
        exact Nat.lt_succ_of_lt hlt
      · exact hskip hold
    | close => exact hskip h
    | init contract pubkey => exact hskip h
    | authenticate e => exact hskip h
    | other o => exact hskip h

theorem grants_root {log : List (Event L Form Other)} {e : AddressEntry L Form}
    {subs : List (SorobanAuthorizedInvocation L)}
    (hroot : e.rootInvocation = .node (.contractFn ⟨e.credentials.address,W.functionName,[]⟩) subs) :
    grants W (log ++ [.authenticate e]) e.credentials.address = some ⟨log.length,[]⟩ := by
  have hfresh : (⟨log.length,[]⟩ : Grant) ∉ taken W (log ++ [Event.authenticate e]).reverse := by
    intro h
    rw [List.reverse_append] at h
    have hold : (⟨log.length,[]⟩ : Grant) ∈ taken W log.reverse := h
    have hlt := taken_lt hold
    simp at hlt
  have hnames : W.names e.credentials.address (.contractFn ⟨e.credentials.address,W.functionName,[]⟩) = true :=
    Network.names_iff.mpr rfl
  have hhead : ∃ rest, nodes W e.credentials.address (log ++ [Event.authenticate e]) = ⟨log.length,[]⟩::rest := by
    rw [nodes,List.length_append,List.length_singleton,List.range_succ,List.reverse_append,List.reverse_singleton,
      List.singleton_append,List.flatMap_cons]
    simp only [List.getElem?_append_right (Nat.le_refl _),Nat.sub_self,List.getElem?_cons_zero,Option.elim_some,
      nodesAt,if_pos,hroot,SorobanAuthorizedInvocation.nodes,List.filter_cons,hnames]
    exact ⟨_,rfl⟩
  obtain ⟨rest,hrest⟩ := hhead
  rw [grants,hrest,List.find?_cons_of_pos (by simpa using hfresh)]

/-- The laws can be met. -/
theorem lawful (genesis maxTtl : ℕ) : (host W genesis maxTtl : Host W Empty Other).Lawful where
  apart f := f.elim
  inDate log _ e h := by
    simp only [host,admits,Bool.and_eq_true,decide_eq_true_eq] at h
    exact h.1.1
  nonce log _ e e' h hmem haddress hnonce := by
    simp only [host,admits,Bool.and_eq_true,List.all_eq_true] at h
    have hdead := h.2 _ hmem
    simp only [haddress,hnonce,decide_true,Bool.and_self,Bool.not_true,Bool.false_or,decide_eq_true_eq] at hdead
    exact hdead
  node log _ a g h := mem_nodes.mp (grants_eq_some h).1
  once log _ a g h before a' hp h' := (grants_eq_some h).2 (taken_mono hp h')
  root log _ e _ subs hroot := grants_root hroot

end PlainHost

end SorobanMlDsa

import SorobanMlDsa.Rpc
import SorobanMlDsa.Wire

/-!
# What a posted text says

Bytes go out as base64 inside JSON that the tools paste together. Base64 and hexadecimal have
no quotes, so a posted text determines the request, and a transaction in it down to its
signatures.
-/

namespace SorobanMlDsa.Cli

open ByteSlice MachineInt PrefixCode

namespace RawXdr

def base64Value (c : Char) : Option ℕ :=
  "ABCDEFGHIJKLMNOPQRSTUVWXYZabcdefghijklmnopqrstuvwxyz0123456789+/".toList.idxOf? c

/-- Base64 back to bytes, four characters at a time; padding only at the end. -/
def base64Decode : List Char → Option Bytes
  | [] => some []
  | a::b::c::d::rest => do
    let x ← base64Value a
    let y ← base64Value b
    let first := UInt8.ofNat (x * 4 + y / 16)
    if c = '=' then
      if d = '=' ∧ rest = [] then some [first] else none
    else
      let z ← base64Value c
      let second := UInt8.ofNat (y % 16 * 16 + z / 4)
      if d = '=' then
        if rest = [] then some [first,second] else none
      else
        let w ← base64Value d
        let bytes ← base64Decode rest
        some (first::second::UInt8.ofNat (z % 4 * 64 + w)::bytes)
  | _ => none

theorem base64Value_digit (n : Fin 64) : base64Value (base64Digit n) = some n.val := by
  revert n
  decide +kernel

theorem base64Digit_ne (n : Fin 64) : base64Digit n ≠ '=' := by
  revert n
  decide +kernel

theorem ofNat_of_toNat {n : ℕ} {a : UInt8} (h : n = a.toNat) : UInt8.ofNat n = a := by
  rw [h,UInt8.ofNat_toNat]

theorem base64Digit_read {n : ℕ} (h : n < 64) :
    base64Value (base64Digit n) = some n ∧ base64Digit n ≠ '=' :=
  ⟨base64Value_digit ⟨n,h⟩,base64Digit_ne ⟨n,h⟩⟩

theorem base64Decode_base64 (bytes : Bytes) : base64Decode (base64 bytes) = some bytes := by
  induction bytes using base64.induct with
  | case1 => rfl
  | case2 a =>
    have ha := a.toNat_lt
    obtain ⟨h1,-⟩ := base64Digit_read (n := a.toNat / 4) (by omega)
    obtain ⟨h2,-⟩ := base64Digit_read (n := a.toNat % 4 * 16) (by omega)
    have hfirst : UInt8.ofNat (a.toNat / 4 * 4 + a.toNat % 4 * 16 / 16) = a := ofNat_of_toNat (by omega)
    simp only [base64,base64Decode,h1,h2,hfirst,Option.bind_eq_bind,Option.bind_some,if_pos,and_self]
  | case3 a b =>
    have ha := a.toNat_lt
    have hb := b.toNat_lt
    obtain ⟨h1,-⟩ := base64Digit_read (n := a.toNat / 4) (by omega)
    obtain ⟨h2,-⟩ := base64Digit_read (n := a.toNat % 4 * 16 + b.toNat / 16) (by omega)
    obtain ⟨h3,hne⟩ := base64Digit_read (n := b.toNat % 16 * 4) (by omega)
    have hfirst : UInt8.ofNat (a.toNat / 4 * 4 + (a.toNat % 4 * 16 + b.toNat / 16) / 16) = a :=
      ofNat_of_toNat (by omega)
    have hsecond : UInt8.ofNat ((a.toNat % 4 * 16 + b.toNat / 16) % 16 * 16 + b.toNat % 16 * 4 / 4) = b :=
      ofNat_of_toNat (by omega)
    simp only [base64,base64Decode,h1,h2,h3,hfirst,hsecond,Option.bind_eq_bind,Option.bind_some,if_neg hne,if_pos]
  | case4 a b c rest ih =>
    have ha := a.toNat_lt
    have hb := b.toNat_lt
    have hc := c.toNat_lt
    obtain ⟨h1,-⟩ := base64Digit_read (n := a.toNat / 4) (by omega)
    obtain ⟨h2,-⟩ := base64Digit_read (n := a.toNat % 4 * 16 + b.toNat / 16) (by omega)
    obtain ⟨h3,hne3⟩ := base64Digit_read (n := b.toNat % 16 * 4 + c.toNat / 64) (by omega)
    obtain ⟨h4,hne4⟩ := base64Digit_read (n := c.toNat % 64) (by omega)
    have hfirst : UInt8.ofNat (a.toNat / 4 * 4 + (a.toNat % 4 * 16 + b.toNat / 16) / 16) = a :=
      ofNat_of_toNat (by omega)
    have hsecond : UInt8.ofNat ((a.toNat % 4 * 16 + b.toNat / 16) % 16 * 16 +
        (b.toNat % 16 * 4 + c.toNat / 64) / 4) = b := ofNat_of_toNat (by omega)
    have hthird : UInt8.ofNat ((b.toNat % 16 * 4 + c.toNat / 64) % 4 * 64 + c.toNat % 64) = c :=
      ofNat_of_toNat (by omega)
    simp only [base64,base64Decode,h1,h2,h3,h4,hfirst,hsecond,hthird,ih,Option.bind_eq_bind,Option.bind_some,
      if_neg hne3,if_neg hne4]

theorem base64_injective {bytes bytes' : Bytes} (h : base64 bytes = base64 bytes') : bytes = bytes' := by
  have hread := congrArg base64Decode h
  rw [base64Decode_base64,base64Decode_base64] at hread
  exact Option.some.inj hread

theorem quote_ne_base64Digit (n : ℕ) : '"' ≠ base64Digit n := by
  rcases Nat.lt_or_ge n 64 with h | h
  · have hdigits : ∀ k : Fin 64, '"' ≠ base64Digit k := by decide +kernel
    exact hdigits ⟨n,h⟩
  · rw [base64Digit,List.getD_eq_getElem?_getD,List.getElem?_eq_none h]
    decide

theorem quote_not_mem_base64 (bytes : Bytes) : '"' ∉ base64 bytes := by
  induction bytes using base64.induct with
  | case1 => simp [base64]
  | case2 a => simp [base64,quote_ne_base64Digit]
  | case3 a b => simp [base64,quote_ne_base64Digit]
  | case4 a b c rest ih => simp [base64,quote_ne_base64Digit,ih]

end RawXdr

namespace Request

/-- No field has a quote in it. -/
def Plain : Request → Prop
  | .getLedgerEntries key format => '"' ∉ key.toList ∧ ∀ f, format = some f → '"' ∉ f.toList
  | .simulateTransaction t mode => '"' ∉ t.toList ∧ ∀ m, mode = some m → '"' ∉ m.toList
  | .sendTransaction t => '"' ∉ t.toList
  | .getTransaction hash => '"' ∉ hash.toList

/-- What stands between a fixed text and the next quote is read back, and the rest too. -/
theorem quoted_inj {start s s' r r' : String} (hs : '"' ∉ s.toList) (hs' : '"' ∉ s'.toList)
    (h : start ++ s ++ ("\"" ++ r) = start ++ s' ++ ("\"" ++ r')) : s = s' ∧ r = r' := by
  have hchars := congrArg String.toList h
  have hquote : "\"".toList = ['"'] := by decide
  simp only [String.toList_append,List.append_assoc,hquote] at hchars
  have hrest := List.append_cancel_left hchars
  have hread := terminated_selfDelimiting '"' s.toList s'.toList (s.toList ++ ['"']) (s'.toList ++ ['"'])
    r.toList r'.toList (terminated_eq_some.mpr ⟨hs,rfl⟩) (terminated_eq_some.mpr ⟨hs',rfl⟩)
    (by simpa only [List.append_assoc] using hrest)
  exact ⟨String.toList_inj.mp hread.1.symm,String.toList_inj.mp hread.2.symm⟩

theorem append_left_cancel {s r r' : String} (h : s ++ r = s ++ r') : r = r' := by
  have hchars := congrArg String.toList h
  rw [String.toList_append,String.toList_append] at hchars
  exact String.toList_inj.mp (List.append_cancel_left hchars)

theorem append_right_cancel {s s' r : String} (h : s ++ r = s' ++ r) : s = s' := by
  have hchars := congrArg String.toList h
  rw [String.toList_append,String.toList_append] at hchars
  exact String.toList_inj.mp (List.append_cancel_right hchars)

/-- Texts that start with different words of one length differ. -/
theorem append_ne {s s' r r' : String} (hlen : s.toList.length = s'.toList.length) (hne : s ≠ s') :
    s ++ r ≠ s' ++ r' := by
  intro h
  have hchars := congrArg String.toList h
  rw [String.toList_append,String.toList_append] at hchars
  exact hne (String.toList_inj.mp (List.append_inj hchars hlen).1)

theorem quote_not_mem_method (q : Request) : '"' ∉ q.method.toList := by
  cases q with
  | getLedgerEntries key format => exact (by decide +kernel : '"' ∉ "getLedgerEntries".toList)
  | simulateTransaction t mode => exact (by decide +kernel : '"' ∉ "simulateTransaction".toList)
  | sendTransaction t => exact (by decide +kernel : '"' ∉ "sendTransaction".toList)
  | getTransaction hash => exact (by decide +kernel : '"' ∉ "getTransaction".toList)

theorem body_split {q q' : Request} (h : q.body = q'.body) : q.method = q'.method ∧ q.params = q'.params := by
  have hsep : "\",\"params\":" = "\"" ++ ",\"params\":" := by decide +kernel
  unfold body at h
  rw [hsep] at h
  simp only [String.append_assoc] at h
  have hassoc (start s r r' r'' : String) : start ++ (s ++ ("\"" ++ (r ++ (r' ++ r'')))) =
      start ++ s ++ ("\"" ++ (r ++ (r' ++ r''))) := by simp only [String.append_assoc]
  rw [hassoc,hassoc] at h
  obtain ⟨hmethod,hrest⟩ := quoted_inj q.quote_not_mem_method q'.quote_not_mem_method h
  exact ⟨hmethod,append_right_cancel (append_left_cancel hrest)⟩

/-- A quoted field, and possibly another one after it. -/
def pasted (start close sep label s : String) : Option String → String
  | none => start ++ s ++ ("\"" ++ (close ++ ""))
  | some f => start ++ s ++ ("\"" ++ (sep ++ (label ++ f ++ ("\"" ++ "\x7d"))))

theorem pasted_inj {start close sep label s s' : String} {o o' : Option String}
    (hlen : close.toList.length = sep.toList.length) (hne : close ≠ sep)
    (hs : '"' ∉ s.toList) (hs' : '"' ∉ s'.toList) (ho : ∀ f, o = some f → '"' ∉ f.toList)
    (ho' : ∀ f, o' = some f → '"' ∉ f.toList)
    (h : pasted start close sep label s o = pasted start close sep label s' o') : s = s' ∧ o = o' := by
  cases o with
  | none =>
    cases o' with
    | none => exact ⟨(quoted_inj hs hs' h).1,rfl⟩
    | some f' => exact absurd (quoted_inj hs hs' h).2 (append_ne hlen hne)
  | some f =>
    cases o' with
    | none => exact absurd (quoted_inj hs hs' h).2 (append_ne hlen.symm hne.symm)
    | some f' =>
      obtain ⟨rfl,hrest⟩ := quoted_inj hs hs' h
      obtain ⟨rfl,-⟩ := quoted_inj (ho f rfl) (ho' f' rfl) (append_left_cancel hrest)
      exact ⟨rfl,rfl⟩

theorem params_getLedgerEntries (key : String) (format : Option String) :
    (Request.getLedgerEntries key format).params =
      pasted "\x7b\"keys\":[\"" "]\x7d" "]," "\"xdrFormat\":\"" key format := by
  have hclose : "\"]\x7d" = "\"" ++ ("]\x7d" ++ "") := by decide +kernel
  have hsep : "\"],\"xdrFormat\":\"" = "\"" ++ ("]," ++ "\"xdrFormat\":\"") := by decide +kernel
  have hend : "\"\x7d" = "\"" ++ "\x7d" := by decide +kernel
  unfold params pasted
  cases format with
  | none => simp only [hclose,String.append_assoc]
  | some f => simp only [hsep,hend,String.append_assoc]

theorem params_simulateTransaction (t : String) (mode : Option String) :
    (Request.simulateTransaction t mode).params =
      pasted "\x7b\"transaction\":\"" "\x7d" "," "\"authMode\":\"" t mode := by
  have hclose : "\"\x7d" = "\"" ++ ("\x7d" ++ "") := by decide +kernel
  have hsep : "\",\"authMode\":\"" = "\"" ++ ("," ++ "\"authMode\":\"") := by decide +kernel
  have hend : "\"\x7d" = "\"" ++ "\x7d" := by decide +kernel
  unfold params pasted
  cases mode with
  | none => simp only [hclose,String.append_assoc]
  | some m => simp only [hsep,hend,String.append_assoc]

/-- Of requests without quotes in their fields, the text that is posted determines which
one it is. -/
theorem body_injective {q q' : Request} (hq : q.Plain) (hq' : q'.Plain) (h : q.body = q'.body) : q = q' := by
  obtain ⟨hmethod,hparams⟩ := body_split h
  cases q <;> cases q'
  case getLedgerEntries.getLedgerEntries key format key' format' =>
    rw [params_getLedgerEntries,params_getLedgerEntries] at hparams
    obtain ⟨rfl,rfl⟩ := pasted_inj (by decide) (by decide) hq.1 hq'.1 hq.2 hq'.2 hparams
    rfl
  case simulateTransaction.simulateTransaction t mode t' mode' =>
    rw [params_simulateTransaction,params_simulateTransaction] at hparams
    obtain ⟨rfl,rfl⟩ := pasted_inj (by decide) (by decide) hq.1 hq'.1 hq.2 hq'.2 hparams
    rfl
  case sendTransaction.sendTransaction t t' => rw [append_left_cancel (append_right_cancel hparams)]
  case getTransaction.getTransaction hash hash' => rw [append_left_cancel (append_right_cancel hparams)]
  all_goals simp [method] at hmethod

/-- The requests that carry the transaction text `t`, as the tools make them. -/
def Carries (t : String) : Request → Prop
  | .simulateTransaction u mode => u = t ∧ (mode = none ∨ mode = some "enforce")
  | .sendTransaction u => u = t
  | _ => False

theorem Carries.plain {t : String} {q : Request} (h : q.Carries t) (ht : '"' ∉ t.toList) : q.Plain := by
  have henforce : '"' ∉ "enforce".toList := by decide +kernel
  cases q with
  | getLedgerEntries key format => exact h.elim
  | simulateTransaction u mode =>
    obtain ⟨rfl,hmode⟩ := h
    refine ⟨ht,?_⟩
    rintro m rfl
    rcases hmode with hmode | hmode
    · cases hmode
    · rw [Option.some.inj hmode]
      exact henforce
  | sendTransaction u =>
    obtain rfl := h
    exact ht
  | getTransaction hash => exact h.elim

theorem Carries.unique {t t' : String} {q : Request} (h : q.Carries t) (h' : q.Carries t') : t = t' := by
  cases q with
  | getLedgerEntries key format => exact h.elim
  | simulateTransaction u mode => exact h.1.symm.trans h'.1
  | sendTransaction u => exact h.symm.trans h'
  | getTransaction hash => exact h.elim

end Request

section Transactions

variable {L : XdrLeaves} {F : LedgerKeys} {read : String → Except String (SorobanTransactionData F)}

theorem envelopeText_plain {env : Envelope (Operation L) (SorobanTransactionData F)} {t : String}
    (h : (wireXdr L F read).envelopeToXdrBase64 env = some t) : '"' ∉ t.toList := by
  obtain ⟨b,-,rfl⟩ := Option.map_eq_some_iff.mp h
  rw [String.toList_ofList]
  exact RawXdr.quote_not_mem_base64 b

/-- One text, one envelope: its transaction, its operations and its signatures. -/
theorem envelopeText_inj (hL : L.Unambiguous) (hF : F.Unambiguous)
    {env env' : Envelope (Operation L) (SorobanTransactionData F)} {t : String}
    (h : (wireXdr L F read).envelopeToXdrBase64 env = some t)
    (h' : (wireXdr L F read).envelopeToXdrBase64 env' = some t) : env = env' := by
  obtain ⟨b,hb,rfl⟩ := Option.map_eq_some_iff.mp h
  obtain ⟨b',hb',htext⟩ := Option.map_eq_some_iff.mp h'
  have hbytes : b' = b := RawXdr.base64_injective (String.ofList_injective htext)
  rw [hbytes] at hb'
  exact envelopeToXdr_inj hL hF hb hb'

/-- What is posted with a transaction says which request it is and which envelope it
carries, down to the signatures. -/
theorem posted_transaction_binds (L : XdrLeaves) (hL : L.Unambiguous) (F : LedgerKeys) (hF : F.Unambiguous)
    (read : String → Except String (SorobanTransactionData F))
    (env env' : Envelope (Operation L) (SorobanTransactionData F)) (t t' : String)
    (ht : (wireXdr L F read).envelopeToXdrBase64 env = some t)
    (ht' : (wireXdr L F read).envelopeToXdrBase64 env' = some t') (q q' : Request) (hq : q.Carries t)
    (hq' : q'.Carries t') (h : q.body = q'.body) : q = q' ∧ env = env' := by
  have hsame : q = q' :=
    Request.body_injective (hq.plain (envelopeText_plain ht)) (hq'.plain (envelopeText_plain ht')) h
  refine ⟨hsame,?_⟩
  rw [← hsame] at hq'
  rw [← hq.unique hq'] at ht'
  exact envelopeText_inj hL hF ht ht'

def bareEnvelope (seq : Int64) : Envelope (Operation contractLeaves) (SorobanTransactionData codeKeys) :=
  ⟨⟨Arr.zero 32,1000000,seq,[],none⟩,[]⟩

/-- The next sequence number is another posted text. -/
theorem posted_transaction_binds_bare : ∃ (read : String → Except String (SorobanTransactionData codeKeys))
    (t t' : String), (wireXdr contractLeaves codeKeys read).envelopeToXdrBase64 (bareEnvelope 1) = some t ∧
      (wireXdr contractLeaves codeKeys read).envelopeToXdrBase64 (bareEnvelope 2) = some t' ∧
      (Request.simulateTransaction t none).body ≠ (Request.simulateTransaction t' none).body := by
  let read : String → Except String (SorobanTransactionData codeKeys) := fun _ => .error ""
  have hsome (seq : Int64) (hseq : seq = 1 ∨ seq = 2) :
      ((wireXdr contractLeaves codeKeys read).envelopeToXdrBase64 (bareEnvelope seq)).isSome := by
    rcases hseq with rfl | rfl <;> rfl
  obtain ⟨t,ht⟩ := Option.isSome_iff_exists.mp (hsome 1 (.inl rfl))
  obtain ⟨t',ht'⟩ := Option.isSome_iff_exists.mp (hsome 2 (.inr rfl))
  refine ⟨read,t,t',ht,ht',?_⟩
  intro h
  have hbinds := posted_transaction_binds contractLeaves contractLeaves_unambiguous codeKeys
    codeKeys_unambiguous read (bareEnvelope 1) (bareEnvelope 2) t t' ht ht' (.simulateTransaction t none)
    (.simulateTransaction t' none) ⟨rfl,.inl rfl⟩ ⟨rfl,.inl rfl⟩ h
  have hseq : (bareEnvelope 1).tx.seqNum = (bareEnvelope 2).tx.seqNum := by rw [hbinds.2]
  exact absurd hseq (by decide)

/-- What `submit` hashes for a simulated transaction. -/
def sealedPayload (b : Build) (n : Arr 32) (tx : SorobanTransaction L F) (sim : SimResult (wireXdr L F read)) :
    Option Bytes :=
  (Rpc.withResources b tx sim).toOption.bind (payloadToXdr n)

theorem seals_unique (hL : L.Unambiguous) (hF : F.Unambiguous) {b : Build} {K : Ed25519}
    {sha256 : Bytes → Arr 32} {seed n : Arr 32} {tx tx' : SorobanTransaction L F}
    {sim sim' : SimResult (wireXdr L F read)} {t t' : String} {hash : Arr 32}
    (hsha : ∀ p p', sealedPayload b n tx sim = some p → sealedPayload b n tx' sim' = some p' →
      sha256 p = sha256 p' → p = p')
    (h : Rpc.Seals b K sha256 seed n tx sim t hash) (h' : Rpc.Seals b K sha256 seed n tx' sim' t' hash) :
    t = t' := by
  obtain ⟨final,payload,hfinal,hpayload,hhash,ht⟩ := h
  obtain ⟨final',payload',hfinal',hpayload',hhash',ht'⟩ := h'
  have hp : sealedPayload b n tx sim = some payload := by
    rw [sealedPayload,toOption_eq_some.mpr hfinal]
    exact hpayload
  have hp' : sealedPayload b n tx' sim' = some payload' := by
    rw [sealedPayload,toOption_eq_some.mpr hfinal']
    exact hpayload'
  obtain rfl := hsha payload payload' hp hp' (hhash.trans hhash'.symm)
  obtain ⟨-,rfl⟩ := payloadToXdr_inj hL hF hpayload hpayload'
  exact Option.some.inj (ht.symm.trans ht')

theorem networkIds_apart : ∀ passphrase ∈ [testnetPassphrase,mainnetPassphrase],
    ¬ bigEndian 4 9 <+: (networkId Sha256.digest passphrase).val := by
  decide +kernel

/-- What the source signs stands for one network and one transaction, is never what an
account signs, and its hash stands for the text that is sent. -/
theorem submission_binds (L : XdrLeaves) (hL : L.Unambiguous) (F : LedgerKeys) (hF : F.Unambiguous)
    (read : String → Except String (SorobanTransactionData F)) :
    (∀ (n n' : Arr 32) (tx tx' : SorobanTransaction L F) bytes, payloadToXdr n tx = some bytes →
      payloadToXdr n' tx' = some bytes → n = n' ∧ tx = tx') ∧
    (∀ passphrase ∈ [testnetPassphrase,mainnetPassphrase], ∀ (tx : SorobanTransaction L F)
      (p : AuthorizationPayload L) bytes, payloadToXdr (networkId Sha256.digest passphrase) tx = some bytes →
      p.preimage ≠ some bytes) ∧
    ∀ (b : Build) (K : Ed25519) (sha256 : Bytes → Arr 32) (seed n : Arr 32) (tx tx' : SorobanTransaction L F)
      (sim sim' : SimResult (wireXdr L F read)) (t t' : String) (hash : Arr 32),
      (∀ p p', sealedPayload b n tx sim = some p → sealedPayload b n tx' sim' = some p' →
        sha256 p = sha256 p' → p = p') →
      Rpc.Seals b K sha256 seed n tx sim t hash → Rpc.Seals b K sha256 seed n tx' sim' t' hash → t = t' := by
  refine ⟨?_,?_,?_⟩
  · intro n n' tx tx' bytes h h'
    exact payloadToXdr_inj hL hF h h'
  · intro passphrase hmem tx p bytes h h'
    exact payloadToXdr_ne_preimage (networkIds_apart passphrase hmem) h h' rfl
  · intro b K sha256 seed n tx tx' sim sim' t t' hash hsha h h'
    exact seals_unique hL hF hsha h h'

/-- A transaction on mainnet is not the payload vector. -/
theorem submission_binds_bare : ∃ bytes,
    payloadToXdr (networkId Sha256.digest mainnetPassphrase) (bareEnvelope 1).tx = some bytes ∧
      (vectorPayload 1).preimage ≠ some bytes := by
  have hsome : (payloadToXdr (networkId Sha256.digest mainnetPassphrase) (bareEnvelope 1).tx).isSome := rfl
  obtain ⟨bytes,hbytes⟩ := Option.isSome_iff_exists.mp hsome
  have hbinds := submission_binds contractLeaves contractLeaves_unambiguous codeKeys codeKeys_unambiguous
    fun _ => .error ""
  exact ⟨bytes,hbytes,hbinds.2.1 mainnetPassphrase (by decide) _ _ bytes hbytes⟩

end Transactions
end SorobanMlDsa.Cli

import SorobanMlDsa.Authorize
import SorobanMlDsa.Executions
import SorobanMlDsa.Preflight

/-!
# The tool's entry on a ledger

What `authorize` builds, met by a host and the contract: under the key that the tool stores,
the account never refuses its entry, and the payload is executed once at most.
-/

namespace SorobanMlDsa

open ByteSlice PolicyLog Cli

variable {L : XdrLeaves} {Form Other : Type}

/-- The network a setting signs for, running the crate it signs with. -/
def Authorize.Setting.network (E : Authorize.Setting L) : Network L := ⟨E.crate,E.sha256,E.net,E.functionName⟩

namespace Authorize

variable {E : Setting L} {kp : Keypair E.crate} {latest : UInt32} {a : Authorized L}

theorem payload_fields {p : AuthorizationPayload L} (h : E.payload latest = .ok p) :
    p.networkId = E.net ∧ p.invocation = .node (.contractFn ⟨E.account,E.functionName,[]⟩) [] := by
  obtain ⟨scaled,-,h⟩ := bind_eq_ok.mp h
  obtain ⟨nonce,-,h⟩ := bind_eq_ok.mp h
  obtain ⟨expiry,-,h⟩ := bind_eq_ok.mp h
  rw [← Except.ok.inj h]
  exact ⟨rfl,rfl⟩

def entryWith (E : Setting L) (p : AuthorizationPayload L) (sig : ScBytes) : SorobanAuthorizationEntry L :=
  ⟨.address ⟨E.account,p.nonce,p.signatureExpirationLedger,.bytes sig⟩,p.invocation⟩

/-- Once payload and hash are there the tool does not fail, and signs the hash. -/
theorem authorization_builds (hS : E.crate.SizesMatch mldsa65) (hC : E.crate.SigningCorrect)
    (hV : E.crate.KeepsVerification) (kp : Keypair E.crate) {p : AuthorizationPayload L} {hash : Arr 32}
    (hp : E.payload latest = .ok p) (hhash : p.signaturePayload E.sha256 = .ok hash) :
    ∃ sig : ScBytes, sig.val.length = mldsa65.sigLen ∧
      kp.verifyingKey.verify mldsa65 hash.val context sig.val = .ok () ∧
      authorization E kp latest = .ok ⟨p,hash,entryWith E p sig⟩ := by
  have hcontext : context.length ≤ maxContextLen := by decide
  obtain ⟨out,hs,-,haccept⟩ := signInto_succeeds hS hC hV kp hash.val hcontext (Arr.zero mldsa65.sigLen)
    (Nat.le_refl _)
  have hlen : (out.val.take mldsa65.sigLen).length = mldsa65.sigLen := by
    rw [List.length_take,out.property,Nat.min_self]
  have hfits : (out.val.take mldsa65.sigLen).length ≤ u32Max := by
    rw [hlen]
    decide
  have hbuilt : buildAuthEntry (scheme mldsa65 E.crate) E.sha256 E.account kp.signingKey p context =
      .ok (.ok (entryWith E p ⟨_,hfits⟩)) := by
    rw [buildAuthEntry_of_signed (S := scheme mldsa65 E.crate) hhash hs,bytesToScval_ok hfits]
    rfl
  have hpayload : arithmetic (E.payload latest) = .ok p := arithmetic_eq_ok.mpr hp
  have hsigned : unwrap (p.signaturePayload E.sha256).toOption = .ok hash :=
    unwrap_eq_ok.mpr (toOption_eq_some.mpr hhash)
  refine ⟨⟨_,hfits⟩,hlen,haccept.stored,?_⟩
  simp only [authorization,hpayload,hsigned,hbuilt,ok_bind]
  rfl

theorem authorization_carries (hS : E.crate.SizesMatch mldsa65) (hC : E.crate.SigningCorrect)
    (hV : E.crate.KeepsVerification) (h : authorization E kp latest = .ok a) :
    ∃ sig : ScBytes, sig.val.length = mldsa65.sigLen ∧
      kp.verifyingKey.verify mldsa65 a.signaturePayload.val context sig.val = .ok () ∧
      a.entry = entryWith E a.payload sig := by
  obtain ⟨hp,hhash,-⟩ := authorization_ok h
  obtain ⟨sig,hlen,hverify,hbuilds⟩ := authorization_builds hS hC hV kp hp hhash
  refine ⟨sig,hlen,hverify,?_⟩
  rw [Except.ok.inj (h.symm.trans hbuilds)]

theorem payload_eq_of_latest {kp' : Keypair E.crate} {a' : Authorized L} (h : authorization E kp latest = .ok a)
    (h' : authorization E kp' latest = .ok a') : a'.payload = a.payload :=
  Except.ok.inj ((authorization_ok h').1.symm.trans (authorization_ok h).1)

theorem payload_expiry_le {p : AuthorizationPayload L} (h : E.payload latest = .ok p) :
    p.signatureExpirationLedger.toNat ≤ latest.toNat + 1000 := by
  rcases Nat.lt_or_ge 4294966295 latest.toNat with hlate | hle
  · have hlt := p.signatureExpirationLedger.toNat_lt
    omega
  · obtain ⟨p',hp',-,hexpiry⟩ := (payload_exact_iff (E := E) latest).mpr hle
    obtain rfl := Except.ok.inj (h.symm.trans hp')
    exact Nat.le_of_eq hexpiry

end Authorize

namespace Host

open Authorize

variable [DecidableEq L.ScAddress] {E : Setting L} {kp : Keypair E.crate} {latest : UInt32} {a : Authorized L}

/-- The tool's entry `e`, made under the key `k` when the latest ledger was `latest`, after
what stands in the log: the account accepts it whenever the host admits it, which is in time
and never after an entry made in the same ledger; the call is then authorized by it; and its
payload is behind one execution at most, of all that ever happens. -/
structure ExecutesOnce (H : Host E.network Form Other) (a : Authorized L) (latest : UInt32) (k : Bytes)
    (log : List (Event L Form Other)) (e : AddressEntry L Form) : Prop where
  accepted : H.takesEffect log (.authenticate e) = H.admits log e
  inTime : H.admits log e = true → H.now log ≤ latest.toNat + 1000
  sameLedger : ∀ (kp' : Keypair E.crate) a' e', authorization E kp' latest = .ok a' →
    AddressEntry.of a'.entry = some e' → .authenticate e' ∈ log → H.admits log e = false
  executes : H.admits log e = true →
    H.spending (log ++ [.authenticate e]) (.protectedCall E.account) = some ⟨E.account,k,e,[]⟩ ∧
    ∃ env, H.returns (log ++ [.authenticate e]) E.account = .ok (42,env)
  once : e.payload E.network = a.payload ∧ ∀ is, (H.spendings (run H.takesEffect is)).Pairwise fun x y =>
    ¬ (x.entry.payload E.network = a.payload ∧ y.entry.payload E.network = a.payload)

variable {H : Host E.network Form Other} {log : List (Event L Form Other)} {e : AddressEntry L Form}

theorem accepted_iff_admits (h : H.answer log e = .ok (.ok ())) :
    H.takesEffect log (.authenticate e) = H.admits log e := by
  rw [Bool.eq_iff_iff,takesEffect_authenticate]
  exact ⟨fun h => h.1,fun hadmits => ⟨hadmits,h⟩⟩

section

variable (hS : E.crate.SizesMatch mldsa65) (hC : E.crate.SigningCorrect) (hV : E.crate.KeepsVerification)

include hS hC hV

omit [DecidableEq L.ScAddress] in
theorem of_authorized (h : authorization E kp latest = .ok a) (he : AddressEntry.of a.entry = some e) :
    ∃ sig : ScBytes, sig.val.length = mldsa65.sigLen ∧
      kp.verifyingKey.verify mldsa65 a.signaturePayload.val Authorize.context sig.val = .ok () ∧
      e = ⟨⟨E.account,a.payload.nonce,a.payload.signatureExpirationLedger,.bytes sig⟩,none,a.payload.invocation⟩ := by
  obtain ⟨sig,hlen,hverify,hentry⟩ := authorization_carries hS hC hV h
  rw [hentry] at he
  exact ⟨sig,hlen,hverify,(Option.some.inj he).symm⟩

omit [DecidableEq L.ScAddress] in
theorem payload_of_authorized (h : authorization E kp latest = .ok a) (he : AddressEntry.of a.entry = some e) :
    e.payload E.network = a.payload := by
  obtain ⟨sig,-,-,rfl⟩ := of_authorized hS hC hV h he
  obtain ⟨hnet,-⟩ := payload_fields (authorization_ok h).1
  have hsame : E.network.networkId = a.payload.networkId := hnet.symm
  rw [AddressEntry.payload,hsame]
  rfl

theorem answer_authorized (h : authorization E kp latest = .ok a) (he : AddressEntry.of a.entry = some e)
    (hkey : (E.network.account E.account log).pubKey = some (E.crate.encode kp.verifyingKey.inner).val) :
    H.answer log e = .ok (.ok ()) := by
  have hpayload := payload_of_authorized hS hC hV h he
  obtain ⟨b,hb,hhash⟩ := AuthorizationPayload.signaturePayload_eq_ok.mp (authorization_ok h).2.1
  obtain ⟨sig,hlen,hverify,rfl⟩ := of_authorized hS hC hV h he
  have hpreimage : H.preimage ⟨⟨E.account,a.payload.nonce,a.payload.signatureExpirationLedger,.bytes sig⟩,none,
      a.payload.invocation⟩ = some b := (congrArg AuthorizationPayload.preimage hpayload).trans hb
  have hcheck := PqAccount.checkAuth_encoded hS hV kp.verifyingKey hkey a.signaturePayload hlen
  have hcontext : kp.verifyingKey.verify mldsa65 a.signaturePayload.val PqAccount.context sig.val = .ok () := hverify
  have hnetwork : E.network.sha256 b = a.signaturePayload := hhash
  rw [answer,hpreimage]
  simp only [hnetwork]
  rw [hcontext] at hcheck
  exact hcheck

omit hS hC hV in
theorem path_of_single {x : Spending L Form} {before : List (Event L Form Other)} (hx : H.Backed before x)
    (h : authorization E kp latest = .ok a) (hpayload : x.entry.payload E.network = a.payload) : x.path = [] := by
  obtain ⟨-,hroot⟩ := payload_fields (authorization_ok h).1
  have hnamed := hx.named
  have htree : x.entry.rootInvocation = a.payload.invocation := congrArg AuthorizationPayload.invocation hpayload
  rw [htree,hroot,SorobanAuthorizedInvocation.nodes,SorobanAuthorizedInvocation.nodesFrom,
    List.mem_singleton] at hnamed
  exact (Prod.mk.inj hnamed).1

/-- An entry made from one ledger is admitted for the thousand that follow. -/
theorem now_le_of_admits (hH : H.Lawful) (hlog : Kept H.takesEffect log) (h : authorization E kp latest = .ok a)
    (he : AddressEntry.of a.entry = some e) (hadmits : H.admits log e = true) :
    H.now log ≤ latest.toNat + 1000 := by
  have hpayload := payload_of_authorized hS hC hV h he
  have hexpiry : e.credentials.signatureExpirationLedger = a.payload.signatureExpirationLedger :=
    congrArg AuthorizationPayload.signatureExpirationLedger hpayload
  have hdate := hH.inDate log hlog e hadmits
  rw [hexpiry] at hdate
  exact hdate.trans (payload_expiry_le (authorization_ok h).1)

/-- Two entries made from one ledger share nonce and expiry, so the first keeps the second out. -/
theorem admits_eq_false_of_latest (hH : H.Lawful) (hlog : Kept H.takesEffect log)
    (h : authorization E kp latest = .ok a) (he : AddressEntry.of a.entry = some e)
    {kp' : Keypair E.crate} {a' : Authorized L} {e' : AddressEntry L Form}
    (h' : authorization E kp' latest = .ok a') (he' : AddressEntry.of a'.entry = some e')
    (hmem : .authenticate e' ∈ log) : H.admits log e = false := by
  have hsame : e'.payload E.network = e.payload E.network := by
    rw [payload_of_authorized hS hC hV h' he',payload_of_authorized hS hC hV h he]
    exact payload_eq_of_latest h h'
  have hnonce : e'.credentials.nonce = e.credentials.nonce := congrArg AuthorizationPayload.nonce hsame
  have hexpiry : e'.credentials.signatureExpirationLedger = e.credentials.signatureExpirationLedger :=
    congrArg AuthorizationPayload.signatureExpirationLedger hsame
  have haddress : e'.credentials.address = e.credentials.address := by
    obtain ⟨sig,-,-,rfl⟩ := of_authorized hS hC hV h he
    obtain ⟨sig',-,-,rfl⟩ := of_authorized hS hC hV h' he'
    rfl
  apply Bool.eq_false_iff.mpr
  intro hadmits
  have hdead := hH.nonce log hlog e e' hadmits hmem haddress hnonce
  have halive := hH.inDate log hlog e hadmits
  rw [hexpiry] at hdead
  exact absurd halive (Nat.not_le.mpr hdead)

/-- The call right after the account has accepted the entry is authorized by its root. -/
theorem executes_of_takesEffect (hH : H.Lawful) (hlog : Kept H.takesEffect log)
    (h : authorization E kp latest = .ok a) (he : AddressEntry.of a.entry = some e) {k : Bytes}
    (hkey : (E.network.account E.account log).pubKey = some k)
    (heffect : H.takesEffect log (.authenticate e) = true) :
    H.spending (log ++ [.authenticate e]) (.protectedCall E.account) = some ⟨E.account,k,e,[]⟩ ∧
      ∃ env, H.returns (log ++ [.authenticate e]) E.account = .ok (42,env) := by
  obtain ⟨-,hroot⟩ := payload_fields (authorization_ok h).1
  obtain ⟨sig,-,-,rfl⟩ := of_authorized hS hC hV h he
  have hgrants := hH.root log hlog _ heffect [] hroot
  constructor
  · refine spending_eq_some.mpr ⟨_,rfl,hgrants,?_,?_,rfl⟩
    · rw [List.getElem?_append_right (Nat.le_refl _),Nat.sub_self]
      rfl
    · rw [List.take_left]
      exact hkey
  · exact ⟨_,returns_eq_ok.mpr ⟨⟨_,hgrants⟩,rfl⟩⟩

omit hC hV in
/-- The tool's tree has one node, so its payload is behind one execution at most. -/
theorem spendings_pairwise (hH : H.Lawful) (h : authorization E kp latest = .ok a) (is : List (Event L Form Other)) :
    (H.spendings (run H.takesEffect is)).Pairwise fun x y =>
      ¬ (x.entry.payload E.network = a.payload ∧ y.entry.payload E.network = a.payload) := by
  apply pairwise_recorded
  intro before i between j x y hp hx hy hboth
  have hkept := kept_run H.takesEffect is
  have hearlier : before ++ [i] <+: run H.takesEffect is := by
    refine List.IsPrefix.trans ?_ hp
    rw [List.append_assoc]
    exact List.prefix_append _ _
  have hpathx := path_of_single (backed_of_spending hH hkept hS hearlier hx) h hboth.1
  have hpathy := path_of_single (backed_of_spending hH hkept hS hp hy) h hboth.2
  apply spending_node_ne hH hkept hp hx hy
  rw [Spending.node,Spending.node,hpathx,hpathy,hboth.1,hboth.2]

theorem executesOnce (hH : H.Lawful) (hlog : Kept H.takesEffect log) (h : authorization E kp latest = .ok a)
    (he : AddressEntry.of a.entry = some e)
    (hkey : (E.network.account E.account log).pubKey = some (E.crate.encode kp.verifyingKey.inner).val) :
    H.ExecutesOnce a latest (E.crate.encode kp.verifyingKey.inner).val log e := by
  have haccepted := accepted_iff_admits (answer_authorized (H := H) hS hC hV h he hkey)
  constructor
  · exact haccepted
  · exact now_le_of_admits hS hC hV hH hlog h he
  · intro kp' a' e' h' he' hmem
    exact admits_eq_false_of_latest hS hC hV hH hlog h he h' he' hmem
  · intro hadmits
    exact executes_of_takesEffect hS hC hV hH hlog h he hkey (haccepted.trans hadmits)
  · exact ⟨payload_of_authorized hS hC hV h he,spendings_pairwise hS hH h⟩

omit hC hV in
/-- The key that the tool encodes and offers is the key its entries are accepted under. -/
theorem stored_of_lastOffered {key : ScBytes}
    (hkey : encodeVerifyingKey (scheme mldsa65 E.crate) kp.verifyingKey = .ok (.ok (.bytes key : ScVal L.OtherVal)))
    {is : List (Event L Form Other)} (hlast : (is.filterMap (Event.offered E.account)).getLast? = some key.val) :
    key.val = (E.crate.encode kp.verifyingKey.inner).val ∧
      (E.network.account E.account (run H.takesEffect is)).pubKey = some key.val := by
  obtain ⟨b,hb,hencoded⟩ := encodeVerifyingKey_ok (O := L.OtherVal) hS (by decide) kp.verifyingKey
  rw [hkey] at hencoded
  obtain rfl : key = b := ScVal.bytes.inj (Except.ok.inj (Except.ok.inj hencoded))
  refine ⟨hb,?_⟩
  rw [Network.account_pubKey (W := E.network) hS,filterMap_offered_run (W := E.network) hS,hlast]

theorem executesOnce_of_lastOffered (h : authorization E kp latest = .ok a) (hH : H.Lawful) {key : ScBytes}
    (hkey : encodeVerifyingKey (scheme mldsa65 E.crate) kp.verifyingKey = .ok (.ok (.bytes key : ScVal L.OtherVal)))
    {is : List (Event L Form Other)} (hlast : (is.filterMap (Event.offered E.account)).getLast? = some key.val) :
    ∃ e, AddressEntry.of a.entry = some e ∧ H.ExecutesOnce a latest key.val (run H.takesEffect is) e := by
  obtain ⟨sig,-,-,hentry⟩ := authorization_carries hS hC hV h
  obtain ⟨hval,hstored⟩ := stored_of_lastOffered (H := H) hS hkey hlast
  let e : AddressEntry L Form := ⟨⟨E.account,a.payload.nonce,a.payload.signatureExpirationLedger,.bytes sig⟩,none,
    a.payload.invocation⟩
  have he : AddressEntry.of a.entry = some e := by
    rw [hentry]
    rfl
  rw [hval] at hstored ⊢
  exact ⟨e,he,executesOnce hS hC hV hH (kept_run H.takesEffect is) h he hstored⟩

end

/-- Whatever was attempted before, if the key offered last to the account is the one the tool
encodes, the tool's entry is executed when the host admits it, once and in time. -/
theorem authorize_executes_once (L : XdrLeaves) (Form Other : Type) [DecidableEq L.ScAddress]
    (E : Setting L) (hS : E.crate.SizesMatch mldsa65) (hC : E.crate.SigningCorrect)
    (hV : E.crate.KeepsVerification) (kp : Keypair E.crate) (latest : UInt32) (a : Authorized L)
    (h : authorization E kp latest = .ok a) (H : Host E.network Form Other) (hH : H.Lawful)
    (is : List (Event L Form Other)) (key : ScBytes)
    (hkey : encodeVerifyingKey (scheme mldsa65 E.crate) kp.verifyingKey = .ok (.ok (.bytes key : ScVal L.OtherVal)))
    (hlast : (is.filterMap (Event.offered E.account)).getLast? = some key.val) :
    ∃ e, AddressEntry.of a.entry = some e ∧ H.ExecutesOnce a latest key.val (run H.takesEffect is) e :=
  executesOnce_of_lastOffered hS hC hV h hH hkey hlast

def zeroHost : Host zeroSetting.network Empty Unit := PlainHost.host zeroSetting.network 4217130 3110400

/-- The account of the zero setting is given a key, and then called with the tool's entry. -/
theorem authorize_executes_once_zero : ∃ (kp : Keypair zeroSetting.crate) (a : Authorized contractLeaves)
    (e : AddressEntry contractLeaves Empty) (init : Event contractLeaves Empty Unit),
      authorization zeroSetting kp 4217130 = .ok a ∧ AddressEntry.of a.entry = some e ∧
        ∃ env, zeroHost.returns (run zeroHost.takesEffect [init] ++ [.authenticate e]) zeroSetting.account =
          .ok (42,env) := by
  have hS := TagCrate.sizesMatch mldsa65
  have hC := TagCrate.signingCorrect mldsa65
  have hV := (TagCrate.keysBijective mldsa65).keepsVerification
  let kp : Keypair zeroSetting.crate := ⟨⟨Arr.zero 32⟩,_,⟨Arr.zero 32,rfl⟩,rfl⟩
  obtain ⟨p,hp,-,hexpiry⟩ := (payload_exact_iff (E := zeroSetting) 4217130).mpr (by decide)
  have hhashed : ((zeroSetting.payload 4217130).toOption.bind AuthorizationPayload.preimage).isSome := by
    decide +kernel
  rw [toOption_eq_some.mpr hp,Option.bind_some] at hhashed
  obtain ⟨b,hb⟩ := Option.isSome_iff_exists.mp hhashed
  have hhash := AuthorizationPayload.signaturePayload_eq_ok.mpr ⟨b,hb,(rfl : zeroSetting.sha256 b = _)⟩
  obtain ⟨sig,-,-,ha⟩ := authorization_builds hS hC hV kp hp hhash
  obtain ⟨key,hval,hkey⟩ := encodeVerifyingKey_ok (O := contractLeaves.OtherVal) hS (by decide) kp.verifyingKey
  have hlen : key.val.length = mldsa65.vkLen := by
    rw [hval]
    exact Arr.length_val _
  let init : Event contractLeaves Empty Unit := .init zeroSetting.account key.val
  have hlast : ([init].filterMap (Event.offered zeroSetting.account)).getLast? = some key.val := by
    have hoffered : Event.offered zeroSetting.account init = some key.val :=
      (Event.offered_init (L := contractLeaves)).mpr ⟨rfl,rfl,hlen⟩
    rw [List.filterMap_cons_some hoffered]
    rfl
  obtain ⟨e,he,honce⟩ := authorize_executes_once contractLeaves Empty Unit zeroSetting hS hC hV kp 4217130 _ ha
    zeroHost (PlainHost.lawful 4217130 3110400) [init] key hkey hlast
  have hrun : run zeroHost.takesEffect [init] = [init] := append_accepted (takesEffect_init hS hlen)
  have htold : (4217130 : UInt32).toNat = 4217130 := rfl
  have hdate : 4217130 ≤ p.signatureExpirationLedger.toNat ∧
      p.signatureExpirationLedger.toNat < 4217130 + 3110400 := by
    omega
  have hadmits : zeroHost.admits (run zeroHost.takesEffect [init]) e = true := by
    obtain ⟨sig',-,-,rfl⟩ := of_authorized hS hC hV ha he
    rw [hrun]
    simp [zeroHost,PlainHost.host,PlainHost.admits,init,Event.closes,hdate]
  exact ⟨kp,_,e,init,ha,he,(honce.executes hadmits).2⟩

end Host
end SorobanMlDsa

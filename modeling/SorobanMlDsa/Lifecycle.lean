import SorobanMlDsa.AuthorizeTool
import SorobanMlDsa.EndToEnd
import SorobanMlDsa.Posting

/-!
# From a key to an execution

Two runs of `authorize` for one account, the first in init mode: whatever they send is one
call of the account, and on a ledger that includes the first the second is executed once.
-/

namespace SorobanMlDsa.Cli

open ByteSlice MachineInt PolicyLog Dialogue

variable {L : XdrLeaves} {F : LedgerKeys} (P : Platform L F)

/-- The text is that of one envelope, whose one operation is this. -/
def Platform.Carries (t : String) (op : Operation L) : Prop :=
  ∃ env, P.xdr.envelopeToXdrBase64 env = some t ∧ env.tx.operations = [op] ∧
    ∀ env', P.xdr.envelopeToXdrBase64 env' = some t → env' = env

namespace AuthorizeTool

variable {P} {s : Start P}

theorem start_keypair {args : List String} {secret : Option String} (h : start P args secret = .ok s) :
    keypair P = .ok s.keypair := by
  obtain ⟨sourceStr,-,h⟩ := bind_eq_ok.mp h
  obtain ⟨account,-,h⟩ := bind_eq_ok.mp h
  obtain ⟨secret',-,h⟩ := bind_eq_ok.mp h
  obtain ⟨seed,-,h⟩ := bind_eq_ok.mp h
  obtain ⟨source,-,h⟩ := bind_eq_ok.mp h
  obtain ⟨kp,hkp,h⟩ := bind_eq_ok.mp h
  rw [hkp,← Except.ok.inj h]

theorem invokeOp_ok {contract function : String} {args : List (ScVal L.OtherVal)}
    {auth : List (SorobanAuthorizationEntry L)} {op : Operation L}
    (h : P.invokeOp contract function args auth = .ok op) : ∃ address name,
      P.contractAddr contract = .ok address ∧ P.symbol function = some name ∧ op = ⟨⟨address,name,args⟩,auth⟩ := by
  obtain ⟨address,haddr,h⟩ := bind_eq_ok.mp h
  obtain ⟨name,hname,h⟩ := bind_eq_ok.mp h
  exact ⟨address,name,haddr,unwrap_eq_ok.mp hname,(Except.ok.inj h).symm⟩

theorem initTx_operations (hS : P.crate.SizesMatch mldsa65) {seq : Int64} {tx : SorobanTransaction L F}
    (h : initTx s seq = .ok tx) : ∃ address name, ∃ key : ScBytes, P.contractAddr s.account = .ok address ∧
      P.symbol "init" = some name ∧
      encodeVerifyingKey (scheme mldsa65 P.crate) s.keypair.verifyingKey = .ok (.ok (.bytes key : ScVal L.OtherVal)) ∧
      tx.operations = [⟨⟨address,name,[.bytes key]⟩,[]⟩] := by
  obtain ⟨vk,hvk,h⟩ := bind_eq_ok.mp h
  obtain ⟨seq',-,h⟩ := bind_eq_ok.mp h
  obtain ⟨op,hop,h⟩ := bind_eq_ok.mp h
  obtain ⟨address,name,haddr,hname,rfl⟩ := invokeOp_ok hop
  obtain ⟨key,-,hkey⟩ := encodeVerifyingKey_ok (O := L.OtherVal) hS (by decide) s.keypair.verifyingKey
  have hval : verifyingKeyVal P s.keypair = .ok (.bytes key) := by
    unfold verifyingKeyVal
    rw [hkey]
  obtain rfl : vk = .bytes key := Except.ok.inj (hvk.symm.trans hval)
  refine ⟨address,name,key,haddr,hname,hkey,?_⟩
  rw [← Except.ok.inj h]
  rfl

theorem authTx_operations {seq : Int64} {latest : UInt32} {tx : SorobanTransaction L F}
    (h : authTx s seq latest = .ok tx) : ∃ address name a, P.contractAddr s.account = .ok address ∧
      P.symbol "protected" = some name ∧
      Authorize.authorization (setting P address name) s.keypair latest = .ok a ∧
      tx.operations = [⟨⟨address,name,[]⟩,[a.entry]⟩] := by
  obtain ⟨address,haddr,h⟩ := bind_eq_ok.mp h
  obtain ⟨name,hname,h⟩ := bind_eq_ok.mp h
  obtain ⟨a,ha,h⟩ := bind_eq_ok.mp h
  obtain ⟨seq',-,h⟩ := bind_eq_ok.mp h
  obtain ⟨op,hop,h⟩ := bind_eq_ok.mp h
  obtain ⟨address',name',haddr',hname',rfl⟩ := invokeOp_ok hop
  have htx := Except.ok.inj h
  have hname := unwrap_eq_ok.mp hname
  obtain rfl : address' = address := Except.ok.inj (haddr'.symm.trans haddr)
  obtain rfl : name' = name := Option.some.inj (hname'.symm.trans hname)
  refine ⟨address',name',a,haddr,hname,ha,?_⟩
  rw [← htx]
  rfl

theorem withResources_operations {X : StellarXdr} {b : Build}
    {tx final : Transaction X.Operation X.SorobanTransactionData}
    {sim : SimResult X} (h : Rpc.withResources b tx sim = .ok final) : final.operations = tx.operations := by
  obtain ⟨fee,-,h⟩ := bind_eq_ok.mp h
  rw [← Except.ok.inj h]

variable {args : List String} {secret : Option String} {node : Party Request Reply} {t : String} {r : Reply}

/-- What a run sends is the one transaction it built, from what it was told first. -/
theorem sent_built (hL : L.Unambiguous) (hF : F.Unambiguous) (hs : start P args secret = .ok s)
    (hsent : (.sendTransaction t,r) ∈ (converse node [] (main P args secret)).1) :
    ∃ told seq latest tx, told <+: (converse node [] (main P args secret)).1 ∧ Told s told seq latest ∧
      buildFor s seq latest = .ok tx ∧ ∀ op, tx.operations = [op] → P.Carries t op := by
  obtain ⟨s',before,after,tx,sim,hash,hs',hsplit,hshown,hseals⟩ := sent_shown hsent
  obtain rfl : s = s' := Except.ok.inj (hs.symm.trans hs')
  obtain ⟨told,seq,latest,text,v,htold,htx,-,rfl,-⟩ := hshown
  obtain ⟨final,payload,hfinal,-,-,htext⟩ := hseals
  refine ⟨told,seq,latest,tx,?_,htold,htx,?_⟩
  · rw [hsplit,List.append_assoc]
    exact List.prefix_append _ _
  · intro op hop
    exact ⟨_,htext,(withResources_operations hfinal).trans hop,fun env' henv' => envelopeText_inj hL hF henv' htext⟩

/-- The text sent in init mode stores the tool's key. -/
structure SentInit (s : Start P) (t : String) (address : L.ScAddress) (key : ScBytes) : Prop where
  account : P.contractAddr s.account = .ok address
  encoded : encodeVerifyingKey (scheme mldsa65 P.crate) s.keypair.verifyingKey =
    .ok (.ok (.bytes key : ScVal L.OtherVal))
  carries : ∃ name, P.symbol "init" = some name ∧ P.Carries t ⟨⟨address,name,[.bytes key]⟩,[]⟩

/-- The text sent in auth mode calls `protected` with the entry for the ledger the run was
told of. -/
structure SentAuth (s : Start P) (said : Said Request Reply) (t : String) (address : L.ScAddress) (name : L.ScSymbol)
    (latest : UInt32) (a : Authorize.Authorized L) : Prop where
  account : P.contractAddr s.account = .ok address
  named : P.symbol "protected" = some name
  told : ∃ told seq, told <+: said ∧ Told s told seq latest
  authorized : Authorize.authorization (setting P address name) s.keypair latest = .ok a
  carries : P.Carries t ⟨⟨address,name,[]⟩,[a.entry]⟩

theorem sent_init (hL : L.Unambiguous) (hF : F.Unambiguous) (hS : P.crate.SizesMatch mldsa65)
    (hs : start P args secret = .ok s) (hmode : s.mode = "init")
    (hsent : (.sendTransaction t,r) ∈ (converse node [] (main P args secret)).1) :
    ∃ address key, SentInit s t address key := by
  obtain ⟨told,seq,latest,tx,-,-,htx,hcarries⟩ := sent_built hL hF hs hsent
  rw [buildFor,if_pos hmode] at htx
  obtain ⟨address,name,key,haddr,hname,hkey,hop⟩ := initTx_operations hS htx
  exact ⟨address,key,haddr,hkey,name,hname,hcarries _ hop⟩

theorem sent_auth (hL : L.Unambiguous) (hF : F.Unambiguous) (hs : start P args secret = .ok s)
    (hmode : s.mode ≠ "init") (hsent : (.sendTransaction t,r) ∈ (converse node [] (main P args secret)).1) :
    ∃ address name latest a, SentAuth s (converse node [] (main P args secret)).1 t address name latest a := by
  obtain ⟨told,seq,latest,tx,hpast,htold,htx,hcarries⟩ := sent_built hL hF hs hsent
  rw [buildFor,if_neg hmode] at htx
  obtain ⟨address,name,a,haddr,hname,ha,hop⟩ := authTx_operations htx
  exact ⟨address,name,latest,a,haddr,hname,⟨told,seq,hpast,htold⟩,ha,hcarries _ hop⟩

/-- Where a ledger has included the first transaction, and no other key was offered to the
account since, the second is executed once, if its host admits it. -/
def Delivered [DecidableEq L.ScAddress] (E : Authorize.Setting L) (key : ScBytes) (latest : UInt32)
    (a : Authorize.Authorized L) : Prop :=
  ∀ (Form Other : Type) (H : Host E.network Form Other), H.Lawful →
    ∀ pre mid : List (Event L Form Other), (∀ i ∈ mid, i.offered E.account = none) →
      ∃ e, AddressEntry.of a.entry = some e ∧
        H.ExecutesOnce a latest key.val (PolicyLog.run H.takesEffect (pre ++ .init E.account key.val :: mid)) e

theorem lastOffered [DecidableEq L.ScAddress] {Form Other : Type} {a : L.ScAddress} {key : Bytes}
    (hkey : key.length = mldsa65.vkLen) (pre : List (Event L Form Other)) {mid : List (Event L Form Other)}
    (hmid : ∀ i ∈ mid, i.offered a = none) :
    ((pre ++ .init a key :: mid).filterMap (Event.offered a)).getLast? = some key := by
  have hinit : Event.offered a (.init a key : Event L Form Other) = some key := Event.offered_init.mpr ⟨rfl,rfl,hkey⟩
  have hrest : mid.filterMap (Event.offered a) = [] := List.filterMap_eq_nil_iff.mpr hmid
  rw [List.filterMap_append,List.filterMap_cons_some hinit,hrest,List.getLast?_append,List.getLast?_singleton]
  rfl

theorem delivered [DecidableEq L.ScAddress] {E : Authorize.Setting L} (hS : E.crate.SizesMatch mldsa65)
    (hC : E.crate.SigningCorrect) (hV : E.crate.KeepsVerification) {kp : Keypair E.crate} {latest : UInt32}
    {a : Authorize.Authorized L} (ha : Authorize.authorization E kp latest = .ok a) {key : ScBytes}
    (hkey : encodeVerifyingKey (scheme mldsa65 E.crate) kp.verifyingKey = .ok (.ok (.bytes key : ScVal L.OtherVal))) :
    Delivered E key latest a := by
  intro Form Other H hH pre mid hmid
  obtain ⟨b,hb,hencoded⟩ := encodeVerifyingKey_ok (O := L.OtherVal) hS (by decide) kp.verifyingKey
  rw [hkey] at hencoded
  obtain rfl : key = b := ScVal.bytes.inj (Except.ok.inj (Except.ok.inj hencoded))
  have hlen : key.val.length = mldsa65.vkLen := by
    rw [hb]
    exact (Arr.length_val _).trans hS.verifyingKey
  exact Host.executesOnce_of_lastOffered hS hC hV ha hH hkey (lastOffered hlen pre hmid)

/-- Whatever the nodes answered, if a run in init mode and a later one in auth mode have each
sent something for one account, then the first has sent the call that stores the tool's key and
nothing else, the second the call of `protected` with the entry for the ledger it was told of,
and wherever the first was included the second is executed once. -/
theorem account_lifecycle (P : Platform L F) [DecidableEq L.ScAddress] (hL : L.Unambiguous) (hF : F.Unambiguous)
    (hS : P.crate.SizesMatch mldsa65) (hC : P.crate.SigningCorrect) (hV : P.crate.KeepsVerification)
    (argsI argsA : List String) (secretI secretA : Option String) (nodeI nodeA : Party Request Reply)
    (sI sA : Start P) (hI : start P argsI secretI = .ok sI) (hA : start P argsA secretA = .ok sA)
    (haccount : sI.account = sA.account) (hmodeI : sI.mode = "init") (hmodeA : sA.mode ≠ "init")
    (tI tA : String) (rI rA : Reply)
    (hsentI : (.sendTransaction tI,rI) ∈ (converse nodeI [] (main P argsI secretI)).1)
    (hsentA : (.sendTransaction tA,rA) ∈ (converse nodeA [] (main P argsA secretA)).1) :
    ∃ address name key latest a, SentInit sI tI address key ∧
      SentAuth sA (converse nodeA [] (main P argsA secretA)).1 tA address name latest a ∧
      Delivered (setting P address name) key latest a := by
  have hkp : sI.keypair = sA.keypair := Except.ok.inj ((start_keypair hI).symm.trans (start_keypair hA))
  obtain ⟨address,key,hinit⟩ := sent_init hL hF hS hI hmodeI hsentI
  obtain ⟨address',name,latest,a,hauth⟩ := sent_auth hL hF hA hmodeA hsentA
  have hsame : P.contractAddr sA.account = .ok address := haccount ▸ hinit.account
  obtain rfl : address = address' := Except.ok.inj (hsame.symm.trans hauth.account)
  have hencoded := hinit.encoded
  rw [hkp] at hencoded
  exact ⟨address,name,key,latest,a,hinit,hauth,
    delivered (E := setting P address name) hS hC hV hauth.authorized hencoded⟩

/-- Both modes run through, for one account and one key. -/
theorem account_lifecycle_sample : ∃ sI sA tI tA address name key latest a,
    SentInit (P := samplePlatform) sI tI address key ∧
      SentAuth (P := samplePlatform) sA (sampleSaid ["authorize","G","C"]) tA address name latest a ∧
      Delivered (setting samplePlatform address name) key latest a := by
  have hI : ∃ s, start samplePlatform ["authorize","G","C","init"] (some "S") = .ok s ∧ s.account = "C" ∧
    s.mode = "init" := ⟨_,rfl,rfl,rfl⟩
  have hA : ∃ s, start samplePlatform ["authorize","G","C"] (some "S") = .ok s ∧ s.account = "C" ∧
    s.mode = "auth" := ⟨_,rfl,rfl,rfl⟩
  obtain ⟨sI,hI,haccountI,hmodeI⟩ := hI
  obtain ⟨sA,hA,haccountA,hmodeA⟩ := hA
  have hauth : sA.mode ≠ "init" := by
    rw [hmodeA]
    decide
  obtain ⟨tI,rI,hsentI⟩ := sampleSaid_sent ["authorize","G","C","init"] (by decide +kernel)
  obtain ⟨tA,rA,hsentA⟩ := sampleSaid_sent ["authorize","G","C"] (by decide +kernel)
  obtain ⟨address,name,key,latest,a,h⟩ := account_lifecycle samplePlatform contractLeaves_unambiguous
    codeKeys_unambiguous (TagCrate.sizesMatch mldsa65) (TagCrate.signingCorrect mldsa65)
    (TagCrate.keysBijective mldsa65).keepsVerification _ _ _ _ sampleNode sampleNode sI sA hI hA
    (haccountI.trans haccountA.symm) hmodeI hauth tI tA rI rA hsentI hsentA
  exact ⟨sI,sA,tI,tA,address,name,key,latest,a,h⟩

end AuthorizeTool
end SorobanMlDsa.Cli

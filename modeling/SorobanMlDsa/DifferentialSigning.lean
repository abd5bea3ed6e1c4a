import SorobanMlDsa.Differential
import SorobanMlDsa.Signing

/-!
# Signing beside `fips204`

Keys of sixteen seeds are loaded into the second implementation, and both sign every message
under every context. What is asserted of our side alone holds by the laws of the binding; what
is left speaks of `fips204`.
-/

namespace SorobanMlDsa.Conformance.Differential

open ByteSlice Tally PrefixCode

/-- What the suite uses of `fips204` to sign. -/
structure Fips204Signer (P : ParamSet) extends Fips204 P where
  PrivateKey : Type
  privateFromBytes : Arr P.skLen → Option PrivateKey
  trySignWithSeed : PrivateKey → (rnd : Arr 32) → (message context : Bytes) → Option (Arr P.sigLen)

def deterministic : Arr 32 := Arr.zero 32

def contexts : List Bytes := [[],"stellar".toByteArray.data.toList,List.replicate 255 0xff,[0,1,2]]

def messages : List Bytes :=
  [[],"a".toByteArray.data.toList,"The quick brown fox".toByteArray.data.toList,List.replicate 4096 0x5a]

def seeds : List (Arr 32) :=
  (List.range 16).map fun b => ⟨List.replicate 32 (UInt8.ofNat b),List.length_replicate⟩

def positions (sigLen : ℕ) : List ℕ := [0,sigLen / 2,sigLen - 1]

/-- One bit of one byte, the other way round. -/
def corrupt {n : ℕ} (sig : Arr n) (pos : ℕ) : Arr n :=
  ⟨sig.val.modify pos (· ^^^ 1),(List.length_modify ..).trans sig.property⟩

def unwrapped {A : Type} : Except PqError A → Suite A
  | .error _ => .error .unwrap
  | .ok a => .ok a

def expected {A : Type} (message : String) : Option A → Suite A
  | none => .error (.assertion message)
  | some a => .ok a

theorem expected_eq_ok {A : Type} {message : String} {x : Option A} {a : A} :
    expected message x = .ok a ↔ x = some a := by
  cases x <;> simp [expected]

section

variable {P : ParamSet} (H : Hex) (F : Fips204Signer P) (S : PqScheme)

def accepts {V : Type} [PqVerifier V] (vk : V) (m c s : Bytes) : Suite Bool := do
  let r ← returned (PqVerifier.verify vk m c s)
  return r.isOk

variable {S}

/-- What is corrupted must be rejected; it is not counted. -/
def checkCorrupted (vk : S.VerifyingKey) (pk : F.PublicKey) (m c : Bytes) (sig : Arr P.sigLen) (pos : ℕ) :
    Suite ℕ := do
  let bad := corrupt sig pos
  let a ← accepts vk m c bad.val
  require (a = F.verify pk m bad c) (.assertion "DISAGREEMENT on corrupted signature")
  require (a = false) (.assertion "corrupted signature accepted")
  return 0

/-- A signature is not to verify without its context. -/
def checkMoved (vk : S.VerifyingKey) (pk : F.PublicKey) (m c : Bytes) (sig : Arr P.sigLen) : Suite Unit :=
  if c = [] then .ok ()
  else do
    let a ← accepts vk m [] sig.val
    require (a = false) (.assertion "verified under the empty context")
    require (F.verify pk m sig [] = false) (.assertion "fips204 verified under the empty context")

def checkSigned (kp : S.Keypair) (pkBytes : Arr P.vkLen) (pk : F.PublicKey) (sk : F.PrivateKey) (m c : Bytes) :
    Suite ℕ := do
  let (r,ours) ← returned (PqSigner.signInto (PqKeypair.signingKey kp : S.SigningKey) m c (Arr.zero P.sigLen))
  let n ← unwrapped r
  require (n = P.sigLen) (.assertion "n == sig_len")
  let theirs ← expected "fips204 failed to sign" (F.trySignWithSeed sk deterministic m c)
  require (H.encode ours.val = H.encode theirs.val) (.assertion "deterministic signatures differ")
  require (F.verify pk m ours c = true) (.assertion "fips204 rejected an ml-dsa signature")
  let decoded ← returned (PqEncode.fromBytes pkBytes.val : Outcome (Except PqError S.VerifyingKey))
  let vk ← unwrapped decoded
  let ok ← accepts vk m c theirs.val
  require (ok = true) (.assertion "ml-dsa rejected a fips204 signature")
  let _ ← tally (checkCorrupted F vk pk m c ours) (positions P.sigLen)
  let _ ← checkMoved F vk pk m c ours
  return 1

variable (S)

def checkSeed (seed : Arr 32) : Suite ℕ := do
  let r ← returned (PqKeypair.fromSeed seed.val : Outcome (Except PqError S.Keypair))
  let kp ← unwrapped r
  let pkBytes ← written P.vkLen (PqKeypair.verifyingKey kp : S.VerifyingKey)
  let skBytes ← written P.skLen (PqKeypair.signingKey kp : S.SigningKey)
  let pk ← expected "fips204 rejected a key ml-dsa produced" (F.tryFromBytes pkBytes)
  let sk ← expected "fips204 rejected a signing key ml-dsa produced" (F.privateFromBytes skBytes)
  tally (fun m => tally (checkSigned H F kp pkBytes pk sk m) contexts) messages

/-- The test on signing, with the number of combinations that were checked. -/
def testSigning : Suite ℕ := tally (checkSeed H F S) seeds

end

section Scheme

variable {P : ParamSet} {D : MlDsaCrate} {H : Hex} {F : Fips204Signer P}

def publicBytes (hS : D.SizesMatch P) (seed : Arr 32) : Arr P.vkLen :=
  ⟨(D.encode (D.verifyingKey (D.fromSeed seed))).val,(Arr.length_val _).trans hS.verifyingKey⟩

def privateBytes (hS : D.SizesMatch P) (seed : Arr 32) : Arr P.skLen :=
  ⟨(D.toExpanded (D.fromSeed seed)).val,(Arr.length_val _).trans hS.signingKey⟩

/-- Both sign with `sig`, `fips204` accepts it, and both reject it where one bit is wrong
or the context is missing. -/
structure SignsAlike (F : Fips204Signer P) (D : MlDsaCrate) (seed : Arr 32) (pk : F.PublicKey)
    (sk : F.PrivateKey) (m c : Bytes) (sig : Arr P.sigLen) : Prop where
  ours : ∃ s, D.signDeterministic (D.fromSeed seed) m c = some s ∧ (D.encodeSignature s).val = sig.val
  theirs : F.trySignWithSeed sk deterministic m c = some sig
  accepted : F.verify pk m sig c = true
  corrupted : ∀ pos ∈ positions P.sigLen, F.verify pk m (corrupt sig pos) c = false ∧
    ¬ D.Accepts (D.verifyingKey (D.fromSeed seed)) m c (corrupt sig pos).val
  moved : c ≠ [] → F.verify pk m sig [] = false ∧
    ¬ D.Accepts (D.verifyingKey (D.fromSeed seed)) m [] sig.val

theorem accepts_decoded (hS : D.SizesMatch P) (hV : D.KeepsVerification) (vk : D.VerifyingKey) (m c s : Bytes) :
    accepts (V := (scheme P D).VerifyingKey) ⟨D.decode (D.encode vk)⟩ m c s =
      .ok (decide (c.length ≤ 255 ∧ D.Accepts vk m c s)) := by
  show Except.ok (VerifyingKey.verify P _ m c s).isOk = _
  rw [isOk_eq_decide,Except.ok.injEq,decide_eq_decide,VerifyingKey.verify_eq_ok_iff,hV.accepts_iff]
  constructor
  · rintro ⟨hc,-,ha⟩
    exact ⟨hc,ha⟩
  · rintro ⟨hc,ha⟩
    exact ⟨hc,ha.length.trans hS.signature,ha⟩

theorem checkCorrupted_eq_ok (hS : D.SizesMatch P) (hV : D.KeepsVerification) (vk : D.VerifyingKey)
    (pk : F.PublicKey) (m : Bytes) {c : Bytes} (hc : c.length ≤ 255) (sig : Arr P.sigLen) (pos n : ℕ) :
    checkCorrupted (S := scheme P D) F ⟨D.decode (D.encode vk)⟩ pk m c sig pos = .ok n ↔
      (F.verify pk m (corrupt sig pos) c = false ∧ ¬ D.Accepts vk m c (corrupt sig pos).val) ∧ 0 = n := by
  simp only [checkCorrupted,accepts_decoded hS hV,ok_bind,bind_eq_ok,require_eq_ok,hc,true_and,
    decide_eq_false_iff_not,pure_eq_ok,Except.ok.injEq]
  constructor
  · rintro ⟨-,hsame,-,hno,hn⟩
    rw [decide_eq_false hno] at hsame
    exact ⟨⟨hsame.symm,hno⟩,hn⟩
  · rintro ⟨⟨htheirs,hno⟩,hn⟩
    exact ⟨(),(decide_eq_false hno).trans htheirs.symm,(),hno,hn⟩

theorem checkMoved_eq_ok (hS : D.SizesMatch P) (hV : D.KeepsVerification) {vk : D.VerifyingKey}
    {pk : F.PublicKey} {m c : Bytes} (sig : Arr P.sigLen) (u : Unit) :
    checkMoved (S := scheme P D) F ⟨D.decode (D.encode vk)⟩ pk m c sig = .ok u ↔
      (c ≠ [] → F.verify pk m sig [] = false ∧ ¬ D.Accepts vk m [] sig.val) := by
  by_cases hc : c = []
  · simp [checkMoved,hc]
  · simp only [checkMoved,hc,if_false,accepts_decoded hS hV,ok_bind,bind_eq_ok,require_eq_ok,decide_eq_false_iff_not,
      List.length_nil,Nat.zero_le,true_and,ne_eq,not_false_eq_true,true_implies]
    constructor
    · rintro ⟨-,hno,htheirs⟩
      exact ⟨htheirs,hno⟩
    · rintro ⟨htheirs,hno⟩
      exact ⟨(),hno,htheirs⟩

/-- Of all that is asserted of one combination, what is left to `fips204`. -/
theorem checkSigned_eq_ok (hH : Function.Injective H.encode) (hS : D.SizesMatch P) (hC : D.SigningCorrect)
    (hV : D.KeepsVerification) {k : (scheme P D).Keypair} {seed : Arr 32}
    (hk : Keypair.signing (D := D) k = ⟨D.fromSeed seed⟩) (pk : F.PublicKey) (sk : F.PrivateKey)
    (m : Bytes) {c : Bytes} (hc : c.length ≤ 255) (n : ℕ) :
    checkSigned H (S := scheme P D) F k (publicBytes hS seed) pk sk m c = .ok n ↔
      (∃ sig, SignsAlike F D seed pk sk m c sig) ∧ 1 = n := by
  obtain ⟨s,hs⟩ := hC.sign_some seed m c hc
  obtain ⟨ours,hsign,hours⟩ :=
    SigningKey.signInto_signed hS ⟨D.fromSeed seed⟩ hc (Arr.zero P.sigLen) (Nat.le_refl _) hs
  have hdrop : (Arr.zero P.sigLen).val.drop P.sigLen = [] := List.drop_of_length_le (by rw [Arr.length_val])
  rw [hdrop,List.append_nil] at hours
  have haccepts : D.Accepts (D.verifyingKey (D.fromSeed seed)) m c ours.val := by
    rw [hours]
    exact ⟨s,(by rw [tryFrom_val]; exact hC.decode_encode seed m c s hs),hC.verify_sign seed m c s hs⟩
  have hwrite : PqSigner.signInto (PqKeypair.signingKey k : (scheme P D).SigningKey) m c (Arr.zero P.sigLen) =
      .ok (.ok P.sigLen,ours) := by
    show SigningKey.signInto P (Keypair.signing (D := D) k) m c _ = _
    rw [hk]
    exact hsign
  have hread : (PqEncode.fromBytes (publicBytes hS seed).val : Outcome (Except PqError (scheme P D).VerifyingKey)) =
      .ok (.ok ⟨D.decode (D.encode (D.verifyingKey (D.fromSeed seed)))⟩) :=
    congrArg Except.ok (VerifyingKey.fromBytes_encode hS ⟨D.verifyingKey (D.fromSeed seed)⟩)
  have hcorrupted := tally_eq_ok (positions P.sigLen) fun pos _ =>
    checkCorrupted_eq_ok hS hV (D.verifyingKey (D.fromSeed seed)) pk m hc ours pos
  simp only [checkSigned,hwrite,hread,returned,Except.mapError,ok_bind,unwrapped,bind_eq_ok,require_eq_ok,
    expected_eq_ok,Except.ok.injEq,pure_eq_ok]
  constructor
  · rintro ⟨-,-,theirs,htheirs,-,hsame,-,haccepted,_,hvk,_,-,-,-,_,htally,_,hmoved,hn⟩
    obtain rfl := Except.ok.inj hvk
    obtain rfl : ours = theirs := Subtype.ext (hH hsame)
    exact ⟨⟨ours,⟨s,hs,hours.symm⟩,htheirs,haccepted,((hcorrupted _).mp htally).1,
      (checkMoved_eq_ok hS hV ours _).mp hmoved⟩,hn⟩
  · rintro ⟨⟨sig,⟨s',hs',hsig⟩,htheirs,haccepted,hbad,hmoved⟩,hn⟩
    obtain rfl := Option.some.inj (hs.symm.trans hs')
    obtain rfl : ours = sig := Subtype.ext (hours.trans hsig)
    exact ⟨(),trivial,ours,htheirs,(),rfl,(),haccepted,_,rfl,_,accepts_decoded hS hV _ _ _ _,(),
      decide_eq_true ⟨hc,haccepts⟩,_,(hcorrupted _).mpr ⟨hbad,rfl⟩,(),
      (checkMoved_eq_ok hS hV ours ()).mpr hmoved,hn⟩

theorem checkSeed_eq_ok (hH : Function.Injective H.encode) (hS : D.SizesMatch P) (hC : D.SigningCorrect)
    (hV : D.KeepsVerification) (seed : Arr 32) (n : ℕ) : checkSeed H F (scheme P D) seed = .ok n ↔
      (∃ pk sk, F.tryFromBytes (publicBytes hS seed) = some pk ∧ F.privateFromBytes (privateBytes hS seed) = some sk ∧
        ∀ m ∈ messages, ∀ c ∈ contexts, ∃ sig, SignsAlike F D seed pk sk m c sig) ∧ 16 = n := by
  have hcontexts : ∀ c ∈ contexts, c.length ≤ 255 := by decide +kernel
  let kp : (scheme P D).Keypair :=
    (⟨⟨D.fromSeed seed⟩,⟨D.verifyingKey (D.fromSeed seed)⟩,⟨seed,rfl⟩,rfl⟩ : Keypair D)
  have hseed : (PqKeypair.fromSeed seed.val : Outcome (Except PqError (scheme P D).Keypair)) = .ok (.ok kp) :=
    Keypair.fromSeed_ok seed.property
  have hpk : written P.vkLen (PqKeypair.verifyingKey kp : (scheme P D).VerifyingKey) = .ok (publicBytes hS seed) :=
    written_verifyingKey hS _
  have hsk : written P.skLen (PqKeypair.signingKey kp : (scheme P D).SigningKey) = .ok (privateBytes hS seed) :=
    written_signingKey hS _
  have hloop (pk : F.PublicKey) (sk : F.PrivateKey) := tally_eq_ok messages fun m _ =>
    tally_eq_ok contexts fun c hc =>
      checkSigned_eq_ok hH hS hC hV (k := kp) rfl pk sk m (hcontexts c hc)
  simp only [checkSeed,hseed,hpk,hsk,returned,Except.mapError,ok_bind,unwrapped,bind_eq_ok,expected_eq_ok,hloop]
  have hcount : (messages.map fun _ => (contexts.map fun _ => 1).sum).sum = 16 := rfl
  simp only [hcount]
  constructor
  · rintro ⟨pk,hpk,sk,hsk,hall,hn⟩
    exact ⟨⟨pk,sk,hpk,hsk,hall⟩,hn⟩
  · rintro ⟨⟨pk,sk,hpk,hsk,hall⟩,hn⟩
    exact ⟨pk,hpk,sk,hsk,hall,hn⟩

end Scheme

/-- The test on signing passes, with all 256 combinations, exactly if `fips204` loads the
keys of every seed, signs as we do, accepts the signature, and rejects with us what has
been tampered with. No signature or key of ours is ever the cause of a failure. -/
theorem differential_signing_passes_iff (H : Hex) (hH : Function.Injective H.encode) (P : ParamSet)
    (D : MlDsaCrate) (hS : D.SizesMatch P) (hC : D.SigningCorrect) (hV : D.KeepsVerification)
    (F : Fips204Signer P) (n : ℕ) : testSigning H F (scheme P D) = .ok n ↔
      (∀ seed ∈ seeds, ∃ pk sk, F.tryFromBytes (publicBytes hS seed) = some pk ∧
        F.privateFromBytes (privateBytes hS seed) = some sk ∧
        ∀ m ∈ messages, ∀ c ∈ contexts, ∃ sig, SignsAlike F D seed pk sk m c sig) ∧ n = 256 := by
  have hcount : (seeds.map fun _ => 16).sum = 256 := rfl
  rw [testSigning,tally_eq_ok seeds fun seed _ => checkSeed_eq_ok hH hS hC hV seed,hcount,eq_comm (a := n)]

def sampleSigner (P : ParamSet) : Fips204Signer P where
  toFips204 := sampleFips204 P
  PrivateKey := Arr P.skLen
  privateFromBytes := some
  trySignWithSeed sk _ m c :=
    if c.length ≤ 255 then some (TagCrate.tag P (TagCrate.pad P.vkLen (sk.val.take 32)) (frame m c)) else none

theorem corrupt_ne {n : ℕ} (sig : Arr n) {pos : ℕ} (h : pos < n) : corrupt sig pos ≠ sig := by
  intro heq
  have hpos : pos < sig.val.length := by rw [Arr.length_val]; exact h
  have hbyte : (sig.val.modify pos (· ^^^ 1))[pos]? = sig.val[pos]? := congrArg (fun s : Arr n => s.val[pos]?) heq
  rw [List.getElem?_modify_eq,List.getElem?_eq_getElem hpos] at hbyte
  have hflip : sig.val[pos] ^^^ 1 = sig.val[pos] := Option.some.inj hbyte
  exact absurd ((UInt8.xor_right_inj _).mp (hflip.trans UInt8.xor_zero.symm)) (by decide)

/-- A tag shows the length of what was framed, even where that did not fit. -/
theorem length_of_tag {P : ParamSet} {vk : Arr P.vkLen} {M M' : Bytes} (hvk : 32 ≤ P.vkLen) (hsig : 40 ≤ P.sigLen)
    (hM : M.length < 256^8) (hM' : M'.length < 256^8) (h : TagCrate.tag P vk M = TagCrate.tag P vk M') :
    M.length = M'.length := by
  have htake : (vk.val.take 32).length = 32 := by
    rw [List.length_take,Arr.length_val]
    omega
  have hfront (N : Bytes) : (TagCrate.tag P vk N).val.take 40 = vk.val.take 32 ++ bigEndian 8 N.length := by
    have hhead : (vk.val.take 32 ++ bigEndian 8 N.length).length = 40 := by simp [htake,bigEndian_length]
    show List.take 40 (List.take P.sigLen _) = _
    rw [List.take_take,Nat.min_eq_left hsig,← List.append_assoc,List.append_assoc,List.take_left' hhead]
  have hhead := (hfront M).symm.trans ((congrArg (fun s : Arr P.sigLen => s.val.take 40) h).trans (hfront M'))
  exact bigEndian_inj hM hM' (List.append_cancel_left hhead)

theorem accepts_sample {P : ParamSet} (vk : Arr P.vkLen) (m c : Bytes) (sig : Arr P.sigLen) :
    (TagCrate.crate P).Accepts vk m c sig.val ↔ c.length ≤ 255 ∧ sig = TagCrate.tag P vk (frame m c) := by
  simp [MlDsaCrate.Accepts,tryFrom_val]

theorem signsAlike_sample (seed : Arr 32) {m c : Bytes} (hm : m ∈ messages) (hc : c ∈ contexts) :
    ∃ sig, SignsAlike (sampleSigner mldsa44) (TagCrate.crate mldsa44) seed
      (publicBytes (TagCrate.sizesMatch mldsa44) seed) (privateBytes (TagCrate.sizesMatch mldsa44) seed) m c sig := by
  have hcLen : c.length ≤ 255 := (by decide +kernel : ∀ c ∈ contexts, c.length ≤ 255) c hc
  have hmLen : m.length ≤ 4096 := (by decide +kernel : ∀ m ∈ messages, m.length ≤ 4096) m hm
  let vk : Arr mldsa44.vkLen := TagCrate.pad mldsa44.vkLen seed.val
  let sig := TagCrate.tag mldsa44 vk (frame m c)
  have hseed : (privateBytes (TagCrate.sizesMatch mldsa44) seed).val.take 32 = seed.val := by
    show (TagCrate.pad mldsa44.skLen seed.val).val.take 32 = _
    rw [TagCrate.pad_val (by rw [Arr.length_val]; decide),List.take_left' (Arr.length_val seed)]
  have hverify (s : Arr mldsa44.sigLen) (c' : Bytes) : (sampleSigner mldsa44).verify
      (publicBytes (TagCrate.sizesMatch mldsa44) seed) m s c' = false ↔
      ¬ (TagCrate.crate mldsa44).Accepts vk m c' s.val := by
    rw [accepts_sample]
    exact decide_eq_false_iff_not
  refine ⟨sig,⟨⟨sig,if_pos hcLen,rfl⟩,?_,decide_eq_true ⟨hcLen,rfl⟩,?_,?_⟩⟩
  · show (if c.length ≤ 255 then some (TagCrate.tag mldsa44 (TagCrate.pad mldsa44.vkLen _) (frame m c)) else none) = _
    rw [hseed,if_pos hcLen]
  · intro pos hpos
    have hlt : pos < mldsa44.sigLen := (by decide : ∀ pos ∈ positions mldsa44.sigLen, pos < mldsa44.sigLen) pos hpos
    have hno : ¬ (TagCrate.crate mldsa44).Accepts vk m c (corrupt sig pos).val := by
      rw [accepts_sample]
      exact fun h => corrupt_ne sig hlt h.2
    exact ⟨(hverify _ _).mpr hno,hno⟩
  · intro hne
    have hno : ¬ (TagCrate.crate mldsa44).Accepts vk m [] sig.val := by
      rw [accepts_sample]
      rintro ⟨-,h⟩
      have hlen := length_of_tag (by decide) (by decide) (by simp [frame]; omega) (by simp [frame]; omega) h
      simp only [frame,List.length_cons,List.length_append,List.length_nil] at hlen
      exact hne (List.eq_nil_of_length_eq_zero (by omega))
    exact ⟨(hverify _ _).mpr hno,hno⟩

theorem differential_signing_passes_iff_sample :
    testSigning lowerHex (sampleSigner mldsa44) (scheme mldsa44 (TagCrate.crate mldsa44)) = .ok 256 := by
  apply (differential_signing_passes_iff lowerHex lowerHex_injective mldsa44 _ (TagCrate.sizesMatch mldsa44)
    (TagCrate.signingCorrect mldsa44) (TagCrate.keysBijective mldsa44).keepsVerification _ 256).mpr
  exact ⟨fun seed _ => ⟨_,_,rfl,rfl,fun m hm c hc => signsAlike_sample seed hm hc⟩,rfl⟩

end SorobanMlDsa.Conformance.Differential

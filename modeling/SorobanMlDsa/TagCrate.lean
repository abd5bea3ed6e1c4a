import SorobanMlDsa.MlDsaScheme
import SorobanMlDsa.PrefixCode

/-!
An executable crate on which every law of `MlDsaCrate` holds. Its signature is the key's seed
and the framed message, cut or zero-padded to the signature length: nothing about it is secure.
-/

namespace SorobanMlDsa.TagCrate

open ByteSlice PrefixCode

/-- Cut or zero-pad to `n` bytes. -/
def pad (n : ℕ) (b : Bytes) : Arr n := ⟨(b ++ List.replicate n 0).take n,by simp⟩

theorem pad_val {n : ℕ} {b : Bytes} (h : b.length ≤ n) :
    (pad n b).val = b ++ List.replicate (n - b.length) 0 := by
  simp [pad,List.take_append,List.take_of_length_le h]

def tag (P : ParamSet) (vk : Arr P.vkLen) (framed : Bytes) : Arr P.sigLen :=
  pad P.sigLen (vk.val.take 32 ++ (bigEndian 8 framed.length ++ framed))

/-- Framed messages short enough to fit are recovered from their tag. -/
theorem tag_inj {P : ParamSet} {vk : Arr P.vkLen} {M M' : Bytes} (hP : P.sigLen < 256^8)
    (hM : M.length + 40 ≤ P.sigLen) (hM' : M'.length + 40 ≤ P.sigLen)
    (h : tag P vk M = tag P vk M') : M = M' := by
  have hfit (N : Bytes) (hN : N.length + 40 ≤ P.sigLen) :
      (vk.val.take 32 ++ (bigEndian 8 N.length ++ N)).length ≤ P.sigLen := by
    have := List.length_take_le 32 vk.val
    simp only [List.length_append,bigEndian_length]
    omega
  have hv := congrArg Subtype.val h
  simp only [tag,pad_val (hfit M hM),pad_val (hfit M' hM'),List.append_assoc] at hv
  have hbody := List.append_cancel_left hv
  obtain ⟨hlen,hrest⟩ := List.append_inj hbody (by simp)
  have hl : M.length = M'.length := bigEndian_inj (by omega) (by omega) hlen
  exact (List.append_inj hrest hl).1

@[reducible] def crate (P : ParamSet) : MlDsaCrate where
  VerifyingKey := Arr P.vkLen
  ExpandedSigningKey := Arr 32
  Signature := Arr P.sigLen
  verifyingKeySize := P.vkLen
  expandedSigningKeySize := P.skLen
  signatureSize := P.sigLen
  encode := id
  decode := id
  encodeSignature := id
  decodeSignature := some
  tryFromSignature := tryFrom P.sigLen
  verifyWithContext vk m c s := decide (c.length ≤ 255) && decide (s = tag P vk (frame m c))
  verify vk m s := decide (s = tag P vk (frame m []))
  fromSeed := id
  toExpanded sk := pad P.skLen sk.val
  fromExpanded a := if a = pad P.skLen (a.val.take 32) then .ok (pad 32 a.val) else .error .malformedKey
  signDeterministic sk m c :=
    if c.length ≤ 255 then some (tag P (pad P.vkLen sk.val) (frame m c)) else none
  verifyingKey sk := pad P.vkLen sk.val

variable (P : ParamSet)

theorem sizesMatch : (crate P).SizesMatch P := ⟨rfl,rfl,rfl⟩

theorem keysBijective : (crate P).KeysBijective := ⟨fun _ => rfl,fun _ => rfl⟩

theorem traitsAgree : (crate P).TraitsAgree where
  verify_eq vk m s := by simp
  tryFrom_eq b := by cases h : tryFrom P.sigLen b <;> simp [h]

variable {P} in
theorem signDeterministic_eq {sk : Arr 32} {m c : Bytes} {s : Arr P.sigLen}
    (h : (crate P).signDeterministic sk m c = some s) :
    c.length ≤ 255 ∧ s = tag P (pad P.vkLen sk.val) (frame m c) := by
  by_cases hc : c.length ≤ 255
  · exact ⟨hc,(Option.some.inj ((if_pos hc).symm.trans h)).symm⟩
  · exact absurd ((if_neg hc).symm.trans h) (by simp)

theorem signingCorrect : (crate P).SigningCorrect where
  sign_some seed m c hc := ⟨_,if_pos hc⟩
  decode_encode seed m c s _ := rfl
  verify_sign seed m c s hs := by
    obtain ⟨hc,rfl⟩ := signDeterministic_eq hs
    simp [hc]

theorem expandedReadsBack (hP : 32 ≤ P.skLen) : (crate P).ExpandedReadsBack := by
  rintro ⟨seed,hseed⟩
  have hpad : (pad P.skLen seed).val = seed ++ List.replicate (P.skLen - 32) 0 := by
    rw [pad_val (by omega),hseed]
  have htake : (pad P.skLen seed).val.take 32 = seed := by
    rw [hpad,List.take_append_of_le_length (by omega),List.take_of_length_le (by omega)]
  have hcut : pad 32 (pad P.skLen seed).val = ⟨seed,hseed⟩ := by
    apply Subtype.ext
    rw [hpad]
    simp [pad,hseed]
  simp only [crate,id,htake,hcut,if_true]

def framing : (crate P).Framing where
  signFramed sk M := tag P (pad P.vkLen sk.val) M
  verifyFramed vk M s := decide (s = tag P vk M)
  sign_eq sk m c s _ hs := (signDeterministic_eq hs).2
  verify_eq vk m c s hc := by simp [hc]

theorem binds {P : ParamSet} (hP : P.sigLen < 256^8) (sk : Arr 32) {M M' : Bytes}
    (hM : M.length + 40 ≤ P.sigLen) (hM' : M'.length + 40 ≤ P.sigLen) :
    (framing P).Binds sk M M' := by
  intro s hs hv
  have he : s = tag P (pad P.vkLen sk.val) M := (Option.some.inj hs).symm
  have hv' : s = tag P (pad P.vkLen sk.val) M' := of_decide_eq_true hv
  exact tag_inj hP hM' hM (hv'.symm.trans he)

end SorobanMlDsa.TagCrate

import Ruxmsg.Messages
import Ruxmsg.Reference

namespace Ruxmsg

open Library.Cbor

def paddedTotal (content : List UInt8) (paddingLen : Nat) : Nat :=
  fixedLen content + bstrHeaderLen paddingLen + paddingLen + aeadTagSize

/-- What the search finds is the first aligned candidate; the induction is on
its fuel. -/
theorem paddingSearch_eq_ok {fixed fuel paddingLen n : Nat}
    (h : paddingSearch fixed fuel paddingLen = .ok n) :
    paddingLen ≤ n ∧ (fixed + bstrHeaderLen n + n + aeadTagSize) % defaultPaddingQuantum = 0 ∧
      ∀ m, paddingLen ≤ m → m < n →
        (fixed + bstrHeaderLen m + m + aeadTagSize) % defaultPaddingQuantum ≠ 0 := by
  induction fuel generalizing paddingLen with
  | zero =>
      rw [paddingSearch] at h
      split at h
      next haligned =>
        cases h
        exact ⟨le_rfl, haligned, by omega⟩
      next => cases h
  | succ fuel ih =>
      rw [paddingSearch] at h
      split at h
      next haligned =>
        cases h
        exact ⟨le_rfl, haligned, by omega⟩
      next hmissed =>
        obtain ⟨hle, haligned, hfirst⟩ := ih h
        refine ⟨by omega, haligned, fun m hlo hhi => ?_⟩
        by_cases hm : m = paddingLen
        · rw [hm]
          exact hmissed
        · exact hfirst m (by omega) hhi

/-- Residue 25 below the quantum falls into the jump of the header at 256 and
is met a quantum later; every other one is met before. -/
theorem exists_aligned (fixed : Nat) : ∃ target ≤ 278,
    (fixed + bstrHeaderLen target + target + aeadTagSize) % defaultPaddingQuantum = 0 := by
  have hq : defaultPaddingQuantum = 256 := rfl
  have htag : aeadTagSize = 16 := rfl
  have hr : (fixed + 16) % 256 < 256 := Nat.mod_lt _ (by decide)
  rw [hq, htag]
  by_cases hsmall : 232 ≤ (fixed + 16) % 256
  · have hhead : bstrHeaderLen (255 - (fixed + 16) % 256) = 1 := if_pos (by omega)
    refine ⟨255 - (fixed + 16) % 256, by omega, ?_⟩
    rw [hhead]
    omega
  · by_cases hjump : (fixed + 16) % 256 = 231
    · have hhead : bstrHeaderLen 278 = 3 := rfl
      refine ⟨278, le_rfl, ?_⟩
      rw [hhead]
      omega
    · have hhead : bstrHeaderLen (254 - (fixed + 16) % 256) = 2 := by
        rw [bstrHeaderLen, if_neg (by omega), if_pos (by omega)]
      refine ⟨254 - (fixed + 16) % 256, by omega, ?_⟩
      rw [hhead]
      omega

theorem bstrHeaderLen_eq {length : Nat} (major : Nat) (h : length < 2 ^ 32) :
    bstrHeaderLen length = (head major length).length := by
  rw [length_head, bstrHeaderLen]
  split_ifs <;> omega

theorem DataPlaintext.length_encode (p : DataPlaintext) (hc : p.content.length < 2 ^ 32)
    (hp : p.padding.length < 2 ^ 32) : (Value.map (keyed p.fields)).encode.length =
      fixedLen p.content + bstrHeaderLen p.padding.length + p.padding.length := by
  have hmap : (head 5 2).length = 1 := rfl
  have hzero : (Value.integer (0 : Nat)).encode.length = 1 := rfl
  have hone : (Value.integer (1 : Nat)).encode.length = 1 := rfl
  have hcontent : (Value.bytes p.content).encode.length =
      bstrHeaderLen p.content.length + p.content.length := by
    rw [Value.encode, List.length_append, bstrHeaderLen_eq 2 hc]
  have hpadding : (Value.bytes p.padding).encode.length =
      bstrHeaderLen p.padding.length + p.padding.length := by
    rw [Value.encode, List.length_append, bstrHeaderLen_eq 2 hp]
  rw [Value.encode]
  simp only [DataPlaintext.fields, keyed, List.map_cons, List.map_nil, encodeEntries,
    List.length_append, List.length_cons, List.length_nil, hmap, hzero, hone, hcontent, hpadding]
  rw [fixedLen]
  omega

section Codec

variable [Ciborium]

theorem DataPlaintext.encode_eq (rfc : Ciborium.Rfc8949) {p : DataPlaintext}
    (hc : p.content.length < 2 ^ 32) (hp : p.padding.length < 2 ^ 32) :
    p.encode = .ok (Value.map (keyed p.fields)).encode := by
  have hok := p.fieldsOk (by omega) (by omega)
  rw [DataPlaintext.encode, p.entries_eq, rfc.writes _ hok.map_encodable]
  rfl

/-- What the search computes for a candidate is the size of its encoding. -/
theorem encode_candidate (rfc : Ciborium.Rfc8949) {content : List UInt8}
    (hc : content.length ≤ maxContent) {n : Nat} (hn : n ≤ maxFrameSize) :
    ∃ bs, DataPlaintext.encode ⟨content, List.replicate n 0⟩ = .ok bs ∧
      paddedTotal content n = bs.length + aeadTagSize := by
  have hmax : maxContent = 65536 := rfl
  have hframe : maxFrameSize = 1048576 := rfl
  have hcontent : content.length < 2 ^ 32 := by omega
  have hpadding : (List.replicate n (0 : UInt8)).length < 2 ^ 32 := by
    rw [List.length_replicate]
    omega
  refine ⟨_, DataPlaintext.encode_eq rfc hcontent hpadding, ?_⟩
  rw [DataPlaintext.length_encode _ hcontent hpadding, List.length_replicate, paddedTotal]

/-- The padding aligns, no shorter one does, and it is taken off again. -/
theorem padding_is_minimal (rfc : Ciborium.Rfc8949) (content : List UInt8)
    (hc : content.length ≤ maxContent) :
    ∃ p bs, DataPlaintext.padded content = .ok p ∧ p.encode = .ok bs ∧
      (bs.length + 16) % 256 = 0 ∧ p.padding.length ≤ 278 ∧
      (∀ n < p.padding.length, ∀ shorter,
        DataPlaintext.encode ⟨content, List.replicate n 0⟩ = .ok shorter →
          (shorter.length + 16) % 256 ≠ 0) ∧
      (∃ decoded, DataPlaintext.decode bs = .ok decoded ∧ decoded.content = content) ∧
      ∀ n ≤ maxFrameSize, ∃ candidate,
        DataPlaintext.encode ⟨content, List.replicate n 0⟩ = .ok candidate ∧
          fixedLen content + bstrHeaderLen n + n + aeadTagSize = candidate.length + 16 := by
  have hframe : maxFrameSize = 1048576 := rfl
  have hcandidates (n : Nat) (hn : n ≤ maxFrameSize) := encode_candidate rfc hc hn
  obtain ⟨target, htarget, haligned⟩ := exists_aligned (fixedLen content)
  obtain ⟨n, hn, hsearch⟩ := paddingSearch_of_aligned (fixedLen content) target haligned
    maxFrameSize 0 (Nat.zero_le _) (by omega)
  obtain ⟨-, hfound, hfirst⟩ := paddingSearch_eq_ok hsearch
  have hpadded : DataPlaintext.padded content = .ok ⟨content, List.replicate n 0⟩ := by
    rw [DataPlaintext.padded, if_neg (by omega), hsearch]
    rfl
  obtain ⟨bs, hencode, htotal⟩ := hcandidates n (by omega)
  obtain ⟨p, hp, hpad⟩ := padded_isOk hc
  obtain rfl := Except.ok.inj (hpadded.symm.trans hp)
  obtain ⟨bs', hencode', -, hdecode⟩ := hpad.encode_isOk rfc
  obtain rfl := Except.ok.inj (hencode.symm.trans hencode')
  refine ⟨_, bs, hpadded, hencode, ?_, ?_, ?_, ⟨_, hdecode, rfl⟩, hcandidates⟩
  · exact (congrArg (· % 256) htotal.symm).trans hfound
  · rw [List.length_replicate]
    omega
  · intro m hm shorter hshorter
    rw [List.length_replicate] at hm
    obtain ⟨candidate, hcandidate, hsize⟩ := hcandidates m (by omega)
    obtain rfl := Except.ok.inj (hshorter.symm.trans hcandidate)
    exact fun hz => hfirst m (Nat.zero_le _) hm ((congrArg (· % 256) hsize).trans hz)

end Codec

open Sample in
/-- A content at the residue that the jump of the header skips. -/
theorem padding_is_minimal_sample : ∃ p bs,
    DataPlaintext.padded (List.replicate 210 7) = .ok p ∧ p.encode = .ok bs ∧
      (bs.length + 16) % 256 = 0 ∧ p.padding.length ≤ 278 := by
  obtain ⟨p, bs, hpadded, hencode, haligned, hle, -⟩ :=
    padding_is_minimal Ciborium.reference_rfc8949 (List.replicate 210 7)
      (List.length_replicate.trans_le (by decide))
  exact ⟨p, bs, hpadded, hencode, haligned, hle⟩

end Ruxmsg

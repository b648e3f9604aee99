import Ruxmsg.Crypto
import Ruxmsg.Library.Bits
import Ruxmsg.Reference

namespace Ruxmsg

open Library.Bits

def bitsOf (bytes : List UInt8) : List Bool := bytes.flatMap fun byte => bits 8 byte.toNat

/-- The bits of a transcript hash that its words carry. -/
def sasBits (transcriptHash : Bytes 32) : List Bool := (bitsOf transcriptHash.val).take 33

theorem length_bitsOf (bytes : List UInt8) : (bitsOf bytes).length = 8 * bytes.length := by
  induction bytes with
  | nil => rfl
  | cons byte bytes ih =>
      rw [bitsOf, List.flatMap_cons, List.length_append, length_bits, ← bitsOf, ih, List.length_cons]
      omega

theorem length_sasBits (transcriptHash : Bytes 32) : (sasBits transcriptHash).length = 33 := by
  rw [sasBits, List.length_take, length_bitsOf, transcriptHash.property]
  rfl

theorem sasBits_eq {b0 b1 b2 b3 b4 : UInt8} {rest : List UInt8} {transcriptHash : Bytes 32}
    (h : transcriptHash.val = b0 :: b1 :: b2 :: b3 :: b4 :: rest) :
    sasBits transcriptHash = bits 8 b0.toNat ++ (bits 8 b1.toNat ++ (bits 8 b2.toNat ++
      (bits 8 b3.toNat ++ [b4.toNat.testBit 7]))) := by
  rw [sasBits, h]
  rfl

theorem shift_or {a b : Nat} (i k : Nat) (hb : b < 2 ^ i) :
    a <<< (i + k) ||| b <<< k = (a * 2 ^ i + b) <<< k := by
  rw [← Nat.shiftLeft_eq, Nat.shiftLeft_add_eq_or_of_lt hb, Nat.shiftLeft_or_distrib, Nat.shiftLeft_add]

theorem packed_eq {b0 b1 b2 b3 b4 : Nat} (h1 : b1 < 2 ^ 8) (h2 : b2 < 2 ^ 8) (h3 : b3 < 2 ^ 8)
    (h4 : b4 < 2 ^ 8) :
    (b0 <<< 25) ||| (b1 <<< 17) ||| (b2 <<< 9) ||| (b3 <<< 1) ||| (b4 >>> 7) =
      (((b0 * 2 ^ 8 + b1) * 2 ^ 8 + b2) * 2 ^ 8 + b3) * 2 + b4 / 2 ^ 7 := by
  have htop : b4 / 2 ^ 7 < 2 ^ 1 := by omega
  rw [shift_or 8 17 h1, shift_or 8 9 h2, shift_or 8 1 h3, Nat.shiftRight_eq_div_pow,
    ← Nat.shiftLeft_add_eq_or_of_lt htop, Nat.shiftLeft_eq, Nat.pow_one]

theorem indices_of_packed {n : Nat} (h : n < 2 ^ 33) :
    ((n >>> 22) &&& 0x7ff) * 2 ^ 22 + ((n >>> 11) &&& 0x7ff) * 2 ^ 11 + (n &&& 0x7ff) = n := by
  have hmask (m : Nat) : m &&& 0x7ff = m % 2 ^ 11 := Nat.and_two_pow_sub_one_eq_mod m 11
  rw [hmask, hmask, hmask, Nat.shiftRight_eq_div_pow, Nat.shiftRight_eq_div_pow]
  omega

theorem toNat_testBit_seven (byte : UInt8) : (byte.toNat.testBit 7).toNat = byte.toNat / 2 ^ 7 := by
  have hlt : byte.toNat < 2 ^ 8 := byte.toNat_lt
  rw [Nat.testBit_eq_decide_div_mod_eq]
  rcases Nat.mod_two_eq_zero_or_one (byte.toNat / 2 ^ 7) with h | h <;> rw [h] <;> simp <;> omega

/-- The indices are the first 33 bits. -/
theorem sasIndices_eq (transcriptHash : Bytes 32) :
    (sasIndices transcriptHash).first * 2 ^ 22 + (sasIndices transcriptHash).second * 2 ^ 11 +
      (sasIndices transcriptHash).third = value (sasBits transcriptHash) := by
  obtain ⟨b0, b1, b2, b3, b4, rest, h⟩ : ∃ b0 b1 b2 b3 b4 rest,
      transcriptHash.val = b0 :: b1 :: b2 :: b3 :: b4 :: rest := by
    obtain ⟨bytes, hlen⟩ := transcriptHash
    rcases bytes with _ | ⟨b0, _ | ⟨b1, _ | ⟨b2, _ | ⟨b3, _ | ⟨b4, rest⟩⟩⟩⟩⟩
    all_goals first | exact ⟨b0, b1, b2, b3, b4, rest, rfl⟩ | cases hlen
  have hlt := value_lt (sasBits transcriptHash)
  have hbyte (byte : UInt8) : byte.toNat < 2 ^ 8 := byte.toNat_lt
  have hvalue : value (sasBits transcriptHash) =
      (((b0.toNat * 2 ^ 8 + b1.toNat) * 2 ^ 8 + b2.toNat) * 2 ^ 8 + b3.toNat) * 2 + b4.toNat / 2 ^ 7 := by
    rw [sasBits_eq h, value_append, value_append, value_append, value_append, value_cons]
    simp only [value_bits, Nat.mod_eq_of_lt (hbyte _), toNat_testBit_seven, List.length_append,
      length_bits, List.length_cons, List.length_nil]
    rw [value, List.foldl_nil]
    ring
  rw [length_sasBits, hvalue] at hlt
  rw [hvalue, sasIndices, h]
  simp only [List.getD_cons_zero, List.getD_cons_succ]
  rw [packed_eq (hbyte _) (hbyte _) (hbyte _) (hbyte _)]
  exact indices_of_packed hlt

theorem sasIndices_inj {transcriptHash other : Bytes 32}
    (h : (sasIndices transcriptHash).first * 2 ^ 22 + (sasIndices transcriptHash).second * 2 ^ 11 +
        (sasIndices transcriptHash).third =
      (sasIndices other).first * 2 ^ 22 + (sasIndices other).second * 2 ^ 11 + (sasIndices other).third) :
    sasIndices transcriptHash = sasIndices other := by
  have h1 : (sasIndices transcriptHash).second < 2048 := and_mask_lt _
  have h2 : (sasIndices transcriptHash).third < 2048 := and_mask_lt _
  have h3 : (sasIndices other).second < 2048 := and_mask_lt _
  have h4 : (sasIndices other).third < 2048 := and_mask_lt _
  generalize sasIndices transcriptHash = i at *
  generalize sasIndices other = j at *
  obtain ⟨a, b, c⟩ := i
  obtain ⟨a', b', c'⟩ := j
  dsimp only at h h1 h2 h3 h4
  obtain ⟨rfl, rfl, rfl⟩ : a = a' ∧ b = b' ∧ c = c' := by omega
  rfl

theorem sasWords_inj [Primitives] (hwords : Function.Injective Primitives.wordList)
    {transcriptHash other : Bytes 32} :
    sasWords transcriptHash = sasWords other ↔ sasIndices transcriptHash = sasIndices other := by
  constructor
  · intro h
    simp only [sasWords, List.cons.injEq, hwords.eq_iff, and_true] at h
    obtain ⟨h1, h2, h3⟩ := h
    have hfirst : (sasIndices transcriptHash).first = (sasIndices other).first := congrArg Fin.val h1
    have hsecond : (sasIndices transcriptHash).second = (sasIndices other).second := congrArg Fin.val h2
    have hthird : (sasIndices transcriptHash).third = (sasIndices other).third := congrArg Fin.val h3
    apply sasIndices_inj
    rw [hfirst, hsecond, hthird]
  · intro h
    simp only [sasWords, h]

/-- The three words carry exactly the first 33 bits of the transcript hash. -/
theorem sas_carries_33_bits [Primitives] (transcriptHash : Bytes 32) :
    (sasIndices transcriptHash).first < 2048 ∧ (sasIndices transcriptHash).second < 2048 ∧
    (sasIndices transcriptHash).third < 2048 ∧
    (sasIndices transcriptHash).first * 2 ^ 22 + (sasIndices transcriptHash).second * 2 ^ 11 +
      (sasIndices transcriptHash).third = value ((bitsOf transcriptHash.val).take 33) ∧
    (Function.Injective Primitives.wordList → ∀ other : Bytes 32,
      sasWords transcriptHash = sasWords other ↔
        (bitsOf transcriptHash.val).take 33 = (bitsOf other.val).take 33) := by
  refine ⟨and_mask_lt _, and_mask_lt _, and_mask_lt _, sasIndices_eq transcriptHash, ?_⟩
  intro hwords other
  rw [sasWords_inj hwords, ← sasBits, ← sasBits,
    ← value_inj ((length_sasBits _).trans (length_sasBits _).symm), ← sasIndices_eq, ← sasIndices_eq]
  constructor
  · intro h
    rw [h]
  · exact sasIndices_inj

end Ruxmsg

namespace Ruxmsg

@[reducible] def Primitives.spelled : Primitives :=
  { Primitives.plain with wordList := fun index => String.ofList (List.replicate index.val 'a') }

theorem Primitives.spelled_injective : Function.Injective Primitives.spelled.wordList := by
  intro i j h
  have hlen := congrArg List.length (String.ofList_injective h)
  rw [List.length_replicate, List.length_replicate] at hlen
  exact Fin.ext hlen

theorem sas_carries_33_bits_spelled :
    @sasWords Primitives.spelled (Bytes.replicate 32 5) ≠ @sasWords Primitives.spelled (Bytes.replicate 32 7) := by
  intro h
  exact absurd ((((@sas_carries_33_bits Primitives.spelled (Bytes.replicate 32 5)).2.2.2.2)
    Primitives.spelled_injective (Bytes.replicate 32 7)).1 h) (by decide)

end Ruxmsg

import Ruxmsg.Library.Cbor
import Mathlib.Data.List.Sort

namespace Ruxmsg.Library.Cbor

/-- The order of map keys in deterministic encodings: bytewise, by the
encodings of the keys. -/
def KeyLt (a b : Value × Value) : Prop := a.1.encode < b.1.encode

instance : DecidableRel KeyLt := fun a b => inferInstanceAs (Decidable (a.1.encode < b.1.encode))

mutual

/-- Every map, at every level, has its keys in ascending order, each once. -/
def Value.Deterministic : Value → Prop
  | .integer _ => True
  | .bytes _ => True
  | .text _ => True
  | .array items => ItemsDeterministic items
  | .map entries => entries.Pairwise KeyLt ∧ EntriesDeterministic entries

def ItemsDeterministic : List Value → Prop
  | [] => True
  | v :: vs => v.Deterministic ∧ ItemsDeterministic vs

def EntriesDeterministic : List (Value × Value) → Prop
  | [] => True
  | (k, v) :: es => k.Deterministic ∧ v.Deterministic ∧ EntriesDeterministic es

end

mutual

/-- The data that a value stands for, whatever order its maps came in: every
map put in the order of its keys. -/
def Value.data : Value → Value
  | .integer i => .integer i
  | .bytes b => .bytes b
  | .text s => .text s
  | .array items => .array (itemsData items)
  | .map entries => .map ((entriesData entries).insertionSort fun a b => a.1.encode ≤ b.1.encode)

def itemsData : List Value → List Value
  | [] => []
  | v :: vs => v.data :: itemsData vs

def entriesData : List (Value × Value) → List (Value × Value)
  | [] => []
  | (k, v) :: es => (k.data, v.data) :: entriesData es

end

mutual

theorem data_of_deterministic (v : Value) (h : v.Deterministic) : v.data = v := by
  cases v with
  | integer | bytes | text => rfl
  | array items => rw [Value.data, itemsData_of_deterministic items h]
  | map entries =>
      rw [Value.data, entriesData_of_deterministic entries h.2, List.Pairwise.insertionSort_eq]
      exact h.1.imp fun hlt => List.le_of_lt hlt

theorem itemsData_of_deterministic (vs : List Value) (h : ItemsDeterministic vs) :
    itemsData vs = vs := by
  match vs with
  | [] => rfl
  | v :: vs => rw [itemsData, data_of_deterministic v h.1, itemsData_of_deterministic vs h.2]

theorem entriesData_of_deterministic (es : List (Value × Value)) (h : EntriesDeterministic es) :
    entriesData es = es := by
  match es with
  | [] => rfl
  | (k, v) :: es =>
      rw [entriesData, data_of_deterministic k h.1, data_of_deterministic v h.2.1,
        entriesData_of_deterministic es h.2.2]

end

section Integers

theorem append_lt_append {a b x y : List UInt8} (hlen : a.length = b.length)
    (h : a < b ∨ a = b ∧ x < y) : a ++ x < b ++ y := by
  induction a generalizing b with
  | nil =>
      obtain rfl := List.length_eq_zero_iff.1 hlen.symm
      obtain h | ⟨-, h⟩ := h
      · exact absurd h (List.not_lt_nil _)
      · exact h
  | cons c a ih =>
      cases b with
      | nil => cases hlen
      | cons d b =>
          have htail : a.length = b.length := Nat.succ.inj hlen
          rw [List.cons_append, List.cons_append, List.cons_lt_cons_iff]
          rw [List.cons_lt_cons_iff, List.cons.injEq] at h
          obtain (h | ⟨rfl, h⟩) | ⟨⟨rfl, h⟩, hxy⟩ := h
          · exact .inl h
          · exact .inr ⟨rfl, ih htail (.inl h)⟩
          · exact .inr ⟨rfl, ih htail (.inr ⟨h, hxy⟩)⟩

theorem ofNat_lt_ofNat {m n : Nat} (h : m < n) (hn : n < 256) : UInt8.ofNat m < UInt8.ofNat n := by
  rw [UInt8.lt_iff_toNat_lt, UInt8.toNat_ofNat_of_lt' (h.trans hn), UInt8.toNat_ofNat_of_lt' hn]
  exact h

theorem beBytes_lt_beBytes (k : Nat) {m n : Nat} (h : m < n) (hn : n < 256 ^ k) :
    beBytes k m < beBytes k n := by
  induction k generalizing m n with
  | zero =>
      rw [Nat.pow_zero] at hn
      omega
  | succ k ih =>
      rw [Nat.pow_succ] at hn
      have hq : n / 256 < 256 ^ k := Nat.div_lt_of_lt_mul (by rwa [Nat.mul_comm] at hn)
      rw [beBytes, beBytes]
      apply append_lt_append (by rw [length_beBytes, length_beBytes])
      by_cases hfront : m / 256 = n / 256
      · refine .inr ⟨by rw [hfront], ?_⟩
        have hm : UInt8.ofNat m = UInt8.ofNat (m % 256) := by
          apply UInt8.toNat.inj
          simp
        have hn : UInt8.ofNat n = UInt8.ofNat (n % 256) := by
          apply UInt8.toNat.inj
          simp
        rw [List.cons_lt_cons_iff, hm, hn]
        exact .inl (ofNat_lt_ofNat (by omega) (by omega))
      · exact .inl (ih (by omega) hq)

/-- The first byte of an unsigned integer, and how many bytes follow it. -/
def headInfo (n : Nat) : Nat × Nat :=
  if n < 24 then (n, 0) else if n < 256 then (24, 1) else if n < 65536 then (25, 2)
  else if n < 4294967296 then (26, 4) else (27, 8)

theorem head_zero_eq (n : Nat) :
    head 0 n = UInt8.ofNat (headInfo n).1 :: beBytes (headInfo n).2 n := by
  rw [head, headInfo]
  split_ifs <;> simp [beBytes]

/-- Unsigned integers are ordered like their encodings. -/
theorem head_zero_lt {m n : Nat} (h : m < n) (hn : n < 2 ^ 64) : head 0 m < head 0 n := by
  rw [head_zero_eq, head_zero_eq, List.cons_lt_cons_iff]
  have hcases : (headInfo m).1 < (headInfo n).1 ∨ headInfo m = headInfo n ∧
      n < 256 ^ (headInfo n).2 := by
    unfold headInfo
    split_ifs <;> first | (left; omega) | (right; refine ⟨rfl, ?_⟩; omega)
  have hfirst : (headInfo n).1 < 256 := by
    rw [headInfo]
    split_ifs <;> omega
  obtain hlt | ⟨heq, hwide⟩ := hcases
  · exact .inl (ofNat_lt_ofNat hlt hfirst)
  · rw [heq]
    exact .inr ⟨rfl, beBytes_lt_beBytes _ h hwide⟩

theorem encode_natCast (n : Nat) : (Value.integer n).encode = head 0 n := by
  rw [Value.encode, if_pos (Int.natCast_nonneg n), Int.toNat_natCast]

theorem encode_lt_iff {m n : Nat} (hm : m < 2 ^ 64) (hn : n < 2 ^ 64) :
    (Value.integer m).encode < (Value.integer n).encode ↔ m < n := by
  rw [encode_natCast, encode_natCast]
  constructor
  · intro h
    by_contra hle
    obtain hlt | rfl := lt_or_eq_of_le (Nat.le_of_not_lt hle)
    · exact List.lt_asymm h (head_zero_lt hlt hm)
    · exact List.lt_irrefl _ h
  · intro h
    exact head_zero_lt h hn

end Integers

end Ruxmsg.Library.Cbor

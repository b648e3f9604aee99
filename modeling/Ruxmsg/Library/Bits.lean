import Mathlib.Data.Nat.Bitwise
import Mathlib.Tactic.Ring

namespace Ruxmsg.Library.Bits

variable {a b bs : List Bool} {n w : ℕ}

/-- The number a list of bits spells, most significant bit first. -/
def value (bs : List Bool) : ℕ := bs.foldl (fun n b => 2 * n + b.toNat) 0

/-- The `w` lowest bits of a number, most significant bit first. -/
def bits : ℕ → ℕ → List Bool
  | 0, _ => []
  | w + 1, n => n.testBit w :: bits w n

theorem foldl_value (bs : List Bool) (n : ℕ) :
    bs.foldl (fun n b => 2 * n + b.toNat) n = n * 2 ^ bs.length + value bs := by
  induction bs generalizing n with
  | nil => simp [value]
  | cons b bs ih =>
      rw [value, List.foldl_cons, List.foldl_cons, ih, ih, List.length_cons, Nat.pow_succ]
      ring

theorem value_append (a b : List Bool) : value (a ++ b) = value a * 2 ^ b.length + value b := by
  rw [value, List.foldl_append, foldl_value]
  rfl

theorem value_cons (b : Bool) (bs : List Bool) : value (b :: bs) = b.toNat * 2 ^ bs.length + value bs := by
  rw [← List.singleton_append, value_append]
  simp [value]

theorem value_lt (bs : List Bool) : value bs < 2 ^ bs.length := by
  induction bs with
  | nil => exact Nat.one_pos
  | cons b bs ih =>
      rw [value_cons, List.length_cons, Nat.pow_succ]
      cases b <;> simp <;> omega

theorem value_inj (hlen : a.length = b.length) : value a = value b ↔ a = b := by
  constructor
  · intro h
    induction a generalizing b with
    | nil => exact (List.length_eq_zero_iff.1 hlen.symm).symm
    | cons x a ih =>
        obtain _ | ⟨y, b⟩ := b
        · cases hlen
        have hlen' : a.length = b.length := Nat.succ.inj hlen
        have ha := value_lt a
        have hb := value_lt b
        rw [value_cons, value_cons, hlen'] at h
        rw [hlen'] at ha
        obtain ⟨rfl, hab⟩ : x = y ∧ value a = value b := by
          cases x <;> cases y <;> simp at h ⊢ <;> omega
        rw [ih hlen' hab]
  · rintro rfl
    rfl

@[simp] theorem length_bits (w n : ℕ) : (bits w n).length = w := by
  induction w with
  | zero => rfl
  | succ w ih => rw [bits, List.length_cons, ih]

theorem value_bits (w n : ℕ) : value (bits w n) = n % 2 ^ w := by
  induction w with
  | zero => simp [bits, value, Nat.mod_one]
  | succ w ih =>
      rw [bits, value_cons, ih, length_bits, Nat.testBit_eq_decide_div_mod_eq, Nat.mod_pow_succ]
      rcases Nat.mod_two_eq_zero_or_one (n / 2 ^ w) with h | h <;> rw [h] <;> simp
      omega

end Ruxmsg.Library.Bits

import Mathlib.Data.Nat.Bitwise
import Mathlib.Data.Set.Insert
import Mathlib.Order.Bounds.Basic

namespace Ruxmsg.Library.Window

variable {width bits top c : ℕ} {A : Set ℕ}

/-- A bitmap of the last `width` numbers of a set with greatest number `top`:
bit `d` stands for `top - d`. -/
structure Marks (width bits top : ℕ) (A : Set ℕ) : Prop where
  greatest : IsGreatest A top
  testBit : ∀ d < width, bits.testBit d = true ↔ d ≤ top ∧ top - d ∈ A

theorem Marks.mem_iff (h : Marks width bits top A) (hc : c ≤ top) (hw : top - c < width) :
    bits.testBit (top - c) = true ↔ c ∈ A := by
  rw [h.testBit _ hw, Nat.sub_sub_self hc]
  exact and_iff_right (Nat.sub_le top c)

theorem and_shiftLeft_ne_zero (bits d : ℕ) : bits &&& (1 <<< d) ≠ 0 ↔ bits.testBit d = true := by
  rw [Nat.one_shiftLeft, Nat.and_two_pow]
  cases bits.testBit d with
  | false => simp
  | true => simp

theorem testBit_or_shiftLeft (bits d e : ℕ) :
    (bits ||| 1 <<< e).testBit d = true ↔ bits.testBit d = true ∨ d = e := by
  rw [Nat.testBit_or, Nat.one_shiftLeft, Nat.testBit_two_pow, Bool.or_eq_true, decide_eq_true_iff]
  exact or_congr_right eq_comm

theorem marks_singleton : Marks width 1 c {c} := by
  constructor
  · exact isGreatest_singleton
  · intro d _
    rw [Nat.testBit_one_eq_true_iff_self_eq_zero, Set.mem_singleton_iff]
    omega

theorem Marks.insert_old (h : Marks width bits top A) (hc : c ≤ top) :
    Marks width (bits ||| 1 <<< (top - c)) top (insert c A) := by
  constructor
  · constructor
    · exact Set.mem_insert_of_mem c h.greatest.1
    · intro a ha
      rcases Set.mem_insert_iff.1 ha with rfl | ha
      · exact hc
      · exact h.greatest.2 ha
  · intro d hd
    rw [testBit_or_shiftLeft, h.testBit d hd, Set.mem_insert_iff]
    constructor
    · rintro (⟨hle, hm⟩ | rfl)
      · exact ⟨hle, .inr hm⟩
      · exact ⟨Nat.sub_le top c, .inl (Nat.sub_sub_self hc)⟩
    · rintro ⟨hle, rfl | hm⟩
      · right
        omega
      · exact .inl ⟨hle, hm⟩

theorem Marks.greatest_insert (h : Marks width bits top A) (hc : top < c) :
    IsGreatest (insert c A) c := by
  constructor
  · exact Set.mem_insert c A
  · intro a ha
    rcases Set.mem_insert_iff.1 ha with rfl | ha
    · exact le_rfl
    · exact (h.greatest.2 ha).trans hc.le

/-- A number above the top that is still in reach of the old bits. -/
theorem Marks.slide (h : Marks width bits top A) (hc : top < c) :
    Marks width ((bits <<< (c - top)) % 2 ^ width ||| 1) c (insert c A) := by
  constructor
  · exact h.greatest_insert hc
  · intro d hd
    have hone : ((1 : ℕ).testBit d = true) ↔ d = 0 := Nat.testBit_one_eq_true_iff_self_eq_zero
    rw [Nat.testBit_or, Bool.or_eq_true, hone, Nat.testBit_mod_two_pow, Nat.testBit_shiftLeft,
      Set.mem_insert_iff]
    simp only [hd, decide_true, Bool.true_and, Bool.and_eq_true, decide_eq_true_eq, ge_iff_le]
    constructor
    · rintro (⟨hle, hbit⟩ | rfl)
      · obtain ⟨hd', hm⟩ := (h.testBit _ (by omega)).1 hbit
        have he : top - (d - (c - top)) = c - d := by omega
        rw [he] at hm
        exact ⟨by omega, .inr hm⟩
      · exact ⟨Nat.zero_le c, .inl (Nat.sub_zero c)⟩
    · rintro ⟨hle, heq | hm⟩
      · right
        omega
      · have hle' : c - d ≤ top := h.greatest.2 hm
        have he : top - (d - (c - top)) = c - d := by omega
        left
        refine ⟨by omega, (h.testBit _ (by omega)).2 ⟨by omega, ?_⟩⟩
        rw [he]
        exact hm

/-- A number so far above the top that no old bit stays in reach. -/
theorem Marks.jump (h : Marks width bits top A) (hlt : top < c) (hc : width ≤ c - top) :
    Marks width 1 c (insert c A) := by
  constructor
  · exact h.greatest_insert hlt
  · intro d hd
    rw [Nat.testBit_one_eq_true_iff_self_eq_zero, Set.mem_insert_iff]
    constructor
    · rintro rfl
      exact ⟨Nat.zero_le c, .inl (Nat.sub_zero c)⟩
    · rintro ⟨hle, heq | hm⟩
      · omega
      · have hle' : c - d ≤ top := h.greatest.2 hm
        omega

end Ruxmsg.Library.Window

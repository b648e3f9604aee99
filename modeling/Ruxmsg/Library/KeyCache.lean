import Mathlib.Data.Finset.Card
import Mathlib.Order.Interval.Finset.Nat

namespace Ruxmsg.Library.KeyCache

/-- What a key cache may hold: at most `gap` keys are skipped for one target,
at most `capacity` are held, and `last` never gets a key. -/
structure Limits where
  gap : ℕ
  capacity : ℕ
  last : ℕ

/-- The keys of `0, 1, 2, …`, derived in order up to `next`; those that have
not been taken are held. -/
@[ext] structure Cache where
  next : ℕ
  held : Finset ℕ
  held_lt : ∀ n ∈ held, n < next

variable {limits : Limits} {c : Cache} {m n : ℕ}

def Cache.empty : Cache := { next := 0, held := ∅, held_lt := by simp }

/-- The key of `n` can be had. -/
def Cache.Ready (limits : Limits) (c : Cache) (n : ℕ) : Prop :=
  n ∈ c.held ∨ (c.next ≤ n ∧ n ≠ limits.last ∧ n - c.next ≤ limits.gap ∧
    c.held.card + (n - c.next) + 1 ≤ limits.capacity)

def Cache.prepare (c : Cache) (n : ℕ) : Cache :=
  { next := max c.next (n + 1)
    held := c.held ∪ Finset.Ico c.next (n + 1)
    held_lt := by
      intro m hm
      rcases Finset.mem_union.1 hm with hm | hm
      · exact (c.held_lt m hm).trans_le (le_max_left _ _)
      · exact (Finset.mem_Ico.1 hm).2.trans_le (le_max_right _ _) }

def Cache.take (c : Cache) (n : ℕ) : Cache :=
  { c with
    held := c.held.erase n
    held_lt := fun m hm => c.held_lt m (Finset.mem_of_mem_erase hm) }

theorem Cache.mem_prepare : m ∈ (c.prepare n).held ↔ m ∈ c.held ∨ (c.next ≤ m ∧ m ≤ n) := by
  rw [prepare, Finset.mem_union, Finset.mem_Ico, Nat.lt_succ_iff]

theorem Cache.prepare_of_lt (h : n < c.next) : c.prepare n = c := by
  ext m
  · exact max_eq_left h
  · rw [mem_prepare]
    constructor
    · rintro (hm | hm)
      · exact hm
      · omega
    · exact .inl

theorem Cache.next_prepare (h : c.next ≤ n) : (c.prepare n).next = n + 1 :=
  max_eq_right (Nat.le_succ_of_le h)

theorem Cache.prepare_prepare (h : m ≤ n) : (c.prepare m).prepare n = c.prepare n := by
  ext k
  · simp only [prepare]
    omega
  · have hnext : (c.prepare m).next = max c.next (m + 1) := rfl
    rw [mem_prepare, mem_prepare, mem_prepare, hnext, or_assoc]
    apply or_congr_right
    omega

theorem Cache.card_prepare (h : c.next ≤ n) :
    (c.prepare n).held.card = c.held.card + (n - c.next) + 1 := by
  have hdisjoint : Disjoint c.held (Finset.Ico c.next (n + 1)) := by
    rw [Finset.disjoint_left]
    intro m hm hm'
    exact absurd (c.held_lt m hm) (Nat.not_lt.2 (Finset.mem_Ico.1 hm').1)
  rw [prepare, Finset.card_union_of_disjoint hdisjoint, Nat.card_Ico]
  omega

theorem Cache.mem_take : m ∈ (c.take n).held ↔ m ≠ n ∧ m ∈ c.held := Finset.mem_erase

theorem Cache.card_take (h : n ∈ c.held) : (c.take n).held.card + 1 = c.held.card :=
  Finset.card_erase_add_one h

/-- What is prepared for one counter takes nothing from another: the keys
derived early are not derived again, so gap and room add up as before. -/
theorem Cache.Ready.prepare (h : c.Ready limits n) (m : ℕ) : (c.prepare m).Ready limits n := by
  by_cases hm : m < c.next
  · rw [c.prepare_of_lt hm]
    exact h
  have hle : c.next ≤ m := Nat.le_of_not_lt hm
  rcases h with hheld | ⟨hnext, hlast, hgap, hroom⟩
  · left
    exact Cache.mem_prepare.2 (.inl hheld)
  by_cases hn : n ≤ m
  · left
    exact Cache.mem_prepare.2 (.inr ⟨hnext, hn⟩)
  · right
    rw [Cache.next_prepare hle, Cache.card_prepare hle]
    refine ⟨?_, hlast, ?_, ?_⟩ <;> omega

theorem Cache.Ready.take (h : c.Ready limits n) (hn : n ≠ m) : (c.take m).Ready limits n := by
  rcases h with hheld | ⟨hnext, hlast, hgap, hroom⟩
  · left
    exact Cache.mem_take.2 ⟨hn, hheld⟩
  · right
    have hcard : (c.take m).held.card ≤ c.held.card := Finset.card_le_card (Finset.erase_subset m c.held)
    exact ⟨hnext, hlast, hgap, (Nat.add_le_add_right (Nat.add_le_add_right hcard _) 1).trans hroom⟩

/-- One key more than the gap is the most that is derived at once. -/
theorem Cache.Ready.next_prepare_le (h : c.Ready limits n) :
    (c.prepare n).next ≤ c.next + (limits.gap + 1) := by
  rcases h with hheld | ⟨hnext, -, hgap, -⟩
  · rw [Cache.prepare_of_lt (c.held_lt n hheld)]
    omega
  · rw [Cache.next_prepare hnext]
    omega

structure Cache.Within (limits : Limits) (c : Cache) : Prop where
  held_le : c.held.card ≤ limits.capacity
  next_le : c.next ≤ limits.last

theorem Cache.within_empty : Cache.empty.Within limits :=
  ⟨Nat.zero_le _, Nat.zero_le _⟩

theorem Cache.Within.prepare (h : c.Within limits) (hready : c.Ready limits n) (hn : n ≤ limits.last) :
    (c.prepare n).Within limits := by
  rcases hready with hheld | ⟨hnext, hlast, -, hroom⟩
  · rw [Cache.prepare_of_lt (c.held_lt n hheld)]
    exact h
  · refine ⟨?_, ?_⟩
    · rw [Cache.card_prepare hnext]
      exact hroom
    · rw [Cache.next_prepare hnext]
      omega

theorem Cache.Within.take (h : c.Within limits) (n : ℕ) : (c.take n).Within limits :=
  ⟨(Finset.card_le_card (Finset.erase_subset n c.held)).trans h.held_le, h.next_le⟩

theorem Cache.not_ready_of_taken (hlt : n < c.next) (h : n ∉ c.held) : ¬ c.Ready limits n := by
  rintro (hheld | ⟨hnext, -⟩)
  · exact h hheld
  · omega

end Ruxmsg.Library.KeyCache

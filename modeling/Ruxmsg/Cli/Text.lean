import Mathlib.Algebra.Ring.Nat
import Ruxmsg.Library.Suffix

namespace Ruxmsg.Cli

open Library.Suffix

/-- A text, character by character. Positions and lengths in it count the bytes
of its UTF-8 form. -/
abbrev Text := List Char

namespace Text

variable {text p q : Text} {n : Nat}

def len (text : Text) : Nat := (text.map Char.utf8Size).sum

def isCharBoundary : Text → Nat → Bool
  | _, 0 => true
  | [], _ + 1 => false
  | c :: text, n + 1 => c.utf8Size ≤ n + 1 && isCharBoundary text (n + 1 - c.utf8Size)

/-- The bytes before a position; a position inside a character panics. -/
def slice : Text → Nat → Option Text
  | _, 0 => some []
  | [], _ + 1 => none
  | c :: text, n + 1 =>
      if c.utf8Size ≤ n + 1 then (slice text (n + 1 - c.utf8Size)).map (c :: ·) else none

@[simp] theorem len_nil : len [] = 0 := rfl

@[simp] theorem len_cons (c : Char) (text : Text) : len (c :: text) = c.utf8Size + len text := by
  rw [len, List.map_cons, List.sum_cons, ← len]

@[simp] theorem len_append (p q : Text) : len (p ++ q) = len p + len q := by
  rw [len, List.map_append, List.sum_append, ← len, ← len]

theorem isCharBoundary_cons (c : Char) (text : Text) (n : Nat) :
    isCharBoundary (c :: text) (c.utf8Size + n) = isCharBoundary text n := by
  obtain ⟨m, hm⟩ : ∃ m, c.utf8Size + n = m + 1 := ⟨c.utf8Size + n - 1, by have := c.utf8Size_pos; omega⟩
  have hle : c.utf8Size ≤ m + 1 := by omega
  have hsub : m + 1 - c.utf8Size = n := by omega
  rw [hm, isCharBoundary, hsub, decide_eq_true hle, Bool.true_and]

theorem slice_cons (c : Char) (text : Text) (n : Nat) :
    slice (c :: text) (c.utf8Size + n) = (slice text n).map (c :: ·) := by
  obtain ⟨m, hm⟩ : ∃ m, c.utf8Size + n = m + 1 := ⟨c.utf8Size + n - 1, by have := c.utf8Size_pos; omega⟩
  have hle : c.utf8Size ≤ m + 1 := by omega
  have hsub : m + 1 - c.utf8Size = n := by omega
  rw [hm, slice, hsub, if_pos hle]

theorem len_ascii (h : ∀ c ∈ text, c.toNat < 128) : len text = List.length text := by
  induction text with
  | nil => rfl
  | cons c text ih =>
      have hc : c.utf8Size = 1 :=
        Char.utf8Size_eq_one_iff.2 (UInt32.le_iff_toNat_le.2 (Nat.le_of_lt_succ (h c List.mem_cons_self)))
      rw [len_cons, hc, ih fun c hc => h c (List.mem_cons_of_mem _ hc), List.length_cons, Nat.add_comm]

/-- The character boundaries are the lengths of the prefixes. -/
theorem isCharBoundary_iff : isCharBoundary text n = true ↔ ∃ p, p <+: text ∧ len p = n := by
  constructor
  · intro h
    induction text generalizing n with
    | nil =>
        cases n with
        | zero => exact ⟨[], List.prefix_rfl, rfl⟩
        | succ n => cases h
    | cons c text ih =>
        cases n with
        | zero => exact ⟨[], List.nil_prefix, rfl⟩
        | succ n =>
            rw [isCharBoundary, Bool.and_eq_true, decide_eq_true_eq] at h
            obtain ⟨p, hp, hlen⟩ := ih h.2
            refine ⟨c :: p, List.cons_prefix_cons.2 ⟨rfl, hp⟩, ?_⟩
            rw [len_cons, hlen]
            omega
  · rintro ⟨p, ⟨q, rfl⟩, rfl⟩
    induction p with
    | nil => cases q <;> rfl
    | cons c p ih => rw [List.cons_append, len_cons, isCharBoundary_cons, ih]

theorem slice_append (p q : Text) : slice (p ++ q) (len p) = some p := by
  induction p with
  | nil => cases q <;> rfl
  | cons c p ih => rw [List.cons_append, len_cons, slice_cons, ih, Option.map_some]

theorem prefix_of_len_le (hp : p <+: text) (hq : q <+: text) (h : len p ≤ len q) : p <+: q := by
  rcases List.prefix_or_prefix_of_prefix hp hq with h' | ⟨r, rfl⟩
  · exact h'
  · cases r with
    | nil => simp
    | cons c r =>
        have := c.utf8Size_pos
        rw [len_append, len_cons] at h
        omega

end Text

end Ruxmsg.Cli

import Mathlib.Data.List.Infix

namespace Ruxmsg.Library.Suffix

variable {α : Type*} {fits : List α → Prop} {s s' l : List α} {x : α}

structure LongestSuffix (fits : List α → Prop) (s l : List α) : Prop where
  suffix : s <:+ l
  holds : fits s
  longest : ∀ t, t <:+ l → fits t → t <:+ s

structure LongestPrefix (fits : List α → Prop) (s l : List α) : Prop where
  isPrefix : s <+: l
  holds : fits s
  longest : ∀ t, t <+: l → fits t → t <+: s

def evict (fits : List α → Prop) [DecidablePred fits] : List α → List α
  | [] => []
  | x :: xs => if fits (x :: xs) then x :: xs else evict fits xs

theorem evict_longest [DecidablePred fits] (hnil : fits []) (l : List α) :
    LongestSuffix fits (evict fits l) l := by
  induction l with
  | nil => exact ⟨List.suffix_rfl, hnil, fun t ht _ => ht⟩
  | cons x xs ih =>
      by_cases hfits : fits (x :: xs)
      · rw [evict, if_pos hfits]
        exact ⟨List.suffix_rfl, hfits, fun t ht _ => ht⟩
      · rw [evict, if_neg hfits]
        refine ⟨ih.suffix.trans (List.suffix_cons x xs), ih.holds, ?_⟩
        intro t ht ht'
        rcases List.suffix_cons_iff.1 ht with rfl | ht
        · exact absurd ht' hfits
        · exact ih.longest t ht ht'

/-- The longest suffix can be kept up as a list grows: what was left out
before fits no better with one more behind it. -/
theorem LongestSuffix.snoc (hinit : ∀ t x, fits (t ++ [x]) → fits t) (h : LongestSuffix fits s l)
    (h' : LongestSuffix fits s' (s ++ [x])) : LongestSuffix fits s' (l ++ [x]) := by
  have hsuffix : s ++ [x] <:+ l ++ [x] := List.suffix_append_self_iff.2 h.suffix
  refine ⟨h'.suffix.trans hsuffix, h'.holds, ?_⟩
  intro t ht hfits
  apply h'.longest t _ hfits
  rcases List.suffix_concat_iff.1 ht with rfl | ⟨u, rfl, hu⟩
  · exact List.nil_suffix
  · exact List.suffix_append_self_iff.2 (h.longest u hu (hinit u x hfits))

theorem LongestSuffix.getLast?_eq (h : LongestSuffix fits s (l ++ [x])) (hx : fits [x]) :
    s.getLast? = some x := by
  obtain ⟨t, rfl⟩ := h.longest [x] (List.suffix_append l [x]) hx
  exact List.getLast?_concat

end Ruxmsg.Library.Suffix

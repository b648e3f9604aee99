import Ruxmsg.Library.Machine

namespace Ruxmsg.Library.Machine

variable {α σ ι ο : Type*}

/-- Every entry of a list fits those before it. -/
def Each (ok : List α → α → Prop) (entries : List α) : Prop :=
  ∀ before entry after, entries = before ++ entry :: after → ok before entry

section Each

variable {ok : List α → α → Prop} {entries more : List α} {entry : α}

theorem each_nil : Each ok ([] : List α) := by
  intro before entry after h
  simp at h

theorem Each.snoc (h : Each ok entries) (hentry : ok entries entry) : Each ok (entries ++ [entry]) := by
  intro before last after hsplit
  rcases List.eq_nil_or_concat after with rfl | ⟨after, final, rfl⟩
  · obtain ⟨rfl, hlast⟩ := List.append_inj' hsplit rfl
    obtain rfl := List.singleton_inj.1 hlast
    exact hentry
  · rw [List.concat_eq_append, ← List.cons_append, ← List.append_assoc] at hsplit
    exact h before last after (List.append_inj' hsplit rfl).1

theorem Each.left_of_append (h : Each ok (entries ++ more)) : Each ok entries := by
  rintro before entry after rfl
  exact h before entry (after ++ more) (by rw [List.append_assoc, List.cons_append])

theorem Each.last (h : Each ok (entries ++ [entry])) : ok entries entry := h entries entry [] rfl

end Each

section Trace

variable {step : σ → ι → σ × ο} {s : σ} {is : List ι}

theorem trace_inputs (s : σ) (is : List ι) : (trace step s is).map Record.input = is := by
  induction is generalizing s with
  | nil => rfl
  | cons i is ih => rw [trace, List.map_cons, ih, record_input]

theorem trace_eq_append {before after : List (Record σ ι ο)} {call : Record σ ι ο}
    (h : trace step s is = before ++ call :: after) :
    ∃ past i future, is = past ++ i :: future ∧ before = trace step s past ∧
      call = record step (final step s past) i := by
  induction is generalizing s before with
  | nil => simp [trace] at h
  | cons i is ih =>
      rw [trace] at h
      cases before with
      | nil =>
          obtain ⟨rfl, -⟩ := List.cons.inj h
          exact ⟨[], i, is, rfl, rfl, rfl⟩
      | cons first before =>
          obtain ⟨rfl, hrest⟩ := List.cons.inj h
          obtain ⟨past, j, future, rfl, rfl, rfl⟩ := ih hrest
          exact ⟨i :: past, j, future, rfl, rfl, rfl⟩

end Trace

section Allowed

variable {step : σ → ι → σ × ο} {ok : σ → ι → Prop} {P I : σ → Prop} {s : σ}

/-- A property holds all along a history exactly where its inputs are allowed, if
an invariant of the allowed ones has it, and it is lost with the first other
one. -/
theorem holds_iff_allowed (init : I s) (next : ∀ t i, I t → ok t i → I (step t i).1) (holds : ∀ t, I t → P t)
    (lost : ∀ t i, P t → P (step t i).1 → ok t i) (is : List ι) :
    (∀ past future, is = past ++ future → P (final step s past)) ↔ Allowed step ok s is := by
  constructor
  · intro h
    clear init
    induction is generalizing s with
    | nil => trivial
    | cons i is ih =>
        have hfirst : ok s i := lost s i (h [] (i :: is) rfl) (h [i] is rfl)
        refine ⟨hfirst, ih ?_⟩
        rintro past future rfl
        exact h (i :: past) future rfl
  · rintro h past future rfl
    exact holds _ ((h.left_of_append).final_invariant step I next init)

end Allowed

end Ruxmsg.Library.Machine

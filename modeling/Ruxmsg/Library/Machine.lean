import Mathlib.Data.List.Induction

namespace Ruxmsg.Library.Machine

variable {σ ι ο : Type*}

structure Record (σ ι ο : Type*) where
  pre : σ
  input : ι
  out : ο
  post : σ

variable (step : σ → ι → σ × ο)

def record (s : σ) (i : ι) : Record σ ι ο :=
  { pre := s, input := i, out := (step s i).2, post := (step s i).1 }

def final (s : σ) : List ι → σ
  | [] => s
  | i :: is => final (step s i).1 is

def trace (s : σ) : List ι → List (Record σ ι ο)
  | [] => []
  | i :: is => record step s i :: trace (step s i).1 is

@[simp] theorem record_pre (s : σ) (i : ι) : (record step s i).pre = s := rfl

@[simp] theorem record_input (s : σ) (i : ι) : (record step s i).input = i := rfl

@[simp] theorem record_out (s : σ) (i : ι) : (record step s i).out = (step s i).2 := rfl

@[simp] theorem record_post (s : σ) (i : ι) : (record step s i).post = (step s i).1 := rfl

@[simp] theorem final_nil (s : σ) : final step s [] = s := rfl

@[simp] theorem final_cons (s : σ) (i : ι) (is : List ι) :
    final step s (i :: is) = final step (step s i).1 is := rfl

theorem final_append (s : σ) (is js : List ι) :
    final step s (is ++ js) = final step (final step s is) js := by
  induction is generalizing s with
  | nil => rfl
  | cons i is ih => exact ih (step s i).1

theorem trace_append (s : σ) (is js : List ι) :
    trace step s (is ++ js) = trace step s is ++ trace step (final step s is) js := by
  induction is generalizing s with
  | nil => rfl
  | cons i is ih =>
      have h := ih (step s i).1
      simp only [List.cons_append, trace, final_cons, h]

/-- What holds of the empty history and is kept by every call holds of every
history and the state it leads to. -/
theorem trace_induction (P : List (Record σ ι ο) → σ → Prop) (s : σ) (init : P [] s)
    (next : ∀ h t i, P h t → P (h ++ [record step t i]) (step t i).1) (is : List ι) :
    P (trace step s is) (final step s is) := by
  induction is using List.reverseRecOn with
  | nil => exact init
  | append_singleton is i ih =>
      rw [trace_append, final_append]
      exact next _ _ i ih

/-- A property of one state that every call keeps holds all along. -/
theorem final_invariant (I : σ → Prop) (next : ∀ t i, I t → I (step t i).1) {s : σ} (init : I s)
    (is : List ι) : I (final step s is) := by
  induction is generalizing s with
  | nil => exact init
  | cons i is ih => exact ih (next s i init)

/-- Every call of a history was made in a state some inputs lead to. -/
theorem mem_trace {s : σ} {is : List ι} {r : Record σ ι ο} :
    r ∈ trace step s is ↔
      ∃ before i after, is = before ++ i :: after ∧ r = record step (final step s before) i := by
  induction is generalizing s with
  | nil => simp [trace]
  | cons j is ih =>
      rw [trace, List.mem_cons, ih]
      constructor
      · rintro (rfl | ⟨before, i, after, rfl, rfl⟩)
        · exact ⟨[], j, is, rfl, rfl⟩
        · exact ⟨j :: before, i, after, rfl, rfl⟩
      · rintro ⟨before, i, after, h, rfl⟩
        cases before with
        | nil =>
            obtain ⟨rfl, rfl⟩ := List.cons.inj h
            exact .inl rfl
        | cons k before =>
            obtain ⟨rfl, rfl⟩ := List.cons.inj h
            exact .inr ⟨before, i, after, rfl, rfl⟩

/-- The histories whose every input was allowed in the state it met. -/
def Allowed (ok : σ → ι → Prop) (s : σ) : List ι → Prop
  | [] => True
  | i :: is => ok s i ∧ Allowed ok (step s i).1 is

theorem Allowed.final_invariant {ok : σ → ι → Prop} (I : σ → Prop)
    (next : ∀ t i, I t → ok t i → I (step t i).1) {s : σ} (init : I s) {is : List ι}
    (h : Allowed step ok s is) : I (final step s is) := by
  induction is generalizing s with
  | nil => exact init
  | cons i is ih => exact ih (next s i init h.1) h.2

theorem Allowed.left_of_append {ok : σ → ι → Prop} {s : σ} {is js : List ι}
    (h : Allowed step ok s (is ++ js)) : Allowed step ok s is := by
  induction is generalizing s with
  | nil => exact trivial
  | cons i is ih => exact ⟨h.1, ih h.2⟩

end Ruxmsg.Library.Machine

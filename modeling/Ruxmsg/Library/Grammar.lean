import Mathlib.Data.List.Induction

namespace Ruxmsg.Library.Grammar

variable {σ α : Type*} (next : σ → α → Option σ)

/-- A word read letter by letter; `none` if the grammar does not have it. -/
def reads (s : σ) : List α → Option σ
  | [] => some s
  | a :: as => (next s a).bind fun t => reads t as

@[simp] theorem reads_nil (s : σ) : reads next s [] = some s := rfl

theorem reads_cons {s t : σ} {a : α} (h : next s a = some t) (as : List α) :
    reads next s (a :: as) = reads next t as := by
  rw [reads, h]
  rfl

theorem reads_append (s : σ) (as bs : List α) :
    reads next s (as ++ bs) = (reads next s as).bind fun t => reads next t bs := by
  induction as generalizing s with
  | nil => rfl
  | cons a as ih =>
      cases h : next s a with
      | none => rw [List.cons_append, reads, reads, h, Option.bind_none, Option.bind_none, Option.bind_none]
      | some t => rw [List.cons_append, reads_cons next h, reads_cons next h, ih t]

theorem reads_append_some {s t u : σ} {as bs : List α} (ha : reads next s as = some t)
    (hb : reads next t bs = some u) : reads next s (as ++ bs) = some u := by
  rw [reads_append, ha]
  exact hb

/-- Two grammars that agree on the letters of a word read it alike. -/
theorem reads_congr {next' : σ → α → Option σ} {as : List α} (h : ∀ a ∈ as, ∀ s, next s a = next' s a) (s : σ) :
    reads next s as = reads next' s as := by
  induction as generalizing s with
  | nil => rfl
  | cons a as ih =>
      rw [reads, reads, h a List.mem_cons_self]
      cases next' s a with
      | none => rfl
      | some t => exact ih (fun b hb => h b (List.mem_cons_of_mem _ hb)) t

variable {next}

/-- What holds at the start and is kept by every letter holds of every word and
of the state it leads to. -/
theorem reads_induction (P : List α → σ → Prop) {s : σ} (init : P [] s)
    (step : ∀ as a t u, P as t → next t a = some u → P (as ++ [a]) u) {t : σ} {as : List α}
    (h : reads next s as = some t) : P as t := by
  induction as using List.reverseRecOn generalizing t with
  | nil =>
      obtain rfl := Option.some.inj h
      exact init
  | append_singleton as a ih =>
      rw [reads_append] at h
      obtain ⟨u, hu, h⟩ := Option.bind_eq_some_iff.1 h
      obtain ⟨v, hv, h⟩ := Option.bind_eq_some_iff.1 h
      obtain rfl := Option.some.inj h
      exact step as a u _ (ih hu) hv

/-- Once a letter of one kind has been read, the grammar has no letter of
another kind any more. -/
theorem pairwise_of_reads {spent : σ → Prop} {p q : α → Prop}
    (spends : ∀ s a t, next s a = some t → p a → spent t)
    (keeps : ∀ s a t, next s a = some t → spent s → spent t)
    (stops : ∀ s a t, next s a = some t → spent s → ¬ q a) {s t : σ} {as : List α}
    (h : reads next s as = some t) : as.Pairwise fun a b => p a → ¬ q b := by
  have hspent (as : List α) : ∀ s, spent s → reads next s as = some t → ∀ a ∈ as, ¬ q a := by
    induction as with
    | nil => simp
    | cons a as ih =>
        intro s hs h
        obtain ⟨u, hu, h⟩ := Option.bind_eq_some_iff.1 h
        intro b hb
        rcases List.mem_cons.1 hb with rfl | hb
        · exact stops s _ u hu hs
        · exact ih u (keeps s a u hu hs) h b hb
  induction as generalizing s with
  | nil => exact .nil
  | cons a as ih =>
      obtain ⟨u, hu, h⟩ := Option.bind_eq_some_iff.1 h
      refine .cons ?_ (ih h)
      intro b hb hp
      exact hspent as u (spends s a u hu hp) h b hb

theorem flag_of_reads {flag : σ → Bool} {p : α → Bool}
    (falls : ∀ s a t, next s a = some t → flag t = (flag s && !p a)) {s t : σ} {as : List α}
    (h : reads next s as = some t) : flag t = (flag s && !as.any p) := by
  induction as generalizing s with
  | nil =>
      obtain rfl := Option.some.inj h
      simp
  | cons a as ih =>
      obtain ⟨u, hu, h⟩ := Option.bind_eq_some_iff.1 h
      rw [ih h, falls s a u hu, List.any_cons, Bool.not_or, Bool.and_assoc]

end Ruxmsg.Library.Grammar

import Mathlib.Data.List.AList
import Mathlib.Logic.Function.Basic

namespace Ruxmsg.Library.Index

variable {ι κ α : Type*}

/-- An index of a table by a key of its entries: it leads from a key to the place
of its one entry, and to nothing else. -/
def Indexes (index : ι → Option κ) (table : κ → Option α) (key : α → ι) : Prop :=
  ∀ i k, index i = some k ↔ ∃ a, table k = some a ∧ key a = i

variable {index : ι → Option κ} {table : κ → Option α} {key : α → ι} {i j : ι} {k l : κ} {a b : α}

theorem Indexes.empty : Indexes (fun _ : ι => (none : Option κ)) (fun _ => (none : Option α)) key := by
  intro i k
  simp

theorem Indexes.entry (h : Indexes index table key) (hi : index i = some k) :
    ∃ a, table k = some a ∧ key a = i :=
  (h i k).1 hi

theorem Indexes.place (h : Indexes index table key) (hk : table k = some a) : index (key a) = some k :=
  (h (key a) k).2 ⟨a, hk, rfl⟩

theorem Indexes.place_inj (h : Indexes index table key) (hk : table k = some a) (hl : table l = some b)
    (hab : key a = key b) : k = l := by
  have hp := h.place hk
  rw [hab] at hp
  exact Option.some.inj (hp.symm.trans (h.place hl))

theorem Indexes.not_mem (h : Indexes index table key) (hi : index i = none) (hk : table k = some a) :
    key a ≠ i := by
  rintro rfl
  cases hi.symm.trans (h.place hk)

variable [DecidableEq κ]

theorem update_eq_some {entry : Option α} :
    Function.update table k entry l = some a ↔ (l = k ∧ entry = some a) ∨ (l ≠ k ∧ table l = some a) := by
  by_cases hl : l = k
  · subst l
    simp
  · simp [hl]

theorem Indexes.modify (h : Indexes index table key) (hk : table k = some a) (hab : key b = key a) :
    Indexes index (Function.update table k (some b)) key := by
  intro j l
  rw [h j l]
  by_cases hl : l = k
  · subst l
    rw [hk, Function.update_self]
    simp only [Option.some.injEq, exists_eq_left', hab]
  · rw [Function.update_of_ne hl]

variable [DecidableEq ι]

theorem Indexes.insert (h : Indexes index table key) (hi : index (key a) = none) (hk : table k = none) :
    Indexes (Function.update index (key a) (some k)) (Function.update table k (some a)) key := by
  intro j l
  by_cases hj : j = key a
  · subst j
    rw [Function.update_self]
    constructor
    · intro hl
      obtain rfl := Option.some.inj hl
      exact ⟨a, Function.update_self .., rfl⟩
    · rintro ⟨b, hb, hkey⟩
      by_cases hl : l = k
      · rw [hl]
      · rw [Function.update_of_ne hl] at hb
        exact absurd hkey (h.not_mem hi hb)
  · rw [Function.update_of_ne hj, h j l]
    by_cases hl : l = k
    · subst l
      rw [hk, Function.update_self]
      constructor
      · rintro ⟨b, hb, -⟩
        cases hb
      · rintro ⟨b, hb, rfl⟩
        obtain rfl := Option.some.inj hb
        exact absurd rfl hj
    · rw [Function.update_of_ne hl]

theorem Indexes.erase (h : Indexes index table key) (hk : table k = some a) :
    Indexes (Function.update index (key a) none) (Function.update table k none) key := by
  intro j l
  by_cases hj : j = key a
  · subst j
    rw [Function.update_self]
    constructor
    · intro hl
      cases hl
    · rintro ⟨b, hb, hkey⟩
      by_cases hl : l = k
      · rw [hl, Function.update_self] at hb
        cases hb
      · rw [Function.update_of_ne hl] at hb
        exact absurd (h.place_inj hb hk hkey) hl
  · rw [Function.update_of_ne hj, h j l]
    by_cases hl : l = k
    · subst l
      rw [hk, Function.update_self]
      constructor
      · rintro ⟨b, hb, rfl⟩
        obtain rfl := Option.some.inj hb
        exact absurd rfl hj
      · rintro ⟨b, hb, -⟩
        cases hb
    · rw [Function.update_of_ne hl]

section Lookup

/-- Looking up after an insertion, for all keys at once. -/
theorem lookup_insert {β : Type*} (k : κ) (b : β) (s : AList fun _ : κ => β) :
    (fun l => (s.insert k b).lookup l) = Function.update (fun l => s.lookup l) k (some b) := by
  funext l
  by_cases hl : l = k
  · subst l
    rw [AList.lookup_insert, Function.update_self]
  · rw [AList.lookup_insert_ne hl, Function.update_of_ne hl]

theorem lookup_erase {β : Type*} (k : κ) (s : AList fun _ : κ => β) :
    (fun l => (s.erase k).lookup l) = Function.update (fun l => s.lookup l) k none := by
  funext l
  by_cases hl : l = k
  · subst l
    rw [AList.lookup_erase, Function.update_self]
  · rw [AList.lookup_erase_ne hl, Function.update_of_ne hl]

theorem map_lookup_insert {β γ : Type*} (g : β → γ) (k : κ) (b : β) (s : AList fun _ : κ => β) :
    (fun l => ((s.insert k b).lookup l).map g) = Function.update (fun l => (s.lookup l).map g) k (some (g b)) :=
  calc (fun l => ((s.insert k b).lookup l).map g)
      = Option.map g ∘ Function.update (fun l => s.lookup l) k (some b) :=
        congrArg (Option.map g ∘ ·) (lookup_insert k b s)
    _ = Function.update (fun l => (s.lookup l).map g) k (some (g b)) := Function.comp_update ..

theorem map_lookup_erase {β γ : Type*} (g : β → γ) (k : κ) (s : AList fun _ : κ => β) :
    (fun l => ((s.erase k).lookup l).map g) = Function.update (fun l => (s.lookup l).map g) k none :=
  calc (fun l => ((s.erase k).lookup l).map g)
      = Option.map g ∘ Function.update (fun l => s.lookup l) k none :=
        congrArg (Option.map g ∘ ·) (lookup_erase k s)
    _ = Function.update (fun l => (s.lookup l).map g) k none := Function.comp_update ..

end Lookup

end Ruxmsg.Library.Index

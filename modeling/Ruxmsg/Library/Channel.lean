import Mathlib.Data.List.Basic
import Mathlib.Logic.Function.Basic

namespace Ruxmsg.Library

/-- A bounded queue with one receiver. A sender that finds it full waits with
what it still has to put into it. -/
structure Channel (κ α : Type*) where
  queue : List α
  waiting : κ → List α

namespace Channel

variable {κ α : Type*}

def empty : Channel κ α := { queue := [], waiting := fun _ => [] }

def put (c : Channel κ α) (item : α) : Channel κ α := { c with queue := c.queue ++ [item] }

def pop (c : Channel κ α) : Option (α × Channel κ α) :=
  match c.queue with
  | [] => none
  | item :: queue => some (item, { c with queue })

def Owned (origin : α → Option κ) (c : Channel κ α) : Prop := ∀ k, ∀ item ∈ c.waiting k, origin item = some k

variable {origin : α → Option κ} {c c' : Channel κ α} {k k' : κ} {item : α} {items : List α}

theorem empty_owned : (empty : Channel κ α).Owned origin := by
  intro k item hitem
  cases hitem

theorem Owned.put (h : c.Owned origin) : (c.put item).Owned origin := h

theorem pop_eq_some (h : c.pop = some (item, c')) : c.queue = item :: c'.queue ∧ c'.waiting = c.waiting := by
  rw [pop] at h
  split at h
  · cases h
  · next hqueue =>
    cases h
    exact ⟨hqueue, rfl⟩

theorem Owned.pop (h : c.Owned origin) (hpop : c.pop = some (item, c')) : c'.Owned origin := by
  intro k item hitem
  rw [(pop_eq_some hpop).2] at hitem
  exact h k item hitem

theorem length_pop (hpop : c.pop = some (item, c')) : c.queue.length = c'.queue.length + 1 := by
  rw [(pop_eq_some hpop).1, List.length_cons]

section Senders

variable [DecidableEq κ]

def offer (c : Channel κ α) (k : κ) (items : List α) : Channel κ α :=
  { c with waiting := Function.update c.waiting k (c.waiting k ++ items) }

def pass (c : Channel κ α) (k : κ) : Option (Channel κ α) :=
  match c.waiting k with
  | [] => none
  | item :: items => some { queue := c.queue ++ [item], waiting := Function.update c.waiting k items }

variable (origin) in
def inFlight (c : Channel κ α) (k : κ) : List α := c.queue.filter (origin · = some k) ++ c.waiting k

@[simp] theorem queue_offer : (c.offer k items).queue = c.queue := rfl

@[simp] theorem waiting_offer : (c.offer k items).waiting k = c.waiting k ++ items := Function.update_self ..

theorem waiting_offer_of_ne (h : k' ≠ k) : (c.offer k items).waiting k' = c.waiting k' := Function.update_of_ne h ..

theorem Owned.offer (h : c.Owned origin) (hitems : ∀ item ∈ items, origin item = some k) :
    (c.offer k items).Owned origin := by
  intro k' item hitem
  by_cases hk : k' = k
  · subst hk
    rw [waiting_offer] at hitem
    rcases List.mem_append.1 hitem with hitem | hitem
    · exact h _ item hitem
    · exact hitems item hitem
  · rw [waiting_offer_of_ne hk] at hitem
    exact h k' item hitem

theorem pass_eq_some (h : c.pass k = some c') : ∃ item items, c.waiting k = item :: items ∧
    c'.queue = c.queue ++ [item] ∧ c'.waiting = Function.update c.waiting k items := by
  rw [pass] at h
  split at h
  · cases h
  · next item items hwaiting =>
    cases h
    exact ⟨item, items, hwaiting, rfl, rfl⟩

theorem Owned.pass (h : c.Owned origin) (hpass : c.pass k = some c') : c'.Owned origin := by
  obtain ⟨item, items, hwaiting, -, hwaiting'⟩ := pass_eq_some hpass
  intro k' other hother
  rw [hwaiting'] at hother
  by_cases hk : k' = k
  · subst hk
    rw [Function.update_self] at hother
    exact h _ other (by rw [hwaiting]; exact List.mem_cons_of_mem _ hother)
  · rw [Function.update_of_ne hk] at hother
    exact h k' other hother

theorem inFlight_put (h : origin item = none) (k : κ) : (c.put item).inFlight origin k = c.inFlight origin k := by
  simp [inFlight, Channel.put, List.filter_append, h]

theorem inFlight_offer : (c.offer k items).inFlight origin k = c.inFlight origin k ++ items := by
  rw [inFlight, inFlight, waiting_offer, queue_offer, List.append_assoc]

theorem inFlight_offer_of_ne (h : k' ≠ k) : (c.offer k items).inFlight origin k' = c.inFlight origin k' := by
  rw [inFlight, inFlight, waiting_offer_of_ne h, queue_offer]

theorem inFlight_pass (h : c.Owned origin) (hpass : c.pass k = some c') (k' : κ) :
    c'.inFlight origin k' = c.inFlight origin k' := by
  obtain ⟨item, items, hwaiting, hqueue', hwaiting'⟩ := pass_eq_some hpass
  have hitem : origin item = some k := h k item (by rw [hwaiting]; exact List.mem_cons_self)
  rw [inFlight, inFlight, hqueue', hwaiting', List.filter_append, List.append_assoc]
  congr 1
  by_cases hk : k' = k
  · subst hk
    rw [Function.update_self, hwaiting, List.filter_cons_of_pos (by simpa using hitem)]
    rfl
  · rw [Function.update_of_ne hk, List.filter_cons_of_neg]
    · rfl
    · rw [hitem, decide_eq_true_eq]
      exact fun h => hk (Option.some.inj h).symm

/-- What is taken of a sender is the oldest it has on the way. -/
theorem inFlight_pop (hpop : c.pop = some (item, c')) (k : κ) :
    c.inFlight origin k = [item].filter (origin · = some k) ++ c'.inFlight origin k := by
  obtain ⟨hqueue, hwaiting⟩ := pop_eq_some hpop
  rw [inFlight, inFlight, hqueue, hwaiting, ← List.singleton_append, List.filter_append, List.append_assoc]

end Senders

end Channel

end Ruxmsg.Library

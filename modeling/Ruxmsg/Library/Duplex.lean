import Mathlib.Logic.Relation
import Mathlib.Logic.Function.Basic
import Ruxmsg.Library.Machine

namespace Ruxmsg.Library.Duplex

open Machine

inductive Side
  | left
  | right
  deriving DecidableEq

def Side.other : Side → Side
  | .left => .right
  | .right => .left

@[simp] theorem Side.other_other (s : Side) : s.other.other = s := by
  cases s <;> rfl

@[simp] theorem Side.other_ne (s : Side) : s.other ≠ s := by
  cases s <;> decide

@[simp] theorem Side.ne_other (s : Side) : s ≠ s.other := by
  cases s <;> decide

theorem Side.eq_or_other (s t : Side) : t = s ∨ t = s.other := by
  cases s <;> cases t <;> simp [Side.other]

/-- A machine whose effects may be messages, and which takes messages in. -/
structure Party (σ ι ε μ : Type*) where
  step : σ → ι → σ × List ε
  message : ε → Option μ
  receive : μ → ι

/-- Two machines, the messages in flight to each in the order they were sent,
and the calls each has been given. -/
structure Link (σ ι ε μ : Type*) where
  node : Side → σ
  inbox : Side → List μ
  calls : Side → List (Record σ ι (List ε))

inductive Action (ι : Type*)
  | input (side : Side) (i : ι)
  | deliver (side : Side)

variable {σ ι ε μ : Type*}

def Link.init (node : Side → σ) : Link σ ι ε μ :=
  { node, inbox := fun _ => [], calls := fun _ => [] }

namespace Link

variable (p : Party σ ι ε μ)

/-- One call at one side; what it sends goes to the end of the other side's inbox. -/
def call (d : Link σ ι ε μ) (s : Side) (i : ι) : Link σ ι ε μ :=
  { node := Function.update d.node s (p.step (d.node s) i).1
    inbox := Function.update d.inbox s.other
      (d.inbox s.other ++ (p.step (d.node s) i).2.filterMap p.message)
    calls := Function.update d.calls s (d.calls s ++ [record p.step (d.node s) i]) }

def take (d : Link σ ι ε μ) (s : Side) (rest : List μ) : Link σ ι ε μ :=
  { d with inbox := Function.update d.inbox s rest }

def step (d : Link σ ι ε μ) : Action ι → Option (Link σ ι ε μ)
  | .input s i => some (d.call p s i)
  | .deliver s =>
      match d.inbox s with
      | [] => none
      | m :: rest => some ((d.take s rest).call p s (p.receive m))

def run (d : Link σ ι ε μ) : List (Action ι) → Option (Link σ ι ε μ)
  | [] => some d
  | a :: as => (d.step p a).bind fun d' => d'.run as

section Calls

variable (d : Link σ ι ε μ) (s : Side) (rest : List μ) (i : ι)

@[simp] theorem take_node : (d.take s rest).node = d.node := rfl

@[simp] theorem take_calls : (d.take s rest).calls = d.calls := rfl

@[simp] theorem take_inbox : (d.take s rest).inbox s = rest := Function.update_self ..

@[simp] theorem take_inbox_other : (d.take s rest).inbox s.other = d.inbox s.other :=
  Function.update_of_ne (Side.other_ne s) ..

theorem take_inbox_self : d.take s (d.inbox s) = d := by
  rw [take, Function.update_eq_self]

@[simp] theorem call_node : (d.call p s i).node s = (p.step (d.node s) i).1 := Function.update_self ..

@[simp] theorem call_node_other : (d.call p s i).node s.other = d.node s.other :=
  Function.update_of_ne (Side.other_ne s) ..

@[simp] theorem call_inbox : (d.call p s i).inbox s = d.inbox s :=
  Function.update_of_ne (Side.ne_other s) ..

@[simp] theorem call_inbox_other : (d.call p s i).inbox s.other =
    d.inbox s.other ++ (p.step (d.node s) i).2.filterMap p.message := Function.update_self ..

@[simp] theorem call_calls : (d.call p s i).calls s = d.calls s ++ [record p.step (d.node s) i] :=
  Function.update_self ..

@[simp] theorem call_calls_other : (d.call p s i).calls s.other = d.calls s.other :=
  Function.update_of_ne (Side.other_ne s) ..

end Calls

def Next (allowed : Link σ ι ε μ → Action ι → Prop) (kept : Link σ ι ε μ → Prop)
    (d d' : Link σ ι ε μ) : Prop :=
  ∃ a, allowed d a ∧ d.step p a = some d' ∧ kept d'

/-- Every step is one call at one side, on an input or on the head of its inbox. -/
theorem Next.call_eq {allowed : Link σ ι ε μ → Action ι → Prop} {kept : Link σ ι ε μ → Prop}
    {d d' : Link σ ι ε μ} (h : d.Next p allowed kept d') : kept d' ∧ ∃ s i rest,
      d' = (d.take s rest).call p s i ∧
      ((rest = d.inbox s ∧ allowed d (.input s i)) ∨
        ∃ m, d.inbox s = m :: rest ∧ i = p.receive m ∧ allowed d (.deliver s)) := by
  obtain ⟨a, ha, hs, hk⟩ := h
  refine ⟨hk, ?_⟩
  cases a with
  | input s i =>
      refine ⟨s, i, d.inbox s, ?_, .inl ⟨rfl, ha⟩⟩
      rw [take_inbox_self]
      exact (Option.some.inj hs).symm
  | deliver s =>
      dsimp only [step] at hs
      cases hi : d.inbox s with
      | nil =>
          rw [hi] at hs
          cases hs
      | cons m rest =>
          rw [hi] at hs
          exact ⟨s, p.receive m, rest, (Option.some.inj hs).symm, .inr ⟨m, hi, rfl, ha⟩⟩

/-- The state after a list of actions, if every state on the way is kept. -/
def keptRun (kept : Link σ ι ε μ → Prop) [DecidablePred kept] (d : Link σ ι ε μ) :
    List (Action ι) → Option (Link σ ι ε μ)
  | [] => some d
  | a :: as => (d.step p a).bind fun d' => if kept d' then d'.keptRun kept as else none

theorem reaches_of_keptRun {allowed : Link σ ι ε μ → Action ι → Prop} {kept : Link σ ι ε μ → Prop}
    [DecidablePred kept] {d d' : Link σ ι ε μ} {as : List (Action ι)}
    (hallowed : ∀ a ∈ as, ∀ d, allowed d a) (h : d.keptRun p kept as = some d') :
    Relation.ReflTransGen (Next p allowed kept) d d' := by
  induction as generalizing d with
  | nil =>
      obtain rfl := Option.some.inj h
      exact .refl
  | cons a as ih =>
      obtain ⟨d₁, hstep, h⟩ := Option.bind_eq_some_iff.1 h
      split at h
      next hkept =>
          refine .head ⟨a, hallowed a List.mem_cons_self d, hstep, hkept⟩ ?_
          exact ih (fun a ha => hallowed a (List.mem_cons_of_mem _ ha)) h
      next => cases h

/-- The state after a list of actions, if each is allowed where it is taken. -/
def allowedRun (allowed : Link σ ι ε μ → Action ι → Prop) [∀ d, DecidablePred (allowed d)]
    (d : Link σ ι ε μ) : List (Action ι) → Option (Link σ ι ε μ)
  | [] => some d
  | a :: as => if allowed d a then (d.step p a).bind fun d' => d'.allowedRun allowed as else none

theorem reaches_of_allowedRun {allowed : Link σ ι ε μ → Action ι → Prop}
    [∀ d, DecidablePred (allowed d)] {d d' : Link σ ι ε μ} {as : List (Action ι)}
    (h : d.allowedRun p allowed as = some d') :
    Relation.ReflTransGen (Next p allowed fun _ => True) d d' := by
  induction as generalizing d with
  | nil =>
      obtain rfl := Option.some.inj h
      exact .refl
  | cons a as ih =>
      rw [allowedRun] at h
      split at h
      next hallowed =>
          obtain ⟨d₁, hstep, h⟩ := Option.bind_eq_some_iff.1 h
          exact .head ⟨a, hallowed, hstep, trivial⟩ (ih h)
      next => cases h

/-- What the start has and every allowed step keeps, every state reached has. -/
theorem reaches_invariant {allowed : Link σ ι ε μ → Action ι → Prop} {kept : Link σ ι ε μ → Prop}
    (I : Link σ ι ε μ → Prop)
    (next : ∀ d s i rest, I d → kept ((d.take s rest).call p s i) →
      ((rest = d.inbox s ∧ allowed d (.input s i)) ∨
        ∃ m, d.inbox s = m :: rest ∧ i = p.receive m ∧ allowed d (.deliver s)) →
      I ((d.take s rest).call p s i))
    {d d' : Link σ ι ε μ} (init : I d) (h : Relation.ReflTransGen (Next p allowed kept) d d') :
    I d' := by
  induction h with
  | refl => exact init
  | tail _ hn ih =>
      obtain ⟨hk, s, i, rest, rfl, hi⟩ := hn.call_eq
      exact next _ s i rest ih hk hi

end Link

end Ruxmsg.Library.Duplex

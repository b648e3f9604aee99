import Mathlib.Data.List.Basic

namespace Ruxmsg.Library.Stream

variable {β α ε : Type}

/-- What stands at the front of a buffer: an item and its length, an error, or
too little to tell. -/
inductive Reading (α ε : Type)
  | item (a : α) (length : Nat)
  | failed (e : ε)
  | more
  deriving DecidableEq

/-- A reader whose answers, once given, hold whatever follows. -/
structure Reader (β α ε : Type) where
  read : List β → Reading α ε
  item_pos : ∀ {xs a n}, read xs = .item a n → 0 < n
  item_le : ∀ {xs a n}, read xs = .item a n → n ≤ xs.length
  item_append : ∀ {xs a n}, read xs = .item a n → ∀ ys, read (xs ++ ys) = .item a n
  failed_append : ∀ {xs e}, read xs = .failed e → ∀ ys, read (xs ++ ys) = .failed e

structure Outcome (β α ε : Type) where
  items : List α
  error : Option ε
  rest : List β

def Outcome.after (items : List α) (o : Outcome β α ε) : Outcome β α ε :=
  { o with items := items ++ o.items }

namespace Reader

variable (r : Reader β α ε)

theorem drop_lt {xs : List β} {a : α} {n : Nat} (h : r.read xs = .item a n) :
    (xs.drop n).length < xs.length := by
  have hp := r.item_pos h
  have hl := r.item_le h
  rw [List.length_drop]
  omega

def drain (xs : List β) : Outcome β α ε :=
  match _h : r.read xs with
  | .item a n => (drain (xs.drop n)).after [a]
  | .failed e => ⟨[], some e, xs⟩
  | .more => ⟨[], none, xs⟩
termination_by xs.length
decreasing_by exact r.drop_lt ‹_›

theorem drain_item {xs : List β} {a : α} {n : Nat} (h : r.read xs = .item a n) :
    r.drain xs = (r.drain (xs.drop n)).after [a] := by
  rw [drain]
  split
  next h' =>
    rw [h] at h'
    cases h'
    rfl
  next h' => simp [h] at h'
  next h' => simp [h] at h'

theorem drain_failed {xs : List β} {e : ε} (h : r.read xs = .failed e) :
    r.drain xs = ⟨[], some e, xs⟩ := by
  rw [drain]
  split
  next h' => simp [h] at h'
  next h' =>
    rw [h] at h'
    cases h'
    rfl
  next h' => simp [h] at h'

theorem drain_more {xs : List β} (h : r.read xs = .more) : r.drain xs = ⟨[], none, xs⟩ := by
  rw [drain]
  split
  next h' => simp [h] at h'
  next h' => simp [h] at h'
  next => rfl

theorem drain_rest (xs : List β) :
    r.read (r.drain xs).rest =
      match (r.drain xs).error with
      | some e => .failed e
      | none => .more := by
  induction xs using drain.induct r with
  | case1 xs a n h ih =>
      rw [r.drain_item h]
      exact ih
  | case2 xs e h => simp [r.drain_failed h, h]
  | case3 xs h => simp [r.drain_more h, h]

/-- Draining in two goes: the second one starts from what the first left. -/
theorem drain_append (xs ys : List β) :
    r.drain (xs ++ ys) =
      match (r.drain xs).error with
      | some e => ⟨(r.drain xs).items, some e, (r.drain xs).rest ++ ys⟩
      | none => (r.drain ((r.drain xs).rest ++ ys)).after (r.drain xs).items := by
  induction xs using drain.induct r with
  | case1 xs a n h ih =>
      have hdrop : (xs ++ ys).drop n = xs.drop n ++ ys := List.drop_append_of_le_length (r.item_le h)
      rw [r.drain_item (r.item_append h ys), hdrop, ih, r.drain_item h]
      simp only [Outcome.after]
      split <;> simp
  | case2 xs e h => rw [r.drain_failed (r.failed_append h ys), r.drain_failed h]
  | case3 xs h => rw [r.drain_more h]; rfl

/-- Chunks that arrive one by one, each drained before the next; a failure
ends it. -/
def feed (buffer : List β) : List (List β) → Outcome β α ε
  | [] => ⟨[], none, buffer⟩
  | chunk :: chunks =>
      let drained := r.drain (buffer ++ chunk)
      match drained.error with
      | some _ => drained
      | none => (feed drained.rest chunks).after drained.items

/-- How the input is cut does not matter; the induction is on the chunks. -/
theorem feed_eq (chunks : List (List β)) (buffer : List β) (hbuffer : r.read buffer = .more) :
    (r.feed buffer chunks).items = (r.drain (buffer ++ chunks.flatten)).items ∧
      (r.feed buffer chunks).error = (r.drain (buffer ++ chunks.flatten)).error := by
  induction chunks generalizing buffer with
  | nil =>
      rw [List.flatten_nil, List.append_nil, r.drain_more hbuffer]
      exact ⟨rfl, rfl⟩
  | cons chunk chunks ih =>
      have happend := r.drain_append (buffer ++ chunk) chunks.flatten
      have hrest := r.drain_rest (buffer ++ chunk)
      rw [List.flatten_cons, ← List.append_assoc, happend, feed]
      cases herror : (r.drain (buffer ++ chunk)).error with
      | some e => simp [herror]
      | none =>
          rw [herror] at hrest
          obtain ⟨hitems, herr⟩ := ih _ hrest
          simp [Outcome.after, hitems, herr]

end Reader

end Ruxmsg.Library.Stream

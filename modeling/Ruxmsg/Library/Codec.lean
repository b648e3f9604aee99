import Ruxmsg.Library.Stream

namespace Ruxmsg.Library.Stream

variable {β α ε : Type}

structure Codec (β α ε : Type) extends Reader β α ε where
  write : α → List β
  Writable : α → Prop
  read_nil : read [] = .more
  read_write : ∀ {a}, Writable a → read (write a) = .item a (write a).length

namespace Codec

variable (c : Codec β α ε) {a : α} {items : List α} {bytes buffer flight : List β} {lost : Bool} {n : Nat} {e : ε}

def writes (items : List α) : List β := items.flatMap c.write

@[simp] theorem writes_nil : c.writes [] = [] := rfl

@[simp] theorem writes_cons (a : α) (items : List α) : c.writes (a :: items) = c.write a ++ c.writes items := rfl

theorem writes_snoc (items : List α) (a : α) : c.writes (items ++ [a]) = c.writes items ++ c.write a := by
  rw [writes, List.flatMap_append, List.flatMap_singleton]
  rfl

theorem read_write_append (ha : c.Writable a) (rest : List β) :
    c.read (c.write a ++ rest) = .item a (c.write a).length := c.item_append (c.read_write ha) rest

theorem read_cut (ha : c.Writable a) (hn : n < (c.write a).length) : c.read ((c.write a).take n) = .more := by
  have hwhole : (c.write a).take n ++ (c.write a).drop n = c.write a := List.take_append_drop n _
  cases hread : c.read ((c.write a).take n) with
  | item b m =>
      have hle := c.item_le hread
      have happend := c.item_append hread ((c.write a).drop n)
      rw [hwhole, c.read_write ha] at happend
      obtain ⟨rfl, rfl⟩ := Reading.item.inj happend
      rw [List.length_take] at hle
      omega
  | failed e =>
      have happend := c.failed_append hread ((c.write a).drop n)
      rw [hwhole, c.read_write ha] at happend
      cases happend
  | more => rfl

/-- The bytes still to be read stand for the items still to be taken: those
written whole, and, once a write has failed, what got through of its item and
the items that have not been written at all. -/
structure Carries (bytes : List β) (items : List α) (lost : Bool) (whole left : List α) (torn : List β) : Prop where
  bytes_eq : bytes = c.writes whole ++ torn
  items_eq : items = whole ++ left
  writable : ∀ a ∈ whole, c.Writable a
  waits : c.read torn = .more
  torn_eq : lost = false → torn = []
  left_eq : lost = false → left = []

def Conveys (bytes : List β) (items : List α) (lost : Bool) : Prop :=
  ∃ whole left torn, c.Carries bytes items lost whole left torn

theorem Conveys.nil : c.Conveys [] [] false := ⟨[], [], [], rfl, rfl, by simp, c.read_nil, fun _ => rfl, fun _ => rfl⟩

variable {c}

theorem Conveys.write (h : c.Conveys bytes items false) (ha : c.Writable a) :
    c.Conveys (bytes ++ c.write a) (items ++ [a]) false := by
  obtain ⟨whole, left, torn, rfl, rfl, hwritable, -, htorn, hleft⟩ := h
  obtain rfl := htorn rfl
  obtain rfl := hleft rfl
  refine ⟨whole ++ [a], [], [], ?_, ?_, ?_, c.read_nil, fun _ => rfl, fun _ => rfl⟩
  · rw [writes_snoc, List.append_nil, List.append_nil]
  · rw [List.append_nil, List.append_nil]
  · intro b hb
    rcases List.mem_append.1 hb with hb | hb
    · exact hwritable b hb
    · rwa [List.mem_singleton.1 hb]

/-- A write that fails has put some of its bytes through, or all of them. -/
theorem Conveys.tear (h : c.Conveys bytes items false) (ha : c.Writable a) (n : Nat) :
    c.Conveys (bytes ++ (c.write a).take n) (items ++ [a]) true := by
  by_cases hn : n < (c.write a).length
  · obtain ⟨whole, left, torn, rfl, rfl, hwritable, -, htorn, hleft⟩ := h
    obtain rfl := htorn rfl
    obtain rfl := hleft rfl
    refine ⟨whole, [a], (c.write a).take n, ?_, ?_, hwritable, c.read_cut ha hn, nofun, nofun⟩
    · rw [List.append_nil]
    · rw [List.append_nil]
  · rw [List.take_of_length_le (Nat.le_of_not_lt hn)]
    obtain ⟨whole, left, torn, hcarries⟩ := h.write ha
    exact ⟨whole, left, torn, hcarries.bytes_eq, hcarries.items_eq, hcarries.writable, hcarries.waits, nofun, nofun⟩

theorem Conveys.lose (h : c.Conveys bytes items true) (more : List α) : c.Conveys bytes (items ++ more) true := by
  obtain ⟨whole, left, torn, rfl, rfl, hwritable, hwaits, -, -⟩ := h
  exact ⟨whole, left ++ more, torn, rfl, List.append_assoc .., hwritable, hwaits, nofun, nofun⟩

/-- What is read is the next item, and what is left conveys the others. -/
theorem Conveys.take (h : c.Conveys (buffer ++ flight) items lost) (hread : c.read buffer = .item a n) :
    ∃ rest, items = a :: rest ∧ c.Conveys (buffer.drop n ++ flight) rest lost := by
  obtain ⟨whole, left, torn, hbytes, rfl, hwritable, hwaits, htorn, hleft⟩ := h
  have hall := c.item_append hread flight
  rw [← List.drop_append_of_le_length (c.item_le hread)]
  cases whole with
  | nil =>
      rw [hbytes, writes_nil, List.nil_append, hwaits] at hall
      cases hall
  | cons b whole =>
      have hcons : c.writes (b :: whole) ++ torn = c.write b ++ (c.writes whole ++ torn) := by
        rw [writes_cons, List.append_assoc]
      rw [hbytes, hcons, c.read_write_append (hwritable b List.mem_cons_self)] at hall
      obtain ⟨rfl, rfl⟩ := Reading.item.inj hall
      refine ⟨whole ++ left, rfl, whole, left, torn, ?_, rfl, ?_, hwaits, htorn, hleft⟩
      · rw [hbytes, hcons, List.drop_left]
      · exact fun b hb => hwritable b (List.mem_cons_of_mem _ hb)

theorem Conveys.not_failed (h : c.Conveys (buffer ++ flight) items lost) : c.read buffer ≠ .failed e := by
  obtain ⟨whole, left, torn, hbytes, -, hwritable, hwaits, -, -⟩ := h
  intro hread
  have hall := c.failed_append hread flight
  cases whole with
  | nil =>
      rw [hbytes, writes_nil, List.nil_append, hwaits] at hall
      cases hall
  | cons b whole =>
      rw [hbytes, writes_cons, List.append_assoc, c.read_write_append (hwritable b List.mem_cons_self)] at hall
      cases hall

theorem drain_writes (hwritable : ∀ a ∈ items, c.Writable a) (hwaits : c.read bytes = .more) :
    c.drain (c.writes items ++ bytes) = ⟨items, none, bytes⟩ := by
  induction items with
  | nil => exact c.drain_more hwaits
  | cons a items ih =>
      have hread := c.read_write_append (hwritable a List.mem_cons_self) (c.writes items ++ bytes)
      rw [writes_cons, List.append_assoc, c.drain_item hread, List.drop_left,
        ih fun b hb => hwritable b (List.mem_cons_of_mem _ hb)]
      rfl

/-- Draining the bytes gives the items, up to the one whose write failed. -/
theorem Conveys.drain (h : c.Conveys bytes items lost) : (c.drain bytes).error = none ∧
    ∃ left, items = (c.drain bytes).items ++ left ∧ (lost = false → left = [] ∧ (c.drain bytes).rest = []) := by
  obtain ⟨whole, left, torn, rfl, rfl, hwritable, hwaits, htorn, hleft⟩ := h
  rw [drain_writes hwritable hwaits]
  exact ⟨rfl, left, rfl, fun hkept => ⟨hleft hkept, htorn hkept⟩⟩

end Codec

end Ruxmsg.Library.Stream

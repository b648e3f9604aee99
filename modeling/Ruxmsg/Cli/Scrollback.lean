import Ruxmsg.Cli.Text

namespace Ruxmsg.Cli

open Library.Suffix

inductive Author
  | «local»
  | remote
  | system
  deriving DecidableEq

structure Entry where
  author : Author
  text : Text
  deriving DecidableEq

structure Scrollback where
  entries : List Entry
  bytes : Nat
  deriving DecidableEq

namespace Scrollback

def maxEntries : Nat := 1000

def maxBytes : Nat := 256 * 1024

def maxEntryBytes : Nat := 64 * 1024

def empty : Scrollback := { entries := [], bytes := 0 }

/-- The last character boundary that is not behind `cut`. -/
def boundaryUpTo (text : Text) : Nat → Nat
  | 0 => 0
  | cut + 1 => if text.isCharBoundary (cut + 1) then cut + 1 else boundaryUpTo text cut

/-- A text of more than `maxEntryBytes` is cut on a character boundary. -/
def shorten (text : Text) : Option Text :=
  if maxEntryBytes < text.len then
    (text.slice (boundaryUpTo text maxEntryBytes)).map (· ++ ['…'])
  else some text

/-- The oldest entries go while there are too many or they are too long. `none`
is a counter that would fall below zero. -/
def evict : List Entry → Nat → Option Scrollback
  | [], bytes => some { entries := [], bytes }
  | entry :: entries, bytes =>
      if maxEntries < (entry :: entries).length ∨ maxBytes < bytes then
        if entry.text.len ≤ bytes then evict entries (bytes - entry.text.len) else none
      else some { entries := entry :: entries, bytes }

def push (scrollback : Scrollback) (author : Author) (text : Text) : Option Scrollback := do
  let text ← shorten text
  evict (scrollback.entries ++ [{ author := author, text := text }]) (scrollback.bytes + text.len)

def pushAll (scrollback : Scrollback) (pushes : List (Author × Text)) : Option Scrollback :=
  pushes.foldlM (fun scrollback pushed => scrollback.push pushed.1 pushed.2) scrollback

section Shorten

variable {text : Text}

theorem boundaryUpTo_spec (text : Text) (cut : Nat) :
    text.isCharBoundary (boundaryUpTo text cut) = true ∧ boundaryUpTo text cut ≤ cut ∧
      ∀ m ≤ cut, text.isCharBoundary m = true → m ≤ boundaryUpTo text cut := by
  induction cut with
  | zero => exact ⟨by cases text <;> rfl, le_rfl, fun m hm _ => hm⟩
  | succ cut ih =>
      obtain ⟨hboundary, hle, hlast⟩ := ih
      by_cases h : text.isCharBoundary (cut + 1) = true
      · rw [boundaryUpTo, if_pos h]
        exact ⟨h, le_rfl, fun m hm _ => hm⟩
      · rw [boundaryUpTo, if_neg h]
        refine ⟨hboundary, Nat.le_succ_of_le hle, ?_⟩
        intro m hm hm'
        rcases Nat.lt_or_eq_of_le hm with hm | rfl
        · exact hlast m (Nat.le_of_lt_succ hm) hm'
        · exact absurd hm' h

/-- What stands in the scrollback for a text: itself, or its longest prefix that
is short enough and an ellipsis. -/
def Shows (text shown : Text) : Prop :=
  (text.len ≤ maxEntryBytes ∧ shown = text) ∨
    (maxEntryBytes < text.len ∧
      ∃ p, LongestPrefix (fun p => Text.len p ≤ maxEntryBytes) p text ∧ shown = p ++ ['…'])

theorem shorten_shows (text : Text) : ∃ shown, shorten text = some shown ∧ Shows text shown := by
  by_cases h : maxEntryBytes < text.len
  · obtain ⟨hboundary, hle, hlast⟩ := boundaryUpTo_spec text maxEntryBytes
    obtain ⟨p, hp, hlen⟩ := Text.isCharBoundary_iff.1 hboundary
    refine ⟨p ++ ['…'], ?_, .inr ⟨h, p, ⟨hp, hlen.trans_le hle, ?_⟩, rfl⟩⟩
    · obtain ⟨q, rfl⟩ := hp
      rw [shorten, if_pos h, ← hlen, Text.slice_append, Option.map_some]
    · intro q hq hle
      apply Text.prefix_of_len_le hq hp
      rw [hlen]
      exact hlast _ hle (Text.isCharBoundary_iff.2 ⟨q, hq, rfl⟩)
  · exact ⟨text, by rw [shorten, if_neg h], .inl ⟨Nat.le_of_not_lt h, rfl⟩⟩

theorem Shows.len_le {shown : Text} (h : Shows text shown) : shown.len ≤ maxEntryBytes + 3 := by
  rcases h with ⟨hle, rfl⟩ | ⟨-, p, hp, rfl⟩
  · omega
  · rw [Text.len_append]
    exact Nat.add_le_add hp.holds (by decide)

end Shorten

section Evict

def weight (entries : List Entry) : Nat := (entries.map fun entry => entry.text.len).sum

def Fits (entries : List Entry) : Prop := entries.length ≤ maxEntries ∧ weight entries ≤ maxBytes

instance : DecidablePred Fits := fun _ => inferInstanceAs (Decidable (_ ∧ _))

@[simp] theorem weight_cons (entry : Entry) (entries : List Entry) :
    weight (entry :: entries) = entry.text.len + weight entries := by
  rw [weight, List.map_cons, List.sum_cons, ← weight]

@[simp] theorem weight_append (front back : List Entry) : weight (front ++ back) = weight front + weight back := by
  rw [weight, List.map_append, List.sum_append, ← weight, ← weight]

theorem Fits.init {entries : List Entry} {entry : Entry} (h : Fits (entries ++ [entry])) : Fits entries := by
  obtain ⟨hlen, hweight⟩ := h
  rw [List.length_append] at hlen
  rw [weight_append] at hweight
  exact ⟨by omega, by omega⟩

/-- A counter that counts its entries never falls below zero, and the loop stops
where they fit. -/
theorem evict_weight (entries : List Entry) :
    evict entries (weight entries) =
      some { entries := Library.Suffix.evict Fits entries, bytes := weight (Library.Suffix.evict Fits entries) } := by
  induction entries with
  | nil => rfl
  | cons entry entries ih =>
      by_cases hfits : Fits (entry :: entries)
      · rw [evict, if_neg, Library.Suffix.evict, if_pos hfits]
        rw [not_or, Nat.not_lt, Nat.not_lt]
        exact hfits
      · have hover : maxEntries < (entry :: entries).length ∨ maxBytes < weight (entry :: entries) := by
          by_contra h
          rw [not_or, Nat.not_lt, Nat.not_lt] at h
          exact hfits h
        have hle : entry.text.len ≤ weight (entry :: entries) := by simp
        have hrest : weight (entry :: entries) - entry.text.len = weight entries := by simp
        rw [evict, if_pos hover, if_pos hle, hrest, ih, Library.Suffix.evict, if_neg hfits]

end Evict

/-- The scrollback against all that was shown. -/
structure Keeps (scrollback : Scrollback) (shown : List Entry) : Prop where
  longest : LongestSuffix Fits scrollback.entries shown
  bytes_eq : scrollback.bytes = weight scrollback.entries

theorem keeps_empty : empty.Keeps [] :=
  ⟨⟨List.suffix_rfl, by decide, fun t ht _ => ht⟩, rfl⟩

theorem Keeps.push {scrollback : Scrollback} {shown : List Entry} (h : scrollback.Keeps shown)
    (author : Author) (text : Text) :
    ∃ entry scrollback', scrollback.push author text = some scrollback' ∧
      entry.author = author ∧ Shows text entry.text ∧ scrollback'.Keeps (shown ++ [entry]) := by
  obtain ⟨line, hshorten, hshows⟩ := shorten_shows text
  have hsum : scrollback.bytes + line.len = weight (scrollback.entries ++ [{ author, text := line }]) := by
    rw [h.bytes_eq, weight_append]
    rfl
  have hpush : scrollback.push author text = some
      { entries := Library.Suffix.evict Fits (scrollback.entries ++ [{ author, text := line }])
        bytes := weight (Library.Suffix.evict Fits (scrollback.entries ++ [{ author, text := line }])) } := by
    rw [Scrollback.push, hshorten, ← evict_weight, ← hsum]
    rfl
  refine ⟨{ author, text := line }, _, hpush, rfl, hshows, ?_, rfl⟩
  exact h.longest.snoc (fun _ _ => Fits.init) (evict_longest (by decide) _)

theorem Keeps.pushAll {scrollback : Scrollback} {shown : List Entry} (h : scrollback.Keeps shown)
    (pushes : List (Author × Text)) :
    ∃ entries scrollback', scrollback.pushAll pushes = some scrollback' ∧
      List.Forall₂ (fun pushed entry => entry.author = pushed.1 ∧ Shows pushed.2 entry.text) pushes entries ∧
      scrollback'.Keeps (shown ++ entries) := by
  induction pushes generalizing scrollback shown with
  | nil => exact ⟨[], scrollback, rfl, .nil, by rwa [List.append_nil]⟩
  | cons pushed pushes ih =>
      obtain ⟨entry, middle, hpush, hauthor, hshows, hkeeps⟩ := h.push pushed.1 pushed.2
      obtain ⟨entries, scrollback', hrest, hshown, hkeeps'⟩ := ih hkeeps
      refine ⟨entry :: entries, scrollback', ?_, .cons ⟨hauthor, hshows⟩ hshown, ?_⟩
      · rw [Scrollback.pushAll, List.foldlM_cons, hpush]
        exact hrest
      · rw [List.append_cons]
        exact hkeeps'

theorem fits_singleton {pushes : List (Author × Text)} {shown : List Entry}
    (h : List.Forall₂ (fun pushed entry => entry.author = pushed.1 ∧ Shows pushed.2 entry.text) pushes shown)
    {entry : Entry} (hentry : entry ∈ shown) : Fits [entry] := by
  induction h with
  | nil => cases hentry
  | cons hhead _ ih =>
      rcases List.mem_cons.1 hentry with rfl | hentry
      · refine ⟨(by decide : 1 ≤ maxEntries), ?_⟩
        rw [weight_cons]
        exact (Nat.add_le_add_right hhead.2.len_le _).trans (by decide)
      · exact ih hentry

/-- The entries are always the longest run of the newest texts that fits, the
counter is their bytes, and the newest text is among them. -/
theorem scrollback_longest_suffix (pushes : List (Author × Text)) :
    ∃ shown scrollback, empty.pushAll pushes = some scrollback ∧
      List.Forall₂ (fun pushed entry => entry.author = pushed.1 ∧ Shows pushed.2 entry.text) pushes shown ∧
      LongestSuffix (fun entries => entries.length ≤ 1000 ∧ weight entries ≤ 262144) scrollback.entries shown ∧
      scrollback.bytes = weight scrollback.entries ∧
      scrollback.entries.getLast? = shown.getLast? := by
  obtain ⟨shown, scrollback, hpush, hshown, hkeeps⟩ := keeps_empty.pushAll pushes
  rw [List.nil_append] at hkeeps
  refine ⟨shown, scrollback, hpush, hshown, hkeeps.longest, hkeeps.bytes_eq, ?_⟩
  rcases List.eq_nil_or_concat shown with rfl | ⟨front, entry, rfl⟩
  · rw [List.suffix_nil.1 hkeeps.longest.suffix]
  · rw [List.concat_eq_append] at hshown hkeeps ⊢
    have hfits : Fits [entry] := fits_singleton hshown (List.mem_append_right front List.mem_cons_self)
    rw [hkeeps.longest.getLast?_eq hfits, List.getLast?_concat]

end Scrollback

end Ruxmsg.Cli

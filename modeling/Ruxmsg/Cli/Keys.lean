import Ruxmsg.Cli.Config

namespace Ruxmsg.Cli

inductive Modifier
  | ctrl
  | alt
  deriving DecidableEq

def Modifier.text : Modifier → Text
  | .ctrl => ['c', 't', 'r', 'l', '-']
  | .alt => ['a', 'l', 't', '-']

inductive KeyText : Text → KeyName → Prop
  | esc : KeyText ['e', 's', 'c'] .esc
  | up : KeyText ['u', 'p'] .up
  | down : KeyText ['d', 'o', 'w', 'n'] .down
  | pageUp : KeyText ['p', 'a', 'g', 'e', 'u', 'p'] .pageUp
  | pageDown : KeyText ['p', 'a', 'g', 'e', 'd', 'o', 'w', 'n'] .pageDown
  | home : KeyText ['h', 'o', 'm', 'e'] .home
  | «end» : KeyText ['e', 'n', 'd'] .end
  | function (n : Nat) (first : 1 ≤ n) (last : n ≤ 12) : KeyText ('f' :: Nat.toDigits 10 n) (.function n)
  | letter (c : Char) (lower : c.isLower) : KeyText [c] (.letter c)

/-- The key bindings: any modifiers, then a key; a letter needs a modifier, and
Ctrl-C and Ctrl-D are reserved. -/
def Spells (text : Text) (spec : KeySpec) : Prop :=
  ∃ modifiers base, text = modifiers.flatMap Modifier.text ++ base ∧ KeyText base spec.key ∧
    (spec.ctrl = true ↔ .ctrl ∈ modifiers) ∧ (spec.alt = true ↔ .alt ∈ modifiers) ∧
    ∀ c, spec.key = .letter c → modifiers ≠ [] ∧ ((c = 'c' ∨ c = 'd') → Modifier.ctrl ∉ modifiers)

variable {text base number : Text} {key : KeyName} {spec : KeySpec} {n m : Nat}

section Numerals

theorem parseDigits_zeros (zeros : Nat) (text : Text) :
    parseDigits (List.replicate zeros '0' ++ text) 0 = parseDigits text 0 := by
  induction zeros with
  | zero => rfl
  | succ zeros ih =>
      rw [List.replicate_succ, List.cons_append, parseDigits, ← ih]
      rfl

theorem eq_digitChar {c : Char} (h : c.isDigit = true) :
    Nat.digitChar (c.toNat - 48) = c ∧ c.toNat - 48 < 10 := by
  rw [Char.isDigit, Bool.and_eq_true, decide_eq_true_eq, decide_eq_true_eq] at h
  have hlow : 48 ≤ c.toNat := UInt32.le_iff_toNat_le.1 h.1
  have hhigh : c.toNat ≤ 57 := UInt32.le_iff_toNat_le.1 h.2
  have hlt : c.toNat - 48 < 10 := by omega
  refine ⟨?_, hlt⟩
  apply Char.toNat_inj.1
  rw [Nat.toNat_digitChar_of_lt_ten hlt]
  omega

theorem parseDigits_append (hm : 0 < m) (h : parseDigits text m = some n) :
    Nat.toDigits 10 n = Nat.toDigits 10 m ++ text := by
  induction text generalizing m with
  | nil =>
      rw [parseDigits, Option.some.injEq] at h
      rw [h, List.append_nil]
  | cons c text ih =>
      rw [parseDigits] at h
      split at h
      · next hdigit =>
        obtain ⟨hc, hlt⟩ := eq_digitChar hdigit
        dsimp only at h
        split at h
        · rw [ih (by omega) h, Nat.mul_comm, ← Nat.toDigits_append_toDigits (by decide) hm hlt,
            Nat.toDigits_of_lt_base hlt, hc, List.append_assoc, List.singleton_append]
        · cases h
      · cases h

/-- What is read as a number is its numeral, with zeros in front at most. -/
theorem parseDigits_eq_some (hn : 0 < n) (h : parseDigits text 0 = some n) :
    ∃ zeros, text = List.replicate zeros '0' ++ Nat.toDigits 10 n := by
  induction text with
  | nil =>
      rw [parseDigits, Option.some.injEq] at h
      omega
  | cons c text ih =>
      rw [parseDigits] at h
      split at h
      · next hdigit =>
        obtain ⟨hc, hlt⟩ := eq_digitChar hdigit
        rw [Nat.zero_mul, Nat.zero_add] at h
        dsimp only at h
        rw [if_pos (by omega)] at h
        rcases Nat.eq_zero_or_pos (c.toNat - 48) with hzero | hpos
        · rw [hzero] at h hc
          obtain ⟨zeros, rfl⟩ := ih h
          refine ⟨zeros + 1, ?_⟩
          rw [List.replicate_succ, List.cons_append, ← hc]
          rfl
        · refine ⟨0, ?_⟩
          rw [parseDigits_append hpos h, Nat.toDigits_of_lt_base hlt, hc]
          rfl
      · cases h

theorem parseU8_eq_some (first : 1 ≤ n) (last : n ≤ 12) :
    parseU8 number = some n ↔ ∃ plus zeros, (plus = [] ∨ plus = ['+']) ∧
      number = plus ++ List.replicate zeros '0' ++ Nat.toDigits 10 n := by
  have hread : parseDigits (Nat.toDigits 10 n) 0 = some n := by
    interval_cases n <;> rfl
  constructor
  · intro h
    rw [parseU8.eq_def] at h
    split at h
    · cases h
    · cases h
    · obtain ⟨zeros, rfl⟩ := parseDigits_eq_some first h
      exact ⟨['+'], zeros, .inr rfl, rfl⟩
    · obtain ⟨zeros, rfl⟩ := parseDigits_eq_some first h
      exact ⟨[], zeros, .inl rfl, rfl⟩
  · rintro ⟨plus, zeros, hplus, rfl⟩
    rw [List.append_assoc]
    rw [← parseDigits_zeros zeros] at hread
    have hdigit : ∃ c text, c ≠ '+' ∧ List.replicate zeros '0' ++ Nat.toDigits 10 n = c :: text := by
      cases zeros with
      | zero => interval_cases n <;> exact ⟨_, _, by decide, rfl⟩
      | succ zeros => exact ⟨'0', _, by decide, rfl⟩
    obtain ⟨c, text, hc, htext⟩ := hdigit
    rw [htext] at hread ⊢
    rcases hplus with rfl | rfl
    · rw [List.nil_append, parseU8, hread]
      · intro h
        cases h
      · intro h
        exact hc (List.cons.inj h).1
      · intro text' h
        exact hc (List.cons.inj h).1
    · exact hread

end Numerals

section Modifiers

/-- No modifier stands in front. -/
def Bare (text : Text) : Prop := ∀ modifier tail, text ≠ Modifier.text modifier ++ tail

theorem stripModifiers_bare (h : Bare text) (ctrl alt : Bool) :
    stripModifiers text ctrl alt = (text, ctrl, alt) := by
  rw [stripModifiers.eq_def]
  split
  · exact absurd rfl (h .ctrl _)
  · exact absurd rfl (h .alt _)
  · rfl

theorem stripModifiers_append (modifiers : List Modifier) (h : Bare base) (ctrl alt : Bool) :
    stripModifiers (modifiers.flatMap Modifier.text ++ base) ctrl alt =
      (base, ctrl || decide (.ctrl ∈ modifiers), alt || decide (.alt ∈ modifiers)) := by
  induction modifiers generalizing ctrl alt with
  | nil => simp [stripModifiers_bare h]
  | cons modifier modifiers ih =>
      rw [List.flatMap_cons, List.append_assoc]
      cases modifier with
      | ctrl =>
          rw [Modifier.text, List.cons_append, List.cons_append, List.cons_append, List.cons_append,
            List.cons_append, List.nil_append, stripModifiers, ih]
          simp
      | alt =>
          rw [Modifier.text, List.cons_append, List.cons_append, List.cons_append, List.cons_append,
            List.nil_append, stripModifiers, ih]
          simp

theorem exists_modifiers (text : Text) (ctrl alt : Bool) :
    ∃ (modifiers : List Modifier) (base : Text),
      text = modifiers.flatMap Modifier.text ++ base ∧ Bare base := by
  induction text, ctrl, alt using stripModifiers.induct with
  | case1 tail _ _ ih =>
      obtain ⟨modifiers, base, rfl, hbare⟩ := ih
      exact ⟨.ctrl :: modifiers, base, rfl, hbare⟩
  | case2 tail _ _ ih =>
      obtain ⟨modifiers, base, rfl, hbare⟩ := ih
      exact ⟨.alt :: modifiers, base, rfl, hbare⟩
  | case3 rest _ _ hctrl halt =>
      refine ⟨[], rest, rfl, ?_⟩
      intro modifier tail h
      cases modifier with
      | ctrl => exact hctrl tail h
      | alt => exact halt tail h

theorem modifiers_ne_nil {modifiers : List Modifier} :
    modifiers ≠ [] ↔ .ctrl ∈ modifiers ∨ .alt ∈ modifiers := by
  constructor
  · intro h
    obtain ⟨modifier, hmem⟩ := List.exists_mem_of_ne_nil modifiers h
    cases modifier with
    | ctrl => exact .inl hmem
    | alt => exact .inr hmem
  · rintro (h | h)
    · exact List.ne_nil_of_mem h
    · exact List.ne_nil_of_mem h

theorem KeyText.bare (h : KeyText base key) : Bare base := by
  intro modifier tail he
  cases h <;> cases modifier <;> simp [Modifier.text] at he

theorem KeyText.letter_f (h : KeyText ['f'] key) : key = .letter 'f' := by
  generalize hbase : ['f'] = base at h
  cases h with
  | function n => exact absurd (List.cons.inj hbase).2.symm Nat.toDigits_ne_nil
  | letter c => rw [(List.cons.inj hbase).1]
  | _ => cases hbase

/-- A text is written with its modifiers in one way, up to their order. -/
theorem modifiers_unique {modifiers modifiers' : List Modifier} {base' : Text} (h : Bare base) (h' : Bare base')
    (he : modifiers.flatMap Modifier.text ++ base = modifiers'.flatMap Modifier.text ++ base') :
    base = base' ∧ ∀ modifier, modifier ∈ modifiers ↔ modifier ∈ modifiers' := by
  have hstrip := stripModifiers_append modifiers h false false
  rw [he, stripModifiers_append modifiers' h', Prod.mk.injEq, Prod.mk.injEq] at hstrip
  obtain ⟨hbase, hctrl, halt⟩ := hstrip
  rw [Bool.false_or, Bool.false_or, decide_eq_decide] at hctrl halt
  refine ⟨hbase.symm, ?_⟩
  intro modifier
  cases modifier with
  | ctrl => exact hctrl.symm
  | alt => exact halt.symm

end Modifiers

section Names

/-- A numeral of a function key that is not the plain one. -/
def Overspelled (number : Text) : Prop :=
  ∃ plus zeros n, (plus = [] ∨ plus = ['+']) ∧ 1 ≤ n ∧ n ≤ 12 ∧
    number = plus ++ List.replicate zeros '0' ++ Nat.toDigits 10 n ∧ number ≠ Nat.toDigits 10 n

theorem parseKeyName_function (first : 1 ≤ n) (last : n ≤ 12) (h : parseU8 number = some n) :
    parseKeyName ('f' :: number) = .ok (.function n) := by
  rw [parseKeyName, h]
  exact if_pos ⟨first, last⟩

/-- The key names that are read are the written ones, but for the letter f and
the other numerals of function keys. -/
theorem parseKeyName_eq_ok (hf : base ≠ ['f']) (hover : ∀ number, base = 'f' :: number → ¬ Overspelled number) :
    parseKeyName base = .ok key ↔ KeyText base key := by
  constructor
  · intro h
    rw [parseKeyName.eq_def] at h
    split at h
    · cases h
      exact .esc
    · cases h
      exact .up
    · cases h
      exact .down
    · cases h
      exact .pageUp
    · cases h
      exact .pageDown
    · cases h
      exact .home
    · cases h
      exact .end
    · next number =>
      split at h
      · next n hparse =>
        split at h
        · next hbound =>
          cases h
          have hnumber := (parseU8_eq_some hbound.1 hbound.2).1 hparse
          have hplain : number = Nat.toDigits 10 n := by
            by_contra hne
            obtain ⟨plus, zeros, hplus, he⟩ := hnumber
            exact hover number rfl ⟨plus, zeros, n, hplus, hbound.1, hbound.2, he, hne⟩
          rw [hplain]
          exact .function n hbound.1 hbound.2
        · cases h
      · cases h
    · split at h
      · next hletter =>
        obtain ⟨rfl, lower⟩ := hletter
        cases h
        exact .letter _ lower
      · cases h
    · cases h
  · intro h
    cases h with
    | function n first last =>
        exact parseKeyName_function first last ((parseU8_eq_some first last).2 ⟨[], 0, .inl rfl, rfl⟩)
    | letter c lower =>
        rw [parseKeyName, if_pos ⟨rfl, lower⟩]
        -- no other key name is one letter long
        all_goals rintro rfl
        all_goals first | exact hf rfl | rintro ⟨⟩
    | _ => rfl

theorem allowed_iff (modifiers : List Modifier) (key : KeyName) :
    (¬ (key.isLetter = true ∧ ¬ (decide (Modifier.ctrl ∈ modifiers) || decide (Modifier.alt ∈ modifiers)) = true) ∧
      ¬ ((key = .letter 'c' ∨ key = .letter 'd') ∧ decide (Modifier.ctrl ∈ modifiers) = true)) ↔
    ∀ c, key = .letter c → modifiers ≠ [] ∧ ((c = 'c' ∨ c = 'd') → Modifier.ctrl ∉ modifiers) := by
  rw [Bool.or_eq_true, decide_eq_true_iff, decide_eq_true_iff, ← modifiers_ne_nil]
  constructor
  · rintro ⟨hplain, hreserved⟩ c rfl
    constructor
    · intro hnil
      exact hplain ⟨rfl, fun hne => hne hnil⟩
    · rintro hcd hmem
      apply hreserved
      rcases hcd with rfl | rfl
      · exact ⟨.inl rfl, hmem⟩
      · exact ⟨.inr rfl, hmem⟩
  · intro hletter
    constructor
    · rintro ⟨hkey, hnone⟩
      cases key with
      | letter c => exact hnone (hletter c rfl).1
      | _ => cases hkey
    · rintro ⟨hkey | hkey, hmem⟩
      · exact (hletter 'c' hkey).2 (.inl rfl) hmem
      · exact (hletter 'd' hkey).2 (.inr rfl) hmem

/-- The modifiers and the key behind them, as the parser finds them. -/
theorem parseKey_eq_ok (hpos : text ≠ []) (hlen : text.length ≤ 16) (hascii : ∀ c ∈ text, c.toNat < 128)
    {modifiers : List Modifier} (hbare : Bare base)
    (htext : text.map Char.toLower = modifiers.flatMap Modifier.text ++ base) :
    parseKey text = .ok spec ↔ parseKeyName base = .ok spec.key ∧
      (spec.ctrl = true ↔ .ctrl ∈ modifiers) ∧ (spec.alt = true ↔ .alt ∈ modifiers) ∧
      ∀ c, spec.key = .letter c → modifiers ≠ [] ∧ ((c = 'c' ∨ c = 'd') → Modifier.ctrl ∉ modifiers) := by
  have hguard : ¬ (text = [] ∨ 16 < text.len ∨ ¬ text.all fun c => c.toNat < 128) := by
    rw [Text.len_ascii hascii, List.all_eq_true]
    rintro (h | h | h)
    · exact hpos h
    · omega
    · exact h fun c hc => decide_eq_true (hascii c hc)
  rw [parseKey, if_neg hguard, htext, stripModifiers_append modifiers hbare, Bool.false_or, Bool.false_or]
  dsimp only
  cases hname : parseKeyName base with
  | error error =>
      constructor
      · intro h
        cases h
      · rintro ⟨h, -⟩
        cases h
  | ok key =>
      dsimp only
      constructor
      · intro h
        split at h
        · cases h
        · next hplain =>
          split at h
          · cases h
          · next hreserved =>
            cases h
            exact ⟨rfl, decide_eq_true_iff, decide_eq_true_iff, (allowed_iff modifiers key).1 ⟨hplain, hreserved⟩⟩
      · rintro ⟨hkey, hctrl, halt, hletter⟩
        obtain rfl := Except.ok.inj hkey
        obtain ⟨hplain, hreserved⟩ := (allowed_iff modifiers spec.key).2 hletter
        rw [if_neg hplain, if_neg hreserved, Except.ok.injEq, KeySpec.mk.injEq]
        refine ⟨rfl, ?_, ?_⟩
        · rw [Bool.eq_iff_iff, hctrl, decide_eq_true_iff]
        · rw [Bool.eq_iff_iff, halt, decide_eq_true_iff]

end Names

/-- Where the parser does not keep to the grammar: a modified letter f, and the
other numerals of function keys. -/
def Strays (text : Text) : Prop :=
  ∃ (modifiers : List Modifier) (number : Text), text = modifiers.flatMap Modifier.text ++ 'f' :: number ∧
    ((modifiers ≠ [] ∧ number = []) ∨ Overspelled number)

theorem bare_f (number : Text) : Bare ('f' :: number) := by
  intro modifier tail he
  cases modifier <;> simp [Modifier.text] at he

theorem spells_letter_f {modifiers : List Modifier} (hne : modifiers ≠ []) :
    Spells (modifiers.flatMap Modifier.text ++ ['f'])
      { key := .letter 'f', ctrl := decide (.ctrl ∈ modifiers), alt := decide (.alt ∈ modifiers) } := by
  refine ⟨modifiers, ['f'], rfl, .letter 'f' (by decide), decide_eq_true_iff, decide_eq_true_iff, ?_⟩
  rintro c hc
  cases hc
  exact ⟨hne, fun h => absurd h (by decide)⟩

theorem Spells.numeral {modifiers : List Modifier}
    (h : Spells (modifiers.flatMap Modifier.text ++ 'f' :: number) spec) (hkey : spec.key = .function n) :
    number = Nat.toDigits 10 n := by
  obtain ⟨modifiers', base, htext, hbase, -⟩ := h
  obtain ⟨rfl, -⟩ := modifiers_unique (bare_f number) hbase.bare htext
  rw [hkey] at hbase
  cases hbase
  rfl

/-- The key bindings are read by their grammar exactly where the text does not
stray from it. -/
theorem parse_key_grammar_iff (text : Text) (hpos : text ≠ []) (hlen : text.length ≤ 16)
    (hascii : ∀ c ∈ text, c.toNat < 128) :
    (∀ spec, parseKey text = .ok spec ↔ Spells (text.map Char.toLower) spec) ↔
      ¬ Strays (text.map Char.toLower) := by
  constructor
  · rintro hgrammar ⟨modifiers, number, htext, hcase⟩
    have hparse (spec : KeySpec) := @parseKey_eq_ok text _ spec hpos hlen hascii modifiers (bare_f number) htext
    rcases hcase with ⟨hne, rfl⟩ | ⟨plus, zeros, n, hplus, first, last, hnumber, hne⟩
    · -- the letter is written, but the parser takes it for a function key
      have hok := (hgrammar _).2 (htext ▸ spells_letter_f hne)
      cases ((hparse _).1 hok).1
    · -- the numeral is none that is written, but the parser reads it
      have hok : parseKey text = .ok
          { key := .function n, ctrl := decide (.ctrl ∈ modifiers), alt := decide (.alt ∈ modifiers) } := by
        refine (hparse _).2 ⟨?_, decide_eq_true_iff, decide_eq_true_iff, ?_⟩
        · exact parseKeyName_function first last ((parseU8_eq_some first last).2 ⟨plus, zeros, hplus, hnumber⟩)
        · rintro c hc
          cases hc
      have hspells := (hgrammar _).1 hok
      rw [htext] at hspells
      exact hne (hspells.numeral rfl)
  · intro hstray spec
    obtain ⟨modifiers, base, htext, hbare⟩ := exists_modifiers (text.map Char.toLower) false false
    rw [parseKey_eq_ok hpos hlen hascii hbare htext]
    have hover : ∀ number, base = 'f' :: number → ¬ Overspelled number := by
      rintro number rfl hover
      exact hstray ⟨modifiers, number, htext, .inr hover⟩
    have hf : base = ['f'] → modifiers = [] := by
      rintro rfl
      by_contra hne
      exact hstray ⟨modifiers, [], htext, .inl ⟨hne, rfl⟩⟩
    constructor
    · rintro ⟨hkey, hctrl, halt, hletter⟩
      refine ⟨modifiers, base, htext, ?_, hctrl, halt, hletter⟩
      apply (parseKeyName_eq_ok _ hover).1 hkey
      rintro rfl
      cases hkey
    · rintro ⟨modifiers', base', htext', hkey, hctrl, halt, hletter⟩
      obtain ⟨rfl, hmem⟩ := modifiers_unique hkey.bare hbare (htext'.symm.trans htext)
      have hnil : modifiers' ≠ [] ↔ modifiers ≠ [] := by
        rw [modifiers_ne_nil, modifiers_ne_nil, hmem, hmem]
      refine ⟨?_, hctrl.trans (hmem _), halt.trans (hmem _), ?_⟩
      · apply (parseKeyName_eq_ok _ hover).2 hkey
        rintro rfl
        exact hnil.1 (hletter 'f' hkey.letter_f).1 (hf rfl)
      · intro c hc
        rw [← hnil, ← hmem]
        exact hletter c hc

/-- Ctrl-X does not stray: it is read, and as what is written. -/
theorem parse_key_grammar_iff_ctrl_x :
    parseKey ['C', 't', 'r', 'l', '-', 'x'] = .ok { key := .letter 'x', ctrl := true, alt := false } ∧
      Spells (['C', 't', 'r', 'l', '-', 'x'].map Char.toLower) { key := .letter 'x', ctrl := true, alt := false } := by
  have hstray : ¬ Strays (['C', 't', 'r', 'l', '-', 'x'].map Char.toLower) := by
    rintro ⟨modifiers, number, htext, -⟩
    have hf : 'f' ∈ ['C', 't', 'r', 'l', '-', 'x'].map Char.toLower := by
      rw [htext]
      exact List.mem_append_right _ List.mem_cons_self
    revert hf
    decide
  have hread : parseKey ['C', 't', 'r', 'l', '-', 'x'] =
      .ok { key := .letter 'x', ctrl := true, alt := false } := by
    decide
  refine ⟨hread, ?_⟩
  exact ((parse_key_grammar_iff _ (by decide) (by decide) (by simp)).2 hstray _).1 hread

/-- Ctrl-F is written like any other letter, but cannot be bound. -/
theorem ctrl_f_refused :
    ¬ ∀ spec, parseKey ['c', 't', 'r', 'l', '-', 'f'] = .ok spec ↔
      Spells (['c', 't', 'r', 'l', '-', 'f'].map Char.toLower) spec := by
  intro h
  have hspells : Spells (['c', 't', 'r', 'l', '-', 'f'].map Char.toLower)
      { key := .letter 'f', ctrl := true, alt := false } := by
    refine ⟨[.ctrl], ['f'], rfl, .letter 'f' (by decide), by decide, by decide, ?_⟩
    rintro c hc
    cases hc
    exact ⟨by decide, by decide⟩
  exact absurd ((h _).2 hspells) (by decide)

end Ruxmsg.Cli

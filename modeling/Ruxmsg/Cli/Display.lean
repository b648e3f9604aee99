import Ruxmsg.Cli.Text

namespace Ruxmsg.Cli

def isControl (c : Char) : Bool := c.toNat < 0x20 || (0x7f ≤ c.toNat && c.toNat ≤ 0x9f)

/-- The characters that are shown as an escape. -/
def isUnsafe (c : Char) : Bool :=
  (isControl c && c ≠ '\n' && c ≠ '\t') ||
    c.toNat = 0x061c || c.toNat = 0x200e || c.toNat = 0x200f ||
    (0x2028 ≤ c.toNat && c.toNat ≤ 0x202e) || (0x2066 ≤ c.toNat && c.toNat ≤ 0x2069) || c.toNat = 0xfeff

/-- Lower-case hexadecimal digits, at least four of them. -/
def hex (n : Nat) : Text := (Nat.toDigits 16 n).leftpad 4 '0'

def sanitizeForDisplay (input : Text) : Text :=
  input.flatMap fun c => if isUnsafe c then ['\\', 'u', '{'] ++ hex c.toNat ++ ['}'] else [c]

/-- How many bytes a leading byte announces, and the range of the next one. -/
def utf8Lead (b : Nat) : Option (Nat × Nat × Nat) :=
  if 0xc2 ≤ b ∧ b ≤ 0xdf then some (2, 0x80, 0xbf)
  else if b = 0xe0 then some (3, 0xa0, 0xbf)
  else if b = 0xed then some (3, 0x80, 0x9f)
  else if 0xe1 ≤ b ∧ b ≤ 0xef then some (3, 0x80, 0xbf)
  else if b = 0xf0 then some (4, 0x90, 0xbf)
  else if 0xf1 ≤ b ∧ b ≤ 0xf3 then some (4, 0x80, 0xbf)
  else if b = 0xf4 then some (4, 0x80, 0x8f)
  else none

/-- A decoder between two bytes: at a boundary, or `missing` bytes before the end
of a character with `bits` so far, whose next byte lies between two bounds. -/
inductive Utf8State
  | boundary
  | within (missing bits lower upper : Nat)

def utf8Start (b : Nat) : Text × Utf8State :=
  if b < 0x80 then ([Char.ofNat b], .boundary)
  else
    match utf8Lead b with
    | none => (['\ufffd'], .boundary)
    | some (2, lower, upper) => ([], .within 1 (b % 0x20) lower upper)
    | some (3, lower, upper) => ([], .within 2 (b % 0x10) lower upper)
    | some (_, lower, upper) => ([], .within 3 (b % 0x08) lower upper)

/-- Reads a byte. A character that breaks off is replaced, and the byte that
broke it starts the next one. -/
def utf8Step (b : Nat) : Utf8State → Text × Utf8State
  | .boundary => utf8Start b
  | .within missing bits lower upper =>
      if lower ≤ b ∧ b ≤ upper then
        let bits := bits * 0x40 + b % 0x40
        if missing = 1 then ([Char.ofNat bits], .boundary) else ([], .within (missing - 1) bits 0x80 0xbf)
      else
        let (shown, state) := utf8Start b
        ('\ufffd' :: shown, state)

/-- `String::from_utf8_lossy`, from a state on. -/
def utf8Lossy : List UInt8 → Utf8State → Text
  | [], .boundary => []
  | [], .within .. => ['\ufffd']
  | b :: bytes, state =>
      let (shown, state) := utf8Step b.toNat state
      shown ++ utf8Lossy bytes state

def fromUtf8Lossy (bytes : List UInt8) : Text := utf8Lossy bytes .boundary

def ingest (bytes : List UInt8) : Text :=
  (sanitizeForDisplay (fromUtf8Lossy bytes)).flatMap fun c => if c = '\t' then "    ".toList else [c]

theorem isUnsafe_toDigits (n : Nat) : ∀ c ∈ Nat.toDigits 16 n, isUnsafe c = false ∧ c ≠ '\t' := by
  induction n using Nat.strongRecOn with
  | ind n ih =>
      have hdigit (d : Nat) (hd : d < 16) : isUnsafe d.digitChar = false ∧ d.digitChar ≠ '\t' := by
        revert d
        decide
      intro c hc
      rw [Nat.toDigits_eq_if (by decide)] at hc
      split at hc
      · next hn =>
        obtain rfl := List.mem_singleton.1 hc
        exact hdigit n hn
      · next hn =>
        rcases List.mem_append.1 hc with hc | hc
        · exact ih (n / 16) (Nat.div_lt_self (by omega) (by decide)) c hc
        · obtain rfl := List.mem_singleton.1 hc
          exact hdigit _ (Nat.mod_lt n (by decide))

/-- What is shown moves no cursor: no control characters but the newline, none
that change the direction of the text. -/
theorem sanitizeForDisplay_safe (input : Text) : ∀ c ∈ sanitizeForDisplay input, isUnsafe c = false := by
  have hopen : ['\\', 'u', '{'].all fun c => isUnsafe c = false := by decide
  intro c hc
  obtain ⟨d, -, hc⟩ := List.mem_flatMap.1 hc
  split at hc
  · rw [List.mem_append, List.mem_append, hex, List.leftpad, List.mem_append] at hc
    rcases hc with (hc | hc | hc) | hc
    · exact of_decide_eq_true (List.all_eq_true.1 hopen c hc)
    · rw [List.eq_of_mem_replicate hc]
      decide
    · exact (isUnsafe_toDigits _ c hc).1
    · rw [List.mem_singleton.1 hc]
      decide
  · next hd =>
    rw [List.mem_singleton.1 hc]
    exact Bool.eq_false_iff.2 hd

theorem ingest_safe (bytes : List UInt8) : ∀ c ∈ ingest bytes, isUnsafe c = false ∧ c ≠ '\t' := by
  have hspaces : "    ".toList.all fun c => isUnsafe c = false ∧ c ≠ '\t' := by decide
  intro c hc
  obtain ⟨d, hd, hc⟩ := List.mem_flatMap.1 hc
  split at hc
  · exact of_decide_eq_true (List.all_eq_true.1 hspaces c hc)
  · next htab =>
    rw [List.mem_singleton.1 hc]
    exact ⟨sanitizeForDisplay_safe _ d hd, htab⟩

end Ruxmsg.Cli

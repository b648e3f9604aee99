import Ruxmsg.Cli.Text
import Mathlib.Tactic.IntervalCases
import Mathlib.Data.List.Basic

namespace Ruxmsg.Cli

inductive ConfigError
  | unreadable
  | unsafeFile
  | tooLarge
  | notUtf8
  | invalidSyntax (line : Nat)
  | invalidColor
  | invalidKey
  | reservedOrDuplicateKey
  | invalidBorder
  | tickOutOfRange
  deriving DecidableEq

/-- A letter is only valid together with Ctrl or Alt. -/
inductive KeyName
  | esc
  | up
  | down
  | pageUp
  | pageDown
  | home
  | «end»
  | function (number : Nat)
  | letter (character : Char)
  deriving DecidableEq

structure KeySpec where
  key : KeyName
  ctrl : Bool
  alt : Bool
  deriving DecidableEq

structure KeyMap where
  leave : KeySpec
  rekey : KeySpec
  scrollUp : KeySpec
  scrollDown : KeySpec
  pageUp : KeySpec
  pageDown : KeySpec
  deriving DecidableEq

def KeySpec.plain (key : KeyName) : KeySpec := { key, ctrl := false, alt := false }

def KeyMap.default : KeyMap where
  leave := .plain .esc
  rekey := { key := .letter 'r', ctrl := true, alt := false }
  scrollUp := .plain .up
  scrollDown := .plain .down
  pageUp := .plain .pageUp
  pageDown := .plain .pageDown

/-- The digits of a `u8`, after what was read already. -/
def parseDigits : Text → Nat → Option Nat
  | [], value => some value
  | c :: text, value =>
      if c.isDigit then
        let value := value * 10 + (c.toNat - 48)
        if value < 256 then parseDigits text value else none
      else none

/-- `str::parse` for a `u8`: a plus sign may stand before the digits. -/
def parseU8 : Text → Option Nat
  | [] => none
  | ['+'] => none
  | '+' :: text => parseDigits text 0
  | text => parseDigits text 0

/-- Takes the `ctrl-` and `alt-` in front of a key. -/
def stripModifiers : Text → Bool → Bool → Text × Bool × Bool
  | 'c' :: 't' :: 'r' :: 'l' :: '-' :: tail, _, alt => stripModifiers tail true alt
  | 'a' :: 'l' :: 't' :: '-' :: tail, ctrl, _ => stripModifiers tail ctrl true
  | rest, ctrl, alt => (rest, ctrl, alt)

def parseKeyName : Text → Except ConfigError KeyName
  | ['e', 's', 'c'] => .ok .esc
  | ['u', 'p'] => .ok .up
  | ['d', 'o', 'w', 'n'] => .ok .down
  | ['p', 'a', 'g', 'e', 'u', 'p'] => .ok .pageUp
  | ['p', 'a', 'g', 'e', 'd', 'o', 'w', 'n'] => .ok .pageDown
  | ['h', 'o', 'm', 'e'] => .ok .home
  | ['e', 'n', 'd'] => .ok .end
  | 'f' :: number =>
      match parseU8 number with
      | some number =>
          if 1 ≤ number ∧ number ≤ 12 then .ok (.function number) else .error .invalidKey
      | none => .error .invalidKey
  | letter :: rest => if rest = [] ∧ letter.isLower then .ok (.letter letter) else .error .invalidKey
  | [] => .error .invalidKey

def KeyName.isLetter : KeyName → Bool
  | .letter _ => true
  | _ => false

def parseKey (text : Text) : Except ConfigError KeySpec :=
  if text = [] ∨ 16 < text.len ∨ ¬ text.all fun c => c.toNat < 128 then .error .invalidKey
  else
    let (rest, ctrl, alt) := stripModifiers (text.map Char.toLower) false false
    match parseKeyName rest with
    | .error error => .error error
    | .ok key =>
        -- A bare letter would swallow typing.
        if key.isLetter ∧ ¬ (ctrl || alt) then .error .reservedOrDuplicateKey
        -- Ctrl-C and Ctrl-D always leave or quit.
        else if (key = .letter 'c' ∨ key = .letter 'd') ∧ ctrl then .error .reservedOrDuplicateKey
        else .ok { key, ctrl, alt }

end Ruxmsg.Cli

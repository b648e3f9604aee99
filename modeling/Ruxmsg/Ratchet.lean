import Ruxmsg.Crypto
import Mathlib.Data.List.AList

namespace Ruxmsg

inductive ReplayStatus
  | new
  | duplicate
  | tooOld
  deriving DecidableEq

/-- `bits` is the 64-bit map; bit 0 is the highest accepted counter. -/
structure ReplayWindow where
  highest : Option Nat
  bits : Nat
  deriving DecidableEq

def ReplayWindow.empty : ReplayWindow := { highest := none, bits := 0 }

def ReplayWindow.classify (window : ReplayWindow) (counter : Nat) : ReplayStatus :=
  match window.highest with
  | none => .new
  | some highest =>
      if highest < counter then .new
      else
        let distance := highest - counter
        if replayWindowSize ≤ distance then .tooOld
        else if window.bits &&& (1 <<< distance) ≠ 0 then .duplicate
        else .new

def ReplayWindow.accept (window : ReplayWindow) (counter : Nat) : Result ReplayWindow :=
  if window.classify counter ≠ .new then .error .replayRejected
  else .ok <|
    match window.highest with
    | none => { highest := some counter, bits := 1 }
    | some highest =>
        if highest < counter then
          let shift := counter - highest
          { highest := some counter
            bits := if 64 ≤ shift then 1 else (window.bits <<< shift) % 2 ^ 64 ||| 1 }
        else { window with bits := window.bits ||| (1 <<< (highest - counter)) }

/-- `skipped` holds the keys that are derived but not yet committed. -/
structure ReceivingChain where
  chainKey : Bytes 32
  nextCounter : Nat
  skipped : AList (fun _ : Nat => Bytes 32)
  direction : DirectionId

def ReceivingChain.new (chainKey : Bytes 32) (direction : DirectionId) : ReceivingChain :=
  { chainKey, nextCounter := 0, skipped := ∅, direction }

def ReceivingChain.skippedLen (chain : ReceivingChain) : Nat := chain.skipped.entries.length

def ReceivingChain.commitMessageKey (chain : ReceivingChain) (counter : Nat) :
    Result ReceivingChain :=
  if (chain.skipped.lookup counter).isSome then
    .ok { chain with skipped := chain.skipped.erase counter }
  else .error (.messageKeyUnavailable counter)

variable [Primitives]

/-- One round of the derivation: the key of `nextCounter` is derived and kept. -/
def ReceivingChain.advance (chain : ReceivingChain) : Bytes 32 × ReceivingChain :=
  let (key, next) := deriveMessageKey chain.chainKey chain.direction
  (key, { chain with
    chainKey := next
    nextCounter := chain.nextCounter + 1
    skipped := chain.skipped.insert chain.nextCounter key })

/-- `gap` rounds for the counters before the target, then the target's own. -/
def ReceivingChain.advanceTo (chain : ReceivingChain) : Nat → Bytes 32 × ReceivingChain
  | 0 => chain.advance
  | gap + 1 => chain.advance.2.advanceTo gap

def ReceivingChain.prepareMessageKey (chain : ReceivingChain) (counter : Nat) :
    Result (Bytes 32) × ReceivingChain :=
  match chain.skipped.lookup counter with
  | some key => (.ok key, chain)
  | none =>
      if counter < chain.nextCounter then (.error (.messageKeyUnavailable counter), chain)
      else if counter = u64Max then (.error .counterOverflow, chain)
      else
        let gap := counter - chain.nextCounter
        if maxSkippedKeys < gap then (.error .skippedKeyLimit, chain)
        else if maxPreparedKeys < chain.skippedLen + gap + 1 then (.error .skippedKeyLimit, chain)
        else
          let (key, chain) := chain.advanceTo gap
          (.ok key, chain)

end Ruxmsg

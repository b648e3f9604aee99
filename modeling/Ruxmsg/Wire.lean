import Ruxmsg.Protocol
import Ruxmsg.Library.Cbor
import Mathlib.Data.List.Sort

namespace Ruxmsg

open Library.Cbor

/-- The CBOR package: `into_writer` to a byte vector, and `from_reader` over
a cursor, which returns the value and the number of bytes consumed. -/
class Ciborium where
  intoWriter : Value → Except String (List UInt8)
  fromReader : List UInt8 → Except String (Value × Nat)

/-- What the CBOR package documents for definite-length items: preferred
serialization when writing, and RFC 8949 when reading, up to its recursion
limit. -/
structure Ciborium.Rfc8949 [Ciborium] : Prop where
  writes : ∀ v : Value, v.Encodable → Ciborium.intoWriter v = .ok v.encode
  reads : ∀ v : Value, v.Encodable → v.depth ≤ 128 → ∀ rest,
    Ciborium.fromReader (v.encode ++ rest) = .ok (v, v.encode.length)

/-- What the CBOR package reads it can also write: integers of 64 bits and a
sign, and lengths that the memory of the input bounds. -/
structure Ciborium.ReadsEncodable [Ciborium] : Prop where
  encodable : ∀ (bs : List UInt8) v n, bs.length < 2 ^ 63 → Ciborium.fromReader bs = .ok (v, n) →
    v.Encodable

def headerSize : Nat := 6
def maxCborNesting : Nat := 32

structure Frame where
  version : ProtocolVersion
  messageType : MessageType
  payload : List UInt8
  deriving DecidableEq

def checkLength (messageType : MessageType) (length : Nat) : Result Nat :=
  if length > messageType.maxPayload then .error (.invalidFrameLength length)
  else frameLength length

/-- `len().try_into::<u32>()`. -/
def payloadLength (payload : List UInt8) : Result Nat :=
  if payload.length ≤ u32Max then .ok payload.length else .error (.invalidFrameLength u32Max)

def Frame.new (messageType : MessageType) (payload : List UInt8) : Result Frame := do
  let length ← payloadLength payload
  let _ ← checkLength messageType length
  return { version := .v1, messageType, payload }

/-- Reads the argument of an item head at `position`; `rest` is the payload
from there on. -/
def readCborArgument (position : Nat) (rest : List UInt8) (additional : Nat) :
    Result (Nat × Nat × List UInt8) :=
  if additional ≤ 23 then .ok (additional, position, rest)
  else do
    let bytes ← match additional with
      | 24 => .ok 1
      | 25 => .ok 2
      | 26 => .ok 4
      | 27 => .ok 8
      | _ => .error .nonCanonicalEncoding
    if u64Max < position + bytes then .error .truncatedFrame
    else if rest.length < bytes then .error .truncatedFrame
    else
      let value := (rest.take bytes).foldl (fun value byte => (value <<< 8) ||| byte.toNat) 0
      let shortest : Bool := match bytes with
        | 1 => 24 ≤ value
        | 2 => 255 < value
        | 4 => 65535 < value
        | 8 => u32Max < value
        | _ => false
      if shortest then .ok (value, position + bytes, rest.drop bytes) else .error .nonCanonicalEncoding

/-- What one item head does to the scan: how far it moves, and how many items
it announces. -/
def scanHead (position : Nat) (rest : List UInt8) (containers : Nat) :
    Result (Nat × List UInt8 × Nat) :=
  match rest with
  | [] => .error .truncatedFrame
  | initial :: rest => do
      let major := initial.toNat >>> 5
      let additional := initial.toNat &&& 31
      let (value, position, rest) ← readCborArgument (position + 1) rest additional
      if major ≤ 1 then .ok (position, rest, 0)
      else if major ≤ 3 then
        if u64Max < position + value then .error .nonCanonicalEncoding
        else if rest.length < value then .error .truncatedFrame
        else .ok (position + value, rest.drop value, 0)
      else if major ≤ 5 then do
        let items := if major = 4 then value else value * 2
        if u64Max < items then .error .nonCanonicalEncoding
        else if 0 < items then
          if maxCborNesting ≤ containers then .error .nonCanonicalEncoding
          else .ok (position, rest, items)
        else .ok (position, rest, 0)
      else .error .nonCanonicalEncoding

/-- The loop of `validate_cbor_structure`; `remaining` is the stack of item
counts with its top first. Every round reads at least one byte, so the length
of the payload plus one bounds the rounds. -/
def scanItems : Nat → Nat → List UInt8 → List Nat → Result Nat
  | 0, _, _, _ => .error .truncatedFrame
  | rounds + 1, position, rest, remaining =>
      match remaining.dropWhile (· = 0) with
      | [] => .ok position
      | count :: below => do
          let (position, rest, items) ← scanHead position rest (below.length + 1)
          scanItems rounds position rest
            (if 0 < items then items :: (count - 1) :: below else (count - 1) :: below)

def validateCborStructure (payload : List UInt8) : Result Unit := do
  let position ← scanItems (payload.length + 2) 0 payload [1]
  if position = payload.length then .ok () else .error .nonCanonicalEncoding

def u64TryFrom (i : Int) : Option Nat := if 0 ≤ i ∧ i ≤ u64Max then some i.toNat else none

def collectEntries (keys : List Nat) : List (Value × Value) → Result (List (Nat × Value))
  | [] => .ok []
  | (.integer i, value) :: entries =>
      match u64TryFrom i with
      | none => .error .invalidMapKey
      | some key =>
          if key ∈ keys then .error (.duplicateMapKey key)
          else do
            let rest ← collectEntries (key :: keys) entries
            return (key, value) :: rest
  | _ :: _ => .error .invalidMapKey

def sortByKey (entries : List (Nat × Value)) : List (Nat × Value) :=
  entries.insertionSort (fun a b => a.1 ≤ b.1)

def encodingError {α : Type} (e : Except String α) : Result α :=
  match e with
  | .ok a => .ok a
  | .error message => .error (.encoding message)

variable [Ciborium]

def validateCborMapPayload (payload : List UInt8) : Result (List (Nat × Value)) := do
  if maxFrameSize < payload.length then
    .error (.invalidFrameLength (min payload.length u32Max))
  validateCborStructure payload
  let (value, position) ← encodingError (Ciborium.fromReader payload)
  if position ≠ payload.length then .error .nonCanonicalEncoding
  match value with
  | .map entries => do
      let entries ← collectEntries [] entries
      let canonicalEntries := sortByKey entries
      let canonical ← encodingError (Ciborium.intoWriter
        (.map (canonicalEntries.map fun entry => (.integer entry.1, entry.2))))
      if canonical ≠ payload then .error .nonCanonicalEncoding
      return canonicalEntries
  | _ => .error .invalidPayloadShape

def Frame.validateCborMap (frame : Frame) : Result (List (Nat × Value)) :=
  validateCborMapPayload frame.payload

end Ruxmsg

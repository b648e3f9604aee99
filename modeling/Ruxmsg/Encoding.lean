import Ruxmsg.Wire

namespace Ruxmsg

open Library.Cbor

def uint (value : Nat) : Value := .integer (value % 2 ^ 64 : Nat)

def bytes (value : List UInt8) : Value := .bytes value

def arrayValue (n : Nat) (value : Value) (kind : String) : Result (Bytes n) :=
  match value with
  | .bytes bs =>
      match Bytes.ofList? n bs with
      | some b => .ok b
      | none => .error (.invalidLength kind n bs.length)
  | _ => .error (.invalidLength kind 0 0)

/-- The loop of `map_into_fields`: every entry goes to the slot of its key. -/
def fillFields (invalid : Error) (fields : List (Option Value)) :
    List (Nat × Value) → Result (List (Option Value))
  | [] => .ok fields
  | (key, value) :: entries =>
      match fields[key]? with
      | some none => fillFields invalid (fields.set key (some value)) entries
      | _ => .error invalid

def mapIntoFields (entries : List (Nat × Value)) (fieldCount : Nat) (invalid : Error) :
    Result (List (Option Value)) :=
  fillFields invalid (List.replicate fieldCount none) entries

/-- `fields[index].take().ok_or(invalid)`; every index is taken once. -/
def takeField (fields : List (Option Value)) (index : Nat) (invalid : Error) : Result Value :=
  okOr (fields[index]?.join) invalid

def takeOptional {α : Type} (fields : List (Option Value)) (index : Nat)
    (read : Value → Result α) : Result (Option α) :=
  match fields[index]?.join with
  | some value => do return some (← read value)
  | none => .ok none

def uintValue (value : Value) (invalid : Error) : Result Nat :=
  match value with
  | .integer i => okOr (u64TryFrom i) invalid
  | _ => .error invalid

structure Transcript where
  purpose : HandshakePurpose
  cipherSuite : Nat
  initiatorIdentity : PeerIdentity
  responderIdentity : PeerIdentity
  initiatorEphemeral : Bytes 32
  responderEphemeral : Bytes 32
  initiatorNonce : Bytes 16
  responderNonce : Bytes 16
  previousSessionId : Option SessionId
  deriving DecidableEq

/-- The entries of the transcript map, in the order of its sorted keys. -/
def Transcript.entries (t : Transcript) : List (Value × Value) :=
  [(uint 0, uint ProtocolVersion.v1.toNat), (uint 1, uint t.cipherSuite),
    (uint 2, uint t.purpose.toNat), (uint 3, uint 0), (uint 4, uint 1)] ++
  (match t.previousSessionId with
    | some sessionId => [(uint 5, bytes sessionId.val)]
    | none => []) ++
  [(uint 6, bytes t.initiatorIdentity.val), (uint 7, bytes t.responderIdentity.val),
    (uint 8, bytes t.initiatorEphemeral.val), (uint 9, bytes t.responderEphemeral.val),
    (uint 10, bytes t.initiatorNonce.val), (uint 11, bytes t.responderNonce.val)]

variable [Ciborium]

def Transcript.encode (t : Transcript) : Result (List UInt8) :=
  encodingError (Ciborium.intoWriter (.map t.entries))

end Ruxmsg

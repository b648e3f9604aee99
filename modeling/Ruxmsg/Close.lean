import Ruxmsg.Handshake

namespace Ruxmsg

open Library.Cbor

def maxDetailBytes : Nat := 128

inductive CloseReason
  | normal
  | protocolError
  | authenticationFailure
  | identityChanged
  | resourceLimit
  | shutdown
  deriving DecidableEq

def CloseReason.toNat : CloseReason → Nat
  | .normal => 0
  | .protocolError => 1
  | .authenticationFailure => 2
  | .identityChanged => 3
  | .resourceLimit => 4
  | .shutdown => 5

def CloseReason.tryFrom (value : Nat) : Result CloseReason :=
  match value with
  | 0 => .ok .normal
  | 1 => .ok .protocolError
  | 2 => .ok .authenticationFailure
  | 3 => .ok .identityChanged
  | 4 => .ok .resourceLimit
  | 5 => .ok .shutdown
  | _ => .error .invalidClosePayload

structure ClosePayload where
  sessionId : Option SessionId
  reason : CloseReason
  detail : Option String
  deriving DecidableEq

def ClosePayload.entries (p : ClosePayload) : List (Value × Value) :=
  sortEntries
    ([(uint 1, uint p.reason.toNat)] ++ optionalEntry 0 p.sessionId ++
      match p.detail with
      | some detail => [(uint 2, .text detail)]
      | none => [])

def detailValue (value : Value) : Result String :=
  match value with
  | .text text =>
      if maxDetailBytes < text.utf8ByteSize then .error .invalidClosePayload else .ok text
  | _ => .error .invalidClosePayload

variable [Ciborium]

def ClosePayload.encode (p : ClosePayload) : Result Frame := do
  ensure (p.detail.all fun detail => detail.utf8ByteSize ≤ maxDetailBytes) .invalidClosePayload
  encodeMap .close p.entries

def ClosePayload.decode (frame : Frame) : Result ClosePayload := do
  let invalid := Error.invalidClosePayload
  ensure (frame.messageType = .close) invalid
  let entries ← frame.validateCborMap
  ensure (1 ≤ entries.length ∧ entries.length ≤ 3) invalid
  let fields ← mapIntoFields entries 3 invalid
  let sessionId ← takeOptional fields 0 fun value => mapError (arrayValue 16 value "session ID") invalid
  let reason ← CloseReason.tryFrom (← uintValue (← takeField fields 1 invalid) invalid)
  let detail ← takeOptional fields 2 detailValue
  return { sessionId, reason, detail }

end Ruxmsg

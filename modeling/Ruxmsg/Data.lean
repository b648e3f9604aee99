import Ruxmsg.Encoding
import Ruxmsg.Ratchet

namespace Ruxmsg

open Library.Cbor

def aeadTagSize : Nat := 16

def bstrHeaderLen (length : Nat) : Nat :=
  if length ≤ 23 then 1 else if length ≤ 255 then 2 else if length ≤ 65535 then 3 else 5

structure DataPayload where
  sessionId : SessionId
  directionId : DirectionId
  messageCounter : Nat
  ciphertext : List UInt8
  deriving DecidableEq

structure DataPlaintext where
  content : List UInt8
  padding : List UInt8
  deriving DecidableEq

/-- Size of the encoded plaintext and its tag, without the padding and its header. -/
def fixedLen (content : List UInt8) : Nat := 3 + bstrHeaderLen content.length + content.length

/-- The search loop of `padded`; the fuel is what is left of its bound. -/
def paddingSearch (fixed : Nat) : Nat → Nat → Result Nat
  | fuel, paddingLen =>
      let total := fixed + bstrHeaderLen paddingLen + paddingLen + aeadTagSize
      if total % defaultPaddingQuantum = 0 then .ok paddingLen
      else match fuel with
        | 0 => .error .dataTooLarge
        | fuel + 1 => paddingSearch fixed fuel (paddingLen + 1)

def DataPlaintext.padded (content : List UInt8) : Result DataPlaintext :=
  if maxContent < content.length then .error .dataTooLarge
  else do
    let paddingLen ← paddingSearch (fixedLen content) maxFrameSize 0
    return { content, padding := List.replicate paddingLen 0 }

def DataPlaintext.entries (p : DataPlaintext) : List (Value × Value) :=
  [(uint 0, .bytes p.content), (uint 1, .bytes p.padding)]

def DataPayload.entries (p : DataPayload) : List (Value × Value) :=
  [(uint 0, .bytes p.sessionId.val), (uint 1, uint p.directionId.toNat),
    (uint 2, uint p.messageCounter), (uint 3, .bytes p.ciphertext)]

def bytesValue (value : Value) : Result (List UInt8) :=
  match value with
  | .bytes b => .ok b
  | _ => .error .invalidDataPayload

def plaintextFields (content padding : Option (List UInt8)) :
    List (Nat × Value) → Result (Option (List UInt8) × Option (List UInt8))
  | [] => .ok (content, padding)
  | (key, value) :: entries =>
      match key with
      | 0 => do plaintextFields (some (← bytesValue value)) padding entries
      | 1 => do plaintextFields content (some (← bytesValue value)) entries
      | _ => .error .invalidDataPayload

/-- The fields of a DATA map as far as they have been read. -/
structure DataFields where
  sessionId : Option SessionId := none
  directionId : Option DirectionId := none
  counter : Option Nat := none
  ciphertext : Option (List UInt8) := none

def dataFields (fields : DataFields) : List (Nat × Value) → Result DataFields
  | [] => .ok fields
  | (key, value) :: entries =>
      match key with
      | 0 => do
          let sessionId ← okOr (Bytes.ofList? 16 (← bytesValue value)) .invalidDataPayload
          dataFields { fields with sessionId := some sessionId } entries
      | 1 => do
          let raw ← uintValue value .invalidDataPayload
          ensure (raw ≤ u32Max) .invalidDataPayload
          let directionId ← DirectionId.tryFrom raw
          dataFields { fields with directionId := some directionId } entries
      | 2 => do
          let counter ← uintValue value .invalidDataPayload
          dataFields { fields with counter := some counter } entries
      | 3 => do
          let ciphertext ← bytesValue value
          dataFields { fields with ciphertext := some ciphertext } entries
      | _ => .error .invalidDataPayload

structure DataSender where
  sessionId : SessionId
  direction : DirectionId
  chainKey : Bytes 32
  counter : Nat
  deriving DecidableEq

def DataSender.new (sessionId : SessionId) (direction : DirectionId) (chainKey : Bytes 32) :
    DataSender :=
  { sessionId, direction, chainKey, counter := 0 }

structure DataReceiver where
  sessionId : SessionId
  chain : ReceivingChain
  replay : ReplayWindow
  direction : DirectionId

def DataReceiver.new (sessionId : SessionId) (direction : DirectionId) (chainKey : Bytes 32) :
    DataReceiver :=
  { sessionId, chain := ReceivingChain.new chainKey direction, replay := ReplayWindow.empty, direction }

section Codec

variable [Ciborium]

def DataPlaintext.encode (p : DataPlaintext) : Result (List UInt8) :=
  encodingError (Ciborium.intoWriter (.map p.entries))

def DataPlaintext.decode (bs : List UInt8) : Result DataPlaintext := do
  let entries ← validateCborMapPayload bs
  ensure (entries.length = 2) .invalidDataPayload
  let (content, padding) ← plaintextFields none none entries
  let padding ← okOr padding .invalidDataPayload
  let content ← okOr content .invalidDataPayload
  ensure (content.length ≤ maxContent) .dataTooLarge
  ensure (padding.all (· = 0)) .invalidPadding
  return { content, padding }

def encodePayload (payload : DataPayload) : Result Frame := do
  let encoded ← encodingError (Ciborium.intoWriter (.map payload.entries))
  Frame.new .data encoded

def decodePayload (bs : List UInt8) : Result DataPayload := do
  let entries ← validateCborMapPayload bs
  ensure (entries.length = 4) .invalidDataPayload
  let fields ← dataFields {} entries
  let ciphertext ← okOr fields.ciphertext .invalidDataPayload
  ensure (aeadTagSize ≤ ciphertext.length) .invalidDataPayload
  let sessionId ← okOr fields.sessionId .invalidDataPayload
  let directionId ← okOr fields.directionId .invalidDataPayload
  let messageCounter ← okOr fields.counter .invalidDataPayload
  return { sessionId, directionId, messageCounter, ciphertext }

def dataAad (sessionId : SessionId) (direction : DirectionId) (counter : Nat) :
    Result (List UInt8) :=
  encodingError (Ciborium.intoWriter (.map
    [(uint 0, uint 1), (uint 1, .bytes sessionId.val), (uint 2, uint MessageType.data.toNat),
      (uint 3, uint direction.toNat), (uint 4, uint counter)]))

end Codec

variable [Ciborium] [Primitives]

/-- On success the frame and the sender after it; a failure after step 5 of
the source has already moved the sender. -/
def DataSender.encrypt (sender : DataSender) (content : List UInt8) : Result Frame × DataSender :=
  let counter := sender.counter
  let prepared : Result (List UInt8 × Bytes 32) := do
    ensure (content.length ≤ maxContent) .dataTooLarge
    ensure (counter + 1 ≤ u64Max) .counterOverflow
    let plaintext ← (← DataPlaintext.padded content).encode
    let (messageKey, nextChain) := deriveMessageKey sender.chainKey sender.direction
    let aad ← dataAad sender.sessionId sender.direction counter
    let ciphertext ← encryptMessage messageKey (messageNonce sender.direction counter) aad plaintext
    return (ciphertext, nextChain)
  match prepared with
  | .error error => (.error error, sender)
  | .ok (ciphertext, nextChain) =>
      let sender := { sender with chainKey := nextChain, counter := counter + 1 }
      (encodePayload
        { sessionId := sender.sessionId
          directionId := sender.direction
          messageCounter := counter
          ciphertext }, sender)

/-- The checks of `decrypt` before the ratchet is touched. -/
def DataReceiver.accepts (receiver : DataReceiver) (frame : Frame) : Result DataPayload := do
  ensure (frame.messageType = .data) .invalidDataPayload
  let payload ← decodePayload frame.payload
  ensure (payload.sessionId = receiver.sessionId) .invalidDataPayload
  ensure (payload.directionId = receiver.direction) .invalidDataPayload
  ensure (receiver.replay.classify payload.messageCounter = .new) .replayRejected
  return payload

def DataReceiver.decrypt (receiver : DataReceiver) (frame : Frame) :
    Result (List UInt8) × DataReceiver :=
  match receiver.accepts frame with
  | .error error => (.error error, receiver)
  | .ok payload =>
      let counter := payload.messageCounter
      match receiver.chain.prepareMessageKey counter with
      | (.error error, chain) => (.error error, { receiver with chain })
      | (.ok messageKey, chain) =>
          let receiver := { receiver with chain }
          let opened : Result DataPlaintext := do
            let aad ← dataAad receiver.sessionId payload.directionId counter
            let plaintext ← decryptMessage messageKey (messageNonce payload.directionId counter) aad
              payload.ciphertext
            DataPlaintext.decode plaintext
          match opened with
          | .error error => (.error error, receiver)
          | .ok decoded =>
              match receiver.chain.commitMessageKey counter with
              | .error error => (.error error, receiver)
              | .ok chain =>
                  let receiver := { receiver with chain }
                  match receiver.replay.accept counter with
                  | .error error => (.error error, receiver)
                  | .ok replay => (.ok decoded.content, { receiver with replay })

end Ruxmsg

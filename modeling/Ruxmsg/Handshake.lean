import Ruxmsg.Encoding
import Ruxmsg.Crypto

namespace Ruxmsg

open Library.Cbor

inductive HelloRole
  | initiator
  | responder
  deriving DecidableEq

def HelloRole.toNat : HelloRole → Nat
  | .initiator => 0
  | .responder => 1

def HelloRole.tryFrom (value : Nat) : Result HelloRole :=
  match value with
  | 0 => .ok .initiator
  | 1 => .ok .responder
  | _ => .error .invalidHandshake

@[simp] theorem HelloRole.tryFrom_toNat (role : HelloRole) :
    HelloRole.tryFrom role.toNat = .ok role := by
  cases role <;> rfl

structure HelloPayload where
  cipherSuite : Nat
  purpose : HandshakePurpose
  role : HelloRole
  identityPublicKey : PeerIdentity
  ephemeralPublicKey : Bytes 32
  nonce : Bytes 16
  previousSessionId : Option SessionId
  deriving DecidableEq

structure CommitPayload where
  cipherSuite : Nat
  purpose : HandshakePurpose
  commitment : Bytes 32
  previousSessionId : Option SessionId
  deriving DecidableEq

structure HandshakePayload where
  purpose : HandshakePurpose
  stage : Nat
  cipherSuite : Nat
  initiatorIdentity : PeerIdentity
  responderIdentity : PeerIdentity
  initiatorEphemeral : Bytes 32
  responderEphemeral : Bytes 32
  initiatorNonce : Bytes 16
  responderNonce : Bytes 16
  previousSessionId : Option SessionId
  initiatorSignature : Bytes 64
  responderSignature : Option (Bytes 64)
  deriving DecidableEq

structure SessionConfirmPayload where
  sessionId : SessionId
  role : HelloRole
  confirmation : Bytes 32
  deriving DecidableEq

def messageTypeForPurpose : HandshakePurpose → MessageType
  | .initial => .handshake
  | .rekey => .rekey

/-- An initial handshake names no predecessor and a rekey names one. -/
def previousFits (purpose : HandshakePurpose) (previousSessionId : Option SessionId) : Bool :=
  match purpose with
  | .initial => previousSessionId.isNone
  | .rekey => previousSessionId.isSome

def optionalEntry {n : Nat} (key : Nat) (value : Option (Bytes n)) : List (Value × Value) :=
  match value with
  | some b => [(uint key, bytes b.val)]
  | none => []

def entryKey (entry : Value × Value) : Nat :=
  match entry.1 with
  | .integer i => (u64TryFrom i).getD u64Max
  | _ => u64Max

def sortEntries (entries : List (Value × Value)) : List (Value × Value) :=
  entries.insertionSort (fun a b => entryKey a ≤ entryKey b)

def HelloPayload.entries (p : HelloPayload) : List (Value × Value) :=
  [(uint 0, uint 1), (uint 1, uint p.cipherSuite), (uint 2, uint p.purpose.toNat),
    (uint 3, uint p.role.toNat), (uint 4, bytes p.identityPublicKey.val),
    (uint 5, bytes p.ephemeralPublicKey.val), (uint 6, bytes p.nonce.val)] ++
  optionalEntry 7 p.previousSessionId

def CommitPayload.entries (p : CommitPayload) : List (Value × Value) :=
  [(uint 0, uint 1), (uint 1, uint p.cipherSuite), (uint 2, uint p.purpose.toNat),
    (uint 3, bytes p.commitment.val)] ++
  optionalEntry 4 p.previousSessionId

def HandshakePayload.entries (p : HandshakePayload) : List (Value × Value) :=
  sortEntries
    ([(uint 0, uint p.purpose.toNat), (uint 1, uint p.stage), (uint 2, uint p.cipherSuite),
      (uint 3, bytes p.initiatorIdentity.val), (uint 4, bytes p.responderIdentity.val),
      (uint 5, bytes p.initiatorEphemeral.val), (uint 6, bytes p.responderEphemeral.val),
      (uint 7, bytes p.initiatorNonce.val), (uint 8, bytes p.responderNonce.val),
      (uint 10, bytes p.initiatorSignature.val)] ++
    optionalEntry 9 p.previousSessionId ++ optionalEntry 11 p.responderSignature)

def SessionConfirmPayload.entries (p : SessionConfirmPayload) : List (Value × Value) :=
  [(uint 0, bytes p.sessionId.val), (uint 1, uint p.role.toNat), (uint 2, bytes p.confirmation.val)]

def HandshakePayload.transcript (p : HandshakePayload) : Transcript where
  purpose := p.purpose
  cipherSuite := p.cipherSuite
  initiatorIdentity := p.initiatorIdentity
  responderIdentity := p.responderIdentity
  initiatorEphemeral := p.initiatorEphemeral
  responderEphemeral := p.responderEphemeral
  initiatorNonce := p.initiatorNonce
  responderNonce := p.responderNonce
  previousSessionId := p.previousSessionId

def identityValue (value : Value) : Result PeerIdentity := arrayValue 32 value "identity"

def isHandshakeType (messageType : MessageType) : Bool :=
  messageType = .handshake ∨ messageType = .rekey

def transcriptFromHellos (initiator responder : HelloPayload) : Result Transcript :=
  if initiator.role ≠ .initiator ∨ responder.role ≠ .responder ∨
      initiator.cipherSuite ≠ responder.cipherSuite ∨ initiator.purpose ≠ responder.purpose ∨
      initiator.previousSessionId ≠ responder.previousSessionId then
    .error .invalidHandshake
  else .ok
    { purpose := initiator.purpose
      cipherSuite := initiator.cipherSuite
      initiatorIdentity := initiator.identityPublicKey
      responderIdentity := responder.identityPublicKey
      initiatorEphemeral := initiator.ephemeralPublicKey
      responderEphemeral := responder.ephemeralPublicKey
      initiatorNonce := initiator.nonce
      responderNonce := responder.nonce
      previousSessionId := initiator.previousSessionId }

/-- The greater raw key wins. -/
def localIdentityWinsRekeyGlare (localIdentity remoteInitiator : PeerIdentity) : Bool :=
  remoteInitiator.val < localIdentity.val

section Codec

variable [Ciborium]

def encodeMap (messageType : MessageType) (entries : List (Value × Value)) : Result Frame := do
  let encoded ← encodingError (Ciborium.intoWriter (.map entries))
  Frame.new messageType encoded

def HelloPayload.encode (p : HelloPayload) : Result Frame := do
  ensure (p.cipherSuite = 1) .invalidHandshake
  ensure (previousFits p.purpose p.previousSessionId) .invalidHandshake
  encodeMap (messageTypeForPurpose p.purpose) p.entries

def HelloPayload.decode (frame : Frame) : Result HelloPayload := do
  let invalid := Error.invalidHandshake
  ensure (isHandshakeType frame.messageType) invalid
  let entries ← frame.validateCborMap
  ensure (7 ≤ entries.length ∧ entries.length ≤ 8) invalid
  let fields ← mapIntoFields entries 8 invalid
  let protocolVersion ← uintValue (← takeField fields 0 invalid) invalid
  ensure (protocolVersion = 1) (.unsupportedVersion protocolVersion)
  let cipherSuite ← uintValue (← takeField fields 1 invalid) invalid
  ensure (cipherSuite = 1) invalid
  let purpose ← HandshakePurpose.tryFrom (← uintValue (← takeField fields 2 invalid) invalid)
  let role ← HelloRole.tryFrom (← uintValue (← takeField fields 3 invalid) invalid)
  let identityPublicKey ← identityValue (← takeField fields 4 invalid)
  let ephemeralPublicKey ← arrayValue 32 (← takeField fields 5 invalid) "ephemeral"
  let nonce ← arrayValue 16 (← takeField fields 6 invalid) "nonce"
  let previousSessionId ← takeOptional fields 7 (arrayValue 16 · "session ID")
  ensure (previousFits purpose previousSessionId) invalid
  ensure (frame.messageType = messageTypeForPurpose purpose) invalid
  return { cipherSuite, purpose, role, identityPublicKey, ephemeralPublicKey, nonce, previousSessionId }

def CommitPayload.encode (p : CommitPayload) : Result Frame := do
  ensure (p.cipherSuite = 1) .invalidHandshake
  ensure (previousFits p.purpose p.previousSessionId) .invalidHandshake
  encodeMap (messageTypeForPurpose p.purpose) p.entries

def CommitPayload.decode (frame : Frame) : Result CommitPayload := do
  let invalid := Error.invalidHandshake
  ensure (isHandshakeType frame.messageType) invalid
  let entries ← frame.validateCborMap
  ensure (4 ≤ entries.length ∧ entries.length ≤ 5) invalid
  let fields ← mapIntoFields entries 5 invalid
  let protocolVersion ← uintValue (← takeField fields 0 invalid) invalid
  ensure (protocolVersion = 1) (.unsupportedVersion protocolVersion)
  let cipherSuite ← uintValue (← takeField fields 1 invalid) invalid
  ensure (cipherSuite = 1) invalid
  let purpose ← HandshakePurpose.tryFrom (← uintValue (← takeField fields 2 invalid) invalid)
  let commitment ← arrayValue 32 (← takeField fields 3 invalid) "commitment"
  let previousSessionId ← takeOptional fields 4 (arrayValue 16 · "session ID")
  ensure (previousFits purpose previousSessionId) invalid
  ensure (frame.messageType = messageTypeForPurpose purpose) invalid
  return { cipherSuite, purpose, commitment, previousSessionId }

def HandshakePayload.encode (p : HandshakePayload) : Result Frame := do
  ensure (p.cipherSuite = 1) .invalidHandshake
  ensure (¬ (1 < p.stage ∨ p.stage = 0 ∧ p.responderSignature.isSome)) .invalidHandshake
  ensure (previousFits p.purpose p.previousSessionId) .invalidHandshake
  encodeMap (messageTypeForPurpose p.purpose) p.entries

def HandshakePayload.decode (frame : Frame) : Result HandshakePayload := do
  let invalid := Error.invalidHandshake
  ensure (isHandshakeType frame.messageType) invalid
  let entries ← frame.validateCborMap
  let fields ← mapIntoFields entries 12 invalid
  let purpose ← HandshakePurpose.tryFrom (← uintValue (← takeField fields 0 invalid) invalid)
  let stage ← uintValue (← takeField fields 1 invalid) invalid
  ensure (stage ≤ 255) invalid
  let cipherSuite ← uintValue (← takeField fields 2 invalid) invalid
  ensure (cipherSuite = 1) invalid
  let initiatorIdentity ← identityValue (← takeField fields 3 invalid)
  let responderIdentity ← identityValue (← takeField fields 4 invalid)
  let initiatorEphemeral ← arrayValue 32 (← takeField fields 5 invalid) "ephemeral"
  let responderEphemeral ← arrayValue 32 (← takeField fields 6 invalid) "ephemeral"
  let initiatorNonce ← arrayValue 16 (← takeField fields 7 invalid) "nonce"
  let responderNonce ← arrayValue 16 (← takeField fields 8 invalid) "nonce"
  let previousSessionId ← takeOptional fields 9 (arrayValue 16 · "session ID")
  let initiatorSignature ← arrayValue 64 (← takeField fields 10 invalid) "signature"
  let responderSignature ← takeOptional fields 11 (arrayValue 64 · "signature")
  ensure (¬ (1 < stage ∨ stage = 1 ∧ responderSignature.isNone ∨
    stage = 0 ∧ responderSignature.isSome)) invalid
  ensure (previousFits purpose previousSessionId) invalid
  ensure (frame.messageType = messageTypeForPurpose purpose) invalid
  return ⟨purpose, stage, cipherSuite, initiatorIdentity, responderIdentity, initiatorEphemeral,
    responderEphemeral, initiatorNonce, responderNonce, previousSessionId, initiatorSignature,
    responderSignature⟩

def SessionConfirmPayload.encode (p : SessionConfirmPayload) : Result Frame :=
  encodeMap .sessionConfirm p.entries

def mapError {α : Type} (result : Result α) (error : Error) : Result α :=
  match result with
  | .ok a => .ok a
  | .error _ => .error error

def SessionConfirmPayload.decode (frame : Frame) : Result SessionConfirmPayload := do
  let invalid := Error.confirmationInvalid
  ensure (frame.messageType = .sessionConfirm) invalid
  let entries ← frame.validateCborMap
  ensure (entries.length = 3) invalid
  let fields ← mapIntoFields entries 3 invalid
  let sessionId ← arrayValue 16 (← takeField fields 0 invalid) "session ID"
  let role ← mapError
    (HelloRole.tryFrom (← uintValue (← takeField fields 1 invalid) .invalidHandshake)) invalid
  let confirmation ← arrayValue 32 (← takeField fields 2 invalid) "confirmation"
  return { sessionId, role, confirmation }

end Codec

variable [Primitives]

def SessionConfirmPayload.verify (p : SessionConfirmPayload) (keys : SessionKeys)
    (hash : Bytes 32) : Result Unit := do
  ensure (p.sessionId = keys.sessionId) .confirmationInvalid
  verifyConfirmation keys.confirmationKey hash p.confirmation (p.role = .initiator)

/-- A confirmation that must come from `expectedRole`. -/
def SessionConfirmPayload.verifyFrom (p : SessionConfirmPayload) (keys : SessionKeys)
    (hash : Bytes 32) (expectedRole : HelloRole) : Result Unit := do
  ensure (p.role = expectedRole) .confirmationInvalid
  p.verify keys hash

/-- The AUTH fields against the local transcript, its signatures, and the
session keys. -/
def verifyHandshakeForRole [Ciborium] (payload : HandshakePayload) (localTranscript : Transcript)
    (sharedSecret : Bytes 32) (sasApproved : Bool) : Result (SessionKeys × Bytes 32) := do
  ensure sasApproved .sasRejected
  ensure (payload.transcript = localTranscript) .invalidHandshake
  let hash := transcriptHash (← localTranscript.encode)
  verifyTranscriptSignature payload.initiatorIdentity hash payload.initiatorSignature true
  match payload.responderSignature with
  | some signature => verifyTranscriptSignature payload.responderIdentity hash signature false
  | none => ensure (payload.stage = 0) .invalidHandshake
  return (deriveSessionKeys sharedSecret hash, hash)

end Ruxmsg

import Ruxmsg.Protocol
import Ruxmsg.Library.Cbor

namespace Ruxmsg

open Library.Cbor (beBytes)

/-- The cryptographic packages: SHA-256, HMAC, HKDF, Ed25519, X25519,
ChaCha20-Poly1305 and the English word list. `hkdfExpand` is `Hkdf::expand`
within its documented output limit; every request here is 16 or 32 bytes. -/
class Primitives where
  sha256 : List UInt8 → Bytes 32
  hmacSha256 : (key message : List UInt8) → Bytes 32
  hkdfExpand : (salt ikm info : List UInt8) → (length : Nat) → Bytes length
  verifyingKey : Bytes 32 → Bytes 32
  sign : Bytes 32 → List UInt8 → Bytes 64
  isVerifyingKey : Bytes 32 → Bool
  verifyStrict : Bytes 32 → List UInt8 → Bytes 64 → Bool
  x25519Public : Bytes 32 → Bytes 32
  diffieHellman : (secret remotePublic : Bytes 32) → Bytes 32
  wasContributory : Bytes 32 → Bool
  aeadEncrypt : Bytes 32 → Bytes 12 → (aad message : List UInt8) → Option (List UInt8)
  aeadDecrypt : Bytes 32 → Bytes 12 → (aad ciphertext : List UInt8) → Option (List UInt8)
  wordList : Fin 2048 → String

/-- What the packages document about values of honest origin. -/
structure Primitives.Correct [P : Primitives] : Prop where
  isVerifyingKey_verifyingKey : ∀ secret, P.isVerifyingKey (P.verifyingKey secret) = true
  verifyStrict_sign : ∀ secret message,
    P.verifyStrict (P.verifyingKey secret) message (P.sign secret message) = true
  diffieHellman_comm : ∀ a b,
    P.diffieHellman a (P.x25519Public b) = P.diffieHellman b (P.x25519Public a)
  aeadEncrypt_length : ∀ key nonce aad message, message.length ≤ 2 ^ 32 →
    ∃ ciphertext, P.aeadEncrypt key nonce aad message = some ciphertext ∧
      ciphertext.length = message.length + 16
  aeadDecrypt_encrypt : ∀ key nonce aad message ciphertext,
    P.aeadEncrypt key nonce aad message = some ciphertext →
      P.aeadDecrypt key nonce aad ciphertext = some message

def ascii (s : String) : List UInt8 := s.toList.map fun c => UInt8.ofNat c.toNat

def hashDomain : List UInt8 := ascii "RUXMSG/1/TRANSCRIPT"
def initiatorSignatureDomain : List UInt8 := ascii "RUXMSG/1/initiator"
def responderSignatureDomain : List UInt8 := ascii "RUXMSG/1/responder"
def initiatorConfirmDomain : List UInt8 := ascii "RUXMSG/1/confirm/I"
def responderConfirmDomain : List UInt8 := ascii "RUXMSG/1/confirm/R"
def zeroSalt : Bytes 32 := Bytes.replicate 32 0
def commitDomain : List UInt8 := ascii "RUXMSG/1/COMMIT"

def signatureDomain (initiator : Bool) : List UInt8 :=
  if initiator then initiatorSignatureDomain else responderSignatureDomain

def confirmDomain (initiator : Bool) : List UInt8 :=
  if initiator then initiatorConfirmDomain else responderConfirmDomain

structure IdentityKeypair where
  secret : Bytes 32
  deriving DecidableEq

structure EphemeralKeypair where
  secret : Bytes 32
  publicKey : Bytes 32
  deriving DecidableEq

structure SasIndices where
  first : Nat
  second : Nat
  third : Nat
  deriving DecidableEq

/-- Three 11-bit indices, most significant bit first. -/
def sasIndices (transcriptHash : Bytes 32) : SasIndices :=
  let byte (i : Nat) : Nat := (transcriptHash.val.getD i 0).toNat
  let packed := (byte 0 <<< 25) ||| (byte 1 <<< 17) ||| (byte 2 <<< 9) ||| (byte 3 <<< 1) |||
    (byte 4 >>> 7)
  { first := (packed >>> 22) &&& 0x7ff
    second := (packed >>> 11) &&& 0x7ff
    third := packed &&& 0x7ff }

theorem and_mask_lt (n : Nat) : n &&& 0x7ff < 2048 :=
  lt_of_le_of_lt Nat.and_le_right (by decide)

structure SessionKeys where
  rootKey : Bytes 32
  initiatorToResponder : Bytes 32
  responderToInitiator : Bytes 32
  sessionId : SessionId
  confirmationKey : Bytes 32
  deriving DecidableEq

variable [Primitives]

def IdentityKeypair.identity (keypair : IdentityKeypair) : PeerIdentity :=
  Primitives.verifyingKey keypair.secret

def IdentityKeypair.signTranscript (keypair : IdentityKeypair) (transcriptHash : Bytes 32)
    (initiator : Bool) : Bytes 64 :=
  Primitives.sign keypair.secret (signatureDomain initiator ++ transcriptHash.val)

def verifyTranscriptSignature (identity : PeerIdentity) (transcriptHash : Bytes 32)
    (signature : Bytes 64) (initiator : Bool) : Result Unit :=
  if Primitives.isVerifyingKey identity then
    if Primitives.verifyStrict identity (signatureDomain initiator ++ transcriptHash.val) signature
    then .ok () else .error .signatureInvalid
  else .error .invalidIdentityKey

def EphemeralKeypair.fromBytes (secret : Bytes 32) : EphemeralKeypair :=
  { secret, publicKey := Primitives.x25519Public secret }

def EphemeralKeypair.sharedSecret (keypair : EphemeralKeypair) (remotePublic : Bytes 32) :
    Result (Bytes 32) :=
  let shared := Primitives.diffieHellman keypair.secret remotePublic
  if Primitives.wasContributory shared then .ok shared else .error .allZeroSharedSecret

def transcriptHash (transcript : List UInt8) : Bytes 32 :=
  Primitives.sha256 (hashDomain ++ beBytes 4 transcript.length ++ transcript)

def commitHash (helloPayload : List UInt8) : Bytes 32 :=
  Primitives.sha256 (commitDomain ++ beBytes 4 helloPayload.length ++ helloPayload)

def sasWords (transcriptHash : Bytes 32) : List String :=
  let indices := sasIndices transcriptHash
  [Primitives.wordList ⟨indices.first, and_mask_lt _⟩,
    Primitives.wordList ⟨indices.second, and_mask_lt _⟩,
    Primitives.wordList ⟨indices.third, and_mask_lt _⟩]

def deriveSessionKeys (sharedSecret transcriptHash : Bytes 32) : SessionKeys :=
  let expand (info : String) (length : Nat) : Bytes length :=
    Primitives.hkdfExpand transcriptHash.val sharedSecret.val (ascii info) length
  { rootKey := expand "RUXMSG/1/root" 32
    initiatorToResponder := expand "RUXMSG/1/I-to-R" 32
    responderToInitiator := expand "RUXMSG/1/R-to-I" 32
    sessionId := expand "RUXMSG/1/session-id" 16
    confirmationKey := expand "RUXMSG/1/session-confirm" 32 }

def confirmationMac (key transcriptHash : Bytes 32) (initiator : Bool) : Bytes 32 :=
  Primitives.hmacSha256 key.val (confirmDomain initiator ++ transcriptHash.val)

def verifyConfirmation (key transcriptHash expected : Bytes 32) (initiator : Bool) : Result Unit :=
  if confirmationMac key transcriptHash initiator = expected then .ok ()
  else .error .confirmationInvalid

def deriveMessageKey (chainKey : Bytes 32) (direction : DirectionId) : Bytes 32 × Bytes 32 :=
  let directionBytes := beBytes 4 direction.toNat
  (Primitives.hkdfExpand zeroSalt.val chainKey.val (ascii "RUXMSG/1/message-key" ++ directionBytes) 32,
    Primitives.hkdfExpand zeroSalt.val chainKey.val (ascii "RUXMSG/1/chain-key" ++ directionBytes) 32)

omit [Primitives] in
theorem length_nonce (direction counter : Nat) :
    (beBytes 4 direction ++ beBytes 8 counter).length = 12 := by
  simp [Library.Cbor.length_beBytes]

def messageNonce (direction : DirectionId) (counter : Nat) : Bytes 12 :=
  ⟨beBytes 4 direction.toNat ++ beBytes 8 counter, length_nonce _ _⟩

def encryptMessage (messageKey : Bytes 32) (nonce : Bytes 12) (aad plaintext : List UInt8) :
    Result (List UInt8) :=
  okOr (Primitives.aeadEncrypt messageKey nonce aad plaintext) .aeadFailure

def decryptMessage (messageKey : Bytes 32) (nonce : Bytes 12) (aad ciphertext : List UInt8) :
    Result (List UInt8) :=
  okOr (Primitives.aeadDecrypt messageKey nonce aad ciphertext) .aeadFailure

end Ruxmsg

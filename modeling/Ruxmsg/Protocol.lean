import Mathlib.Data.List.Basic

namespace Ruxmsg

abbrev Bytes (n : Nat) := {bs : List UInt8 // bs.length = n}

/-- `try_into` of a byte vector. -/
def Bytes.ofList? (n : Nat) (bs : List UInt8) : Option (Bytes n) :=
  if h : bs.length = n then some ⟨bs, h⟩ else none

def Bytes.replicate (n : Nat) (byte : UInt8) : Bytes n := ⟨List.replicate n byte, by simp⟩

@[simp] theorem Bytes.ofList?_val {n : Nat} (b : Bytes n) : Bytes.ofList? n b.val = some b := by
  simp [Bytes.ofList?, b.property]

abbrev PeerIdentity := Bytes 32

abbrev SessionId := Bytes 16

def u32Max : Nat := 4294967295

def u64Max : Nat := 18446744073709551615

def maxFrameSize : Nat := 1048576
def replayWindowSize : Nat := 64
def maxSkippedKeys : Nat := 64
def defaultPaddingQuantum : Nat := 256
def rekeyDrainTimeoutSecs : Nat := 15
def rekeyIntervalSecs : Nat := 24 * 60 * 60
def rekeyMessageLimit : Nat := 1000000
def handshakeFrameTimeoutSecs : Nat := 15
def sasDecisionTimeoutSecs : Nat := 120
def handshakeTotalTimeoutSecs : Nat := 180
def rekeyRetrySecs : Nat := 30
def maxPreparedKeys : Nat := 128
def maxContent : Nat := 65536

inductive Error
  | unsupportedVersion (version : Nat)
  | unknownMessageType (type : Nat)
  | invalidFrameLength (length : Nat)
  | invalidDirection (direction : Nat)
  | invalidLength (kind : String) (expected actual : Nat)
  | invalidIdentityKey
  | allZeroSharedSecret
  | signatureInvalid
  | confirmationInvalid
  | keyDerivation
  | aeadFailure
  | encoding (message : String)
  | truncatedFrame
  | invalidPayloadShape
  | invalidMapKey
  | duplicateMapKey (key : Nat)
  | nonCanonicalEncoding
  | replayRejected
  | messageKeyUnavailable (counter : Nat)
  | skippedKeyLimit
  | counterOverflow
  | invalidStateTransition
  | transportTimeout
  | invalidDataPayload
  | invalidPadding
  | dataTooLarge
  | invalidHandshake
  | invalidClosePayload
  | sasRejected
  | identityMismatch
  deriving DecidableEq

abbrev Result := Except Error

def okOr {α : Type} (o : Option α) (error : Error) : Result α :=
  match o with
  | some a => .ok a
  | none => .error error

@[simp] theorem okOr_some {α : Type} (a : α) (error : Error) : okOr (some a) error = .ok a := rfl

@[simp] theorem okOr_none {α : Type} (error : Error) : okOr (none : Option α) error = .error error := rfl

def ensure (condition : Prop) [Decidable condition] (error : Error) : Result Unit :=
  if condition then .ok () else .error error

section Results

variable {α β : Type}

theorem bind_eq_ok {x : Result α} {f : α → Result β} {b : β} :
    (x >>= f) = .ok b ↔ ∃ a, x = .ok a ∧ f a = .ok b := by
  cases x with
  | ok a =>
      constructor
      · intro h
        exact ⟨a, rfl, h⟩
      · rintro ⟨_, ha, h⟩
        cases ha
        exact h
  | error e =>
      constructor
      · intro h
        cases h
      · rintro ⟨_, ha, _⟩
        cases ha

theorem pure_eq_ok {a b : α} : (pure a : Result α) = .ok b ↔ a = b := by
  simp [pure, Except.pure]

theorem ensure_eq_ok {p : Prop} [Decidable p] {e : Error} {u : Unit} :
    ensure p e = .ok u ↔ p := by
  by_cases hp : p <;> simp [ensure, hp]

theorem okOr_eq_ok {o : Option α} {e : Error} {a : α} : okOr o e = .ok a ↔ o = some a := by
  cases o <;> simp [okOr]

theorem ok_bind (a : α) (f : α → Result β) : ((.ok a : Result α) >>= f) = f a := rfl

theorem error_bind (e : Error) (f : α → Result β) : ((.error e : Result α) >>= f) = .error e := rfl

theorem ensure_of {p : Prop} [Decidable p] {e : Error} (hp : p) : ensure p e = .ok () := if_pos hp

theorem ensure_of_not {p : Prop} [Decidable p] {e : Error} (hp : ¬ p) : ensure p e = .error e :=
  if_neg hp

end Results

section Errors

variable {α β : Type} {p : Error → Prop}

/-- Every error a computation returns satisfies `p`. -/
def FailsWith (p : Error → Prop) (x : Result α) : Prop := ∀ error, x = .error error → p error

theorem FailsWith.ok {a : α} : FailsWith p (.ok a : Result α) := by
  intro error h
  cases h

theorem FailsWith.error {e : Error} (h : p e) : FailsWith p (.error e : Result α) := by
  intro error he
  cases he
  exact h

theorem FailsWith.bind {x : Result α} {f : α → Result β} (hx : FailsWith p x)
    (hf : ∀ a, FailsWith p (f a)) : FailsWith p (x >>= f) := by
  intro error h
  cases x with
  | ok a => exact hf a error h
  | error e =>
      apply hx error
      rw [error_bind] at h
      rw [Except.error.inj h]

theorem FailsWith.ensure {condition : Prop} [Decidable condition] {e : Error} (h : p e) :
    FailsWith p (ensure condition e) := by
  by_cases hc : condition
  · rw [ensure_of hc]
    exact .ok
  · rw [ensure_of_not hc]
    exact .error h

theorem FailsWith.okOr {o : Option α} {e : Error} (h : p e) : FailsWith p (okOr o e) := by
  cases o with
  | none => exact .error h
  | some a => exact .ok

theorem FailsWith.ite {condition : Prop} [Decidable condition] {x y : Result α} (hx : FailsWith p x)
    (hy : FailsWith p y) : FailsWith p (if condition then x else y) := by
  by_cases hc : condition
  · rw [if_pos hc]
    exact hx
  · rw [if_neg hc]
    exact hy

end Errors

inductive ProtocolVersion
  | v1
  deriving DecidableEq

def ProtocolVersion.toNat : ProtocolVersion → Nat
  | .v1 => 1

def ProtocolVersion.tryFrom (value : Nat) : Result ProtocolVersion :=
  match value with
  | 1 => .ok .v1
  | other => .error (.unsupportedVersion other)

inductive HandshakePurpose
  | initial
  | rekey
  deriving DecidableEq

def HandshakePurpose.toNat : HandshakePurpose → Nat
  | .initial => 0
  | .rekey => 1

def HandshakePurpose.tryFrom (value : Nat) : Result HandshakePurpose :=
  match value with
  | 0 => .ok .initial
  | 1 => .ok .rekey
  | _ => .error .invalidHandshake

@[simp] theorem HandshakePurpose.tryFrom_toNat (purpose : HandshakePurpose) :
    HandshakePurpose.tryFrom purpose.toNat = .ok purpose := by
  cases purpose <;> rfl

inductive MessageType
  | handshake
  | sessionConfirm
  | data
  | rekey
  | close
  deriving DecidableEq

def MessageType.toNat : MessageType → Nat
  | .handshake => 1
  | .sessionConfirm => 2
  | .data => 3
  | .rekey => 4
  | .close => 5

def MessageType.tryFrom (value : Nat) : Result MessageType :=
  match value with
  | 1 => .ok .handshake
  | 2 => .ok .sessionConfirm
  | 3 => .ok .data
  | 4 => .ok .rekey
  | 5 => .ok .close
  | other => .error (.unknownMessageType other)

def MessageType.maxPayload : MessageType → Nat
  | .handshake | .rekey => 1024
  | .sessionConfirm => 128
  | .close => 256
  | .data => maxFrameSize

inductive DirectionId
  | initiatorToResponder
  | responderToInitiator
  deriving DecidableEq

def DirectionId.toNat : DirectionId → Nat
  | .initiatorToResponder => 1
  | .responderToInitiator => 2

def DirectionId.tryFrom (value : Nat) : Result DirectionId :=
  match value with
  | 1 => .ok .initiatorToResponder
  | 2 => .ok .responderToInitiator
  | other => .error (.invalidDirection other)

@[simp] theorem DirectionId.tryFrom_toNat (direction : DirectionId) :
    DirectionId.tryFrom direction.toNat = .ok direction := by
  cases direction <;> rfl

def frameLength (value : Nat) : Result Nat :=
  if value ≤ maxFrameSize then .ok value else .error (.invalidFrameLength value)

end Ruxmsg

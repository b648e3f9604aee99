import Ruxmsg.Sender

namespace Ruxmsg

open Library.Cbor

/-- What is hashed with SHA-256: the bytes of a transcript or of a HELLO
payload. -/
inductive Hashed
  | transcript (encoded : List UInt8)
  | commit (helloPayload : List UInt8)
  deriving DecidableEq

def Hashed.input : Hashed → List UInt8
  | .transcript encoded => hashDomain ++ beBytes 4 encoded.length ++ encoded
  | .commit helloPayload => commitDomain ++ beBytes 4 helloPayload.length ++ helloPayload

def signatureInput (initiator : Bool) (transcriptHash : Bytes 32) : List UInt8 :=
  signatureDomain initiator ++ transcriptHash.val

def confirmationInput (initiator : Bool) (transcriptHash : Bytes 32) : List UInt8 :=
  confirmDomain initiator ++ transcriptHash.val

theorem domain_separates {domain domain' content content' : List UInt8} (k : Nat)
    (hk : k ≤ domain.length) (hk' : k ≤ domain'.length) (hne : domain.take k ≠ domain'.take k) :
    domain ++ content ≠ domain' ++ content' := by
  intro h
  have htake := congrArg (List.take k) h
  rw [List.take_append_of_le_length hk, List.take_append_of_le_length hk'] at htake
  exact hne htake

theorem lengthPrefixed_injective {domain content content' : List UInt8}
    (h : domain ++ beBytes 4 content.length ++ content =
      domain ++ beBytes 4 content'.length ++ content') : content = content' := by
  have hlen : (domain ++ beBytes 4 content.length).length =
      (domain ++ beBytes 4 content'.length).length := by
    simp only [List.length_append, length_beBytes]
  exact (List.append_inj h hlen).2

theorem Hashed.input_injective : Function.Injective Hashed.input := by
  intro a b h
  cases a with
  | transcript encoded =>
      cases b with
      | transcript encoded' => rw [lengthPrefixed_injective h]
      | commit helloPayload =>
          simp only [Hashed.input, List.append_assoc] at h
          exact absurd h (domain_separates 10 (by decide) (by decide) (by decide))
  | commit helloPayload =>
      cases b with
      | transcript encoded =>
          simp only [Hashed.input, List.append_assoc] at h
          exact absurd h (domain_separates 10 (by decide) (by decide) (by decide))
      | commit helloPayload' => rw [lengthPrefixed_injective h]

/-- Two domains of one length, one for each role, in front of a hash. -/
theorem roleInput_injective {domain : Bool → List UInt8}
    (hlen : (domain true).length = (domain false).length) (hne : domain true ≠ domain false)
    {initiator initiator' : Bool} {hash hash' : Bytes 32}
    (h : domain initiator ++ hash.val = domain initiator' ++ hash'.val) :
    initiator = initiator' ∧ hash = hash' := by
  have hsame : (domain initiator).length = (domain initiator').length := by
    cases initiator <;> cases initiator' <;> first | rfl | exact hlen | exact hlen.symm
  obtain ⟨hdomain, hhash⟩ := List.append_inj h hsame
  refine ⟨?_, Subtype.ext hhash⟩
  cases initiator <;> cases initiator' <;>
    first | rfl | exact absurd hdomain hne | exact absurd hdomain.symm hne

theorem signatureInput_injective {initiator initiator' : Bool} {hash hash' : Bytes 32}
    (h : signatureInput initiator hash = signatureInput initiator' hash') :
    initiator = initiator' ∧ hash = hash' :=
  roleInput_injective (by decide) (by decide) h

theorem confirmationInput_injective {initiator initiator' : Bool} {hash hash' : Bytes 32}
    (h : confirmationInput initiator hash = confirmationInput initiator' hash') :
    initiator = initiator' ∧ hash = hash' :=
  roleInput_injective (by decide) (by decide) h

section Codec

variable [Ciborium]

/-- A transcript is determined by its encoding, its suite included. -/
theorem Transcript.encode_determines (rfc : Ciborium.Rfc8949) {t t' : Transcript}
    (hsuite : t.cipherSuite ≤ u64Max) (hsuite' : t'.cipherSuite ≤ u64Max) {encoded : List UInt8}
    (h : t.encode = .ok encoded) (h' : t'.encode = .ok encoded) : t = t' := by
  refine Transcript.encode_injective rfc ?_ h h'
  have hv := (Transcript.encode_eq_ok rfc).1 h
  rw [(Transcript.encode_eq_ok rfc).1 h'] at hv
  have hmap := Library.Cbor.encode_injective t'.fieldsOk.map_encodable t.fieldsOk.map_encodable hv
  have hentry : uint t'.cipherSuite = uint t.cipherSuite := by
    simp only [Transcript.fields, keyed, List.cons_append, List.map_cons, Value.map.injEq,
      List.cons.injEq, Prod.mk.injEq] at hmap
    exact hmap.2.1.2
  simp only [u64Max] at hsuite hsuite'
  exact (uint_injective (by omega) (by omega) hentry).symm

variable [Primitives]

/-- What is hashed, signed and authenticated determines what it stands for. -/
theorem inputs_are_separated (rfc : Ciborium.Rfc8949) :
    (∀ t t' : Transcript, t.cipherSuite ≤ u64Max → t'.cipherSuite ≤ u64Max → ∀ encoded,
      t.encode = .ok encoded → t'.encode = .ok encoded → t = t') ∧
    ((∀ encoded, transcriptHash encoded = Primitives.sha256 (Hashed.input (.transcript encoded))) ∧
      (∀ helloPayload, commitHash helloPayload =
        Primitives.sha256 (Hashed.input (.commit helloPayload))) ∧
      Function.Injective Hashed.input) ∧
    ((∀ (keypair : IdentityKeypair) hash initiator, keypair.signTranscript hash initiator =
        Primitives.sign keypair.secret (signatureInput initiator hash)) ∧
      ∀ initiator initiator' hash hash', signatureInput initiator hash =
        signatureInput initiator' hash' → initiator = initiator' ∧ hash = hash') ∧
    (∀ key hash initiator, confirmationMac key hash initiator =
        Primitives.hmacSha256 key.val (confirmationInput initiator hash)) ∧
      ∀ initiator initiator' hash hash', confirmationInput initiator hash =
        confirmationInput initiator' hash' → initiator = initiator' ∧ hash = hash' := by
  refine ⟨?_, ⟨fun _ => rfl, fun _ => rfl, Hashed.input_injective⟩, ⟨fun _ _ _ => rfl, ?_⟩,
    fun _ _ _ => rfl, ?_⟩
  · intro t t' hsuite hsuite' encoded h h'
    exact Transcript.encode_determines rfc hsuite hsuite' h h'
  · intro initiator initiator' hash hash' h
    exact signatureInput_injective h
  · intro initiator initiator' hash hash' h
    exact confirmationInput_injective h

end Codec

namespace Sample

def transcript (purpose : HandshakePurpose) : Transcript where
  purpose := purpose
  cipherSuite := 1
  initiatorIdentity := Bytes.replicate 32 7
  responderIdentity := Bytes.replicate 32 9
  initiatorEphemeral := Bytes.replicate 32 1
  responderEphemeral := Bytes.replicate 32 2
  initiatorNonce := Bytes.replicate 16 3
  responderNonce := Bytes.replicate 16 4
  previousSessionId := none

end Sample

open Sample in
theorem inputs_are_separated_sample : (transcript .initial).encode.isOk ∧
    ∀ encoded, (transcript .initial).encode = .ok encoded → (transcript .rekey).encode ≠ .ok encoded := by
  refine ⟨by decide +kernel, ?_⟩
  intro encoded h h'
  have heq := (inputs_are_separated Ciborium.reference_rfc8949).1 (transcript .initial)
    (transcript .rekey) (by decide) (by decide) encoded h h'
  exact absurd (congrArg Transcript.purpose heq) (by decide)

end Ruxmsg

import Ruxmsg.Pinned
import Ruxmsg.Forward
import Ruxmsg.Authentication

namespace Ruxmsg

variable [Ciborium] [Primitives]

/-- The AUTH of an initiator, and the one of the responder that answers it. -/
def authBy (identity : IdentityKeypair) (transcript : Transcript) (hash : Bytes 32) : HandshakePayload :=
  transcript.handshakePayload 0 (identity.signTranscript hash true) none

def responseBy (identity : IdentityKeypair) (transcript : Transcript) (hash : Bytes 32)
    (auth : HandshakePayload) : HandshakePayload :=
  transcript.handshakePayload 1 auth.initiatorSignature (some (identity.signTranscript hash false))

section Signatures

variable (hprim : Primitives.Correct) (identity : IdentityKeypair) (hash : Bytes 32)

include hprim

omit [Ciborium] in
theorem verify_signTranscript (initiator : Bool) :
    verifyTranscriptSignature identity.identity hash (identity.signTranscript hash initiator) initiator =
      .ok () := by
  rw [verifyTranscriptSignature, IdentityKeypair.identity, IdentityKeypair.signTranscript]
  rw [if_pos (hprim.isVerifyingKey_verifyingKey _), if_pos (hprim.verifyStrict_sign _ _)]

theorem verify_authBy {transcript : Transcript} {encoded : List UInt8} (shared : Bytes 32)
    (he : transcript.encode = .ok encoded) (hh : transcriptHash encoded = hash)
    (hi : transcript.initiatorIdentity = identity.identity) :
    verifyHandshakeForRole (authBy identity transcript hash) transcript shared true =
      .ok (deriveSessionKeys shared hash, hash) := by
  have ht : (authBy identity transcript hash).transcript = transcript := rfl
  have hs := verify_signTranscript hprim identity hash true
  have hinit : (authBy identity transcript hash).initiatorIdentity = identity.identity := hi
  have hsig : (authBy identity transcript hash).initiatorSignature =
    identity.signTranscript hash true := rfl
  have hresp : (authBy identity transcript hash).responderSignature = none := rfl
  have hstage : (authBy identity transcript hash).stage = 0 := rfl
  rw [verifyHandshakeForRole]
  simp only [ensure, ok_bind, ht, if_true, he, hh, hinit, hsig, hs, hresp, hstage, pure, Except.pure]

theorem verify_responseBy (identity' : IdentityKeypair) {transcript : Transcript}
    {encoded : List UInt8} (shared : Bytes 32) (he : transcript.encode = .ok encoded)
    (hh : transcriptHash encoded = hash) (hi : transcript.initiatorIdentity = identity.identity)
    (hr : transcript.responderIdentity = identity'.identity) :
    verifyHandshakeForRole
        (responseBy identity' transcript hash (authBy identity transcript hash)) transcript shared true =
      .ok (deriveSessionKeys shared hash, hash) := by
  generalize hauth : responseBy identity' transcript hash (authBy identity transcript hash) = auth
  have ht : auth.transcript = transcript := by rw [← hauth]; rfl
  have hs := verify_signTranscript hprim identity hash true
  have hs' := verify_signTranscript hprim identity' hash false
  have hinit : auth.initiatorIdentity = identity.identity := by rw [← hauth]; exact hi
  have hrespid : auth.responderIdentity = identity'.identity := by rw [← hauth]; exact hr
  have hsig : auth.initiatorSignature = identity.signTranscript hash true := by rw [← hauth]; rfl
  have hresp : auth.responderSignature = some (identity'.signTranscript hash false) := by
    rw [← hauth]
    rfl
  rw [verifyHandshakeForRole]
  simp only [ensure, ok_bind, ht, if_true, he, hh, hinit, hrespid, hsig, hs, hs', hresp, pure, Except.pure]

end Signatures

omit [Ciborium] in
theorem verifyFrom_confirmOf (keys : SessionKeys) (hash : Bytes 32) (role : HelloRole) :
    (confirmOf keys hash role).verifyFrom keys hash role = .ok () := by
  have hr : (confirmOf keys hash role).role = role := rfl
  have hid : (confirmOf keys hash role).sessionId = keys.sessionId := rfl
  have hc : (confirmOf keys hash role).confirmation =
    confirmationMac keys.confirmationKey hash (role = .initiator) := rfl
  rw [SessionConfirmPayload.verifyFrom, SessionConfirmPayload.verify, verifyConfirmation]
  rw [hr, hid, hc, ensure_of rfl, ok_bind, ensure_of rfl, ok_bind, if_pos rfl]

/-- What two runs of one handshake share from their start. -/
structure Meets (r r' : Run) : Prop where
  role : r.role = .initiator
  role' : r'.role = .responder
  purpose : r'.purpose = r.purpose
  previous : r'.previous = r.previous
  fits : previousFits r.purpose r.previous

structure Settles (identity identity' : IdentityKeypair) (r r' : Run) (transcript : Transcript)
    (hash shared : Bytes 32) : Prop where
  agrees : r.Agrees r'.localHello transcript hash shared
  agrees' : r'.Agrees r.localHello transcript hash shared
  initiator : transcript.initiatorIdentity = identity.identity
  responder : transcript.responderIdentity = identity'.identity
  suite : transcript.cipherSuite = 1
  purpose : transcript.purpose = r.purpose
  fits : previousFits transcript.purpose transcript.previousSessionId

/-- The two sides use different ephemerals whose shared secret is contributory. -/
def FreshPair (a b : EphemeralKeypair) : Prop :=
  a.publicKey ≠ b.publicKey ∧
    Primitives.wasContributory (Primitives.diffieHellman a.secret b.publicKey)

section Meeting

variable {e e' : Engine} {r r' : Run}

/-- Honest runs that meet settle on one transcript and one shared secret. -/
theorem Meets.settles (rfc : Ciborium.Rfc8949) (hprim : Primitives.Correct) (hs : r.Sound e)
    (hs' : r'.Sound e') (hm : Meets r r') (hfresh : FreshPair r.ephemeral r'.ephemeral) :
    ∃ transcript hash shared, Settles e.identity e'.identity r r' transcript hash shared := by
  obtain ⟨secret, hsecret⟩ := hs.drawn
  obtain ⟨secret', hsecret'⟩ := hs'.drawn
  have hpub : r.ephemeral.publicKey = Primitives.x25519Public r.ephemeral.secret := by rw [hsecret]; rfl
  have hpub' : r'.ephemeral.publicKey = Primitives.x25519Public r'.ephemeral.secret := by
    rw [hsecret']
    rfl
  have hcomm : Primitives.diffieHellman r'.ephemeral.secret r.ephemeral.publicKey =
      Primitives.diffieHellman r.ephemeral.secret r'.ephemeral.publicKey := by
    rw [hpub, hpub', hprim.diffieHellman_comm]
  let t : Transcript :=
    { purpose := r.localHello.purpose
      cipherSuite := r.localHello.cipherSuite
      initiatorIdentity := r.localHello.identityPublicKey
      responderIdentity := r'.localHello.identityPublicKey
      initiatorEphemeral := r.localHello.ephemeralPublicKey
      responderEphemeral := r'.localHello.ephemeralPublicKey
      initiatorNonce := r.localHello.nonce
      responderNonce := r'.localHello.nonce
      previousSessionId := r.localHello.previousSessionId }
  have ht : transcriptFromHellos r.localHello r'.localHello = .ok t := by
    rw [transcriptFromHellos]
    rw [if_neg]
    simp [hs.role, hs'.role, hm.role, hm.role', hs.suite, hs'.suite, hs.purpose, hs'.purpose,
      hm.purpose, hs.previous, hs'.previous, hm.previous]
  obtain ⟨encoded, henc⟩ : ∃ encoded, t.encode = .ok encoded :=
    ⟨_, (Transcript.encode_eq_ok rfc).2 rfl⟩
  have hshared : r.ephemeral.sharedSecret r'.localHello.ephemeralPublicKey =
      .ok (Primitives.diffieHellman r.ephemeral.secret r'.ephemeral.publicKey) := by
    rw [hs'.ephemeral]
    exact if_pos hfresh.2
  have hshared' : r'.ephemeral.sharedSecret r.localHello.ephemeralPublicKey =
      .ok (Primitives.diffieHellman r.ephemeral.secret r'.ephemeral.publicKey) := by
    rw [hs.ephemeral, ← hcomm]
    exact if_pos (hcomm ▸ hfresh.2)
  refine ⟨t, _, _, ⟨?_, ⟨encoded, henc, rfl⟩, hshared⟩, ⟨?_, ⟨encoded, henc, rfl⟩, hshared'⟩,
    hs.identity, hs'.identity, hs.suite, hs.purpose, ?_⟩
  · rw [Run.transcriptWith_eq, hm.role]
    exact ht
  · rw [Run.transcriptWith_eq, hm.role']
    exact ht
  · have hfits : previousFits r.localHello.purpose r.localHello.previousSessionId := by
      rw [hs.purpose, hs.previous]
      exact hm.fits
    exact hfits

theorem Run.Sound.checks (hs : r.Sound e) (hs' : r'.Sound e') (hpurpose : r'.purpose = r.purpose)
    (hprev : r'.previous = r.previous) (hid : e'.identity.identity ≠ e.identity.identity)
    (hpeer : r.purpose = .rekey → e.peerIdentity = some e'.identity.identity)
    (heph : r'.ephemeral.publicKey ≠ r.ephemeral.publicKey) :
    Ctx.checkRemoteHello e r r'.localHello r'.role = .ok () := by
  refine checkRemoteHello_eq_ok.2 ⟨hs'.role, ?_, ?_, ?_, ?_, ?_, ?_⟩
  · rw [hs.suite, hs'.suite]
  · rw [hs'.purpose, hpurpose]
  · rw [hs'.previous, hprev]
  · rw [hs'.identity, hs.identity]
    exact hid
  · rw [hs'.ephemeral, hs.ephemeral]
    exact heph
  · intro hp
    obtain ⟨active, ha, hpe⟩ := Option.map_eq_some_iff.1 (hpeer hp)
    exact ⟨active, ha, hs'.identity.trans hpe.symm⟩

end Meeting

section Frames

variable {identity identity' : IdentityKeypair} {r r' : Run} {transcript : Transcript}
  {hash shared : Bytes 32}

theorem Settles.auth_isOk (rfc : Ciborium.Rfc8949)
    (h : Settles identity identity' r r' transcript hash shared) :
    ∃ frame, (authBy identity transcript hash).encode = .ok frame :=
  HandshakePayload.encode_isOk rfc h.suite (.inl ⟨rfl, rfl⟩) h.fits

theorem Settles.response_isOk (rfc : Ciborium.Rfc8949)
    (h : Settles identity identity' r r' transcript hash shared) (auth : HandshakePayload) :
    ∃ frame, (responseBy identity' transcript hash auth).encode = .ok frame :=
  HandshakePayload.encode_isOk rfc h.suite (.inr ⟨rfl, rfl⟩) h.fits

theorem confirmOf_isOk (rfc : Ciborium.Rfc8949) (keys : SessionKeys) (hash : Bytes 32)
    (role : HelloRole) : ∃ frame, (confirmOf keys hash role).encode = .ok frame :=
  SessionConfirmPayload.encode_isOk rfc

end Frames

end Ruxmsg

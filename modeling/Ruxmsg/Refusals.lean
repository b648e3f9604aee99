import Ruxmsg.Commute
import Ruxmsg.Honest

namespace Ruxmsg

open Library.Machine

variable [Ciborium] [Primitives] {e : Engine} {run run' : Run} {frame : Frame} {es : List Effect}

section Fields

/-- What a run needs at its step besides what both HELLOs settle. -/
structure Run.Supplied (run : Run) : Prop where
  hello : run.step = .hello → run.localHelloFrame.isSome
  reveal : run.step = .reveal → run.commit.isSome
  keys : run.step = .confirmResp ∨ run.step = .confirmInit → run.keys.isSome

theorem Steps.supplied (hs : run.Supplied) (h : Steps e run frame es (.ok (run', none))) : run'.Supplied := by
  cases h with
  | helloSas | helloAuth | revealSas | revealAuth => exact ⟨by simp, by simp, by simp⟩
  | early => exact ⟨hs.hello, hs.reveal, hs.keys⟩
  | authResp | authInit => exact ⟨by simp, by simp, by simp⟩

theorem Approves.supplied (h : Approves e run es (.ok (run', none))) : run'.Supplied := by
  cases h <;> exact ⟨by simp, by simp, by simp⟩

theorem handle_supplied (hf : e.Fits) (hs : ∀ run, e.run = some run → run.Supplied) (i : Input)
    (hrun' : (e.handle i).1.run = some run') : run'.Supplied := by
  have hmoves := (handle_moves hf i).run_moves hf
  rw [show (e.handle i).1.timeless.run = some run' from hrun'] at hmoves
  generalize hr : some run' = result at hmoves
  cases hmoves with
  | gone => cases hr
  | kept => exact hs run' hr.symm
  | stepped hrun _ hsteps =>
      obtain rfl := Option.some.inj hr
      exact hsteps.supplied (hs _ hrun)
  | approved hrun _ _ happroves =>
      obtain rfl := Option.some.inj hr
      exact happroves.supplied
  | commits =>
      obtain rfl := Option.some.inj hr
      exact ⟨by simp [Engine.initiatorRun], by simp [Engine.initiatorRun], by simp [Engine.initiatorRun]⟩
  | answers =>
      obtain rfl := Option.some.inj hr
      exact ⟨by simp [Engine.responderRun], by simp [Engine.responderRun], by simp [Engine.responderRun]⟩

/-- The fields of a run, as its step, its engine and its role have them. -/
structure Run.Filled (e : Engine) (run : Run) : Prop where
  purpose_iff : run.purpose = .initial ↔ e.phase = .handshaking
  previous : run.purpose = .rekey → ∃ active, e.active = some active ∧ run.previous = some active.id
  hello : run.step = .hello → run.role = .initiator ∧
    ∃ helloFrame, run.localHelloFrame = some helloFrame ∧ run.localHello.encode = .ok helloFrame
  reveal : run.step = .reveal → run.role = .responder ∧ run.commit.isSome
  settled : run.step ≠ .hello → run.step ≠ .reveal → ∃ transcript bytes shared peer,
    run.transcript = some transcript ∧ transcript.encode = .ok bytes ∧
    run.hash = some (transcriptHash bytes) ∧ run.shared = some shared ∧ run.remoteIdentity = some peer
  initiator : run.step = .authResp ∨ run.step = .confirmResp → run.role = .initiator
  responder : run.step = .authInit ∨ run.step = .confirmInit → run.role = .responder
  keys : run.step = .confirmResp ∨ run.step = .confirmInit → run.keys.isSome
  early : run.early.isSome → run.role = .responder ∧ run.step = .sas

end Fields

section Reachable

variable (role : HelloRole) (identity : IdentityKeypair) (entropy : Entropy) (limit : Nat)
  (inputs : List Input)

theorem reachable_supplied
    (hrun : (final Engine.handle (Engine.configured role identity entropy limit) inputs).run = some run) :
    run.Supplied := by
  have h := final_invariant Engine.handle
    (fun e => e.Fits ∧ ∀ run, e.run = some run → run.Supplied) ?_
    (s := Engine.configured role identity entropy limit) ⟨Engine.configured_fits .., ?_⟩ inputs
  · exact h.2 run hrun
  · rintro e i ⟨hf, hs⟩
    exact ⟨handle_fits hf i, fun run' hrun' => handle_supplied hf hs i hrun'⟩
  · intro run h
    cases h

theorem reachable_filled
    (hrun : (final Engine.handle (Engine.configured role identity entropy limit) inputs).run = some run) :
    run.Filled (final Engine.handle (Engine.configured role identity entropy limit) inputs) := by
  have hf := reachable_fits role identity entropy limit inputs
  have hsound := (reachable_pinned role identity entropy limit inputs).run_sound run hrun
  have hsupplied := reachable_supplied role identity entropy limit inputs hrun
  obtain ⟨before, first, during, -, hev⟩ := reachable_evident role identity entropy limit inputs run hrun
  have hfits := hf.run_fits run hrun
  refine ⟨?_, ?_, ?_, ?_, ?_, hev.initiator, hev.responder, hsupplied.keys, ?_⟩
  · constructor
    · intro hp
      obtain ⟨h, -⟩ | ⟨-, h⟩ := hf.run_purpose run hrun
      · exact h
      · cases hp.symm.trans h
    · exact hf.purpose_initial hrun
  · intro hp
    have hphase : (final Engine.handle (Engine.configured role identity entropy limit) inputs).phase =
        .established := by
      obtain ⟨-, h⟩ | ⟨h, -⟩ := hf.run_purpose run hrun
      · cases hp.symm.trans h
      · exact h
    obtain ⟨active, ha⟩ := Option.isSome_iff_exists.1 (hf.active_iff.2 hphase)
    refine ⟨active, ha, ?_⟩
    rw [hf.run_previous run hrun hp, Engine.activeSessionId, ha, Option.map_some]
  · intro hs
    obtain ⟨helloFrame, hkept⟩ := Option.isSome_iff_exists.1 (hsupplied.hello hs)
    exact ⟨hfits.hello_role hs, helloFrame, hkept, hsound.kept helloFrame hkept⟩
  · intro hs
    exact ⟨hfits.reveal_role hs, hsupplied.reveal hs⟩
  · intro h1 h2
    obtain ⟨remote, transcript, hash, shared, h⟩ := hev.heard h1 h2
    obtain ⟨bytes, hbytes, rfl⟩ := h.agrees.hash_eq
    exact ⟨transcript, bytes, shared, _, h.transcript_eq, hbytes, h.hash_eq, h.shared_eq, h.remote_eq⟩
  · intro h
    exact ⟨hfits.early_role h, hfits.early_step h⟩

end Reachable

section Faults

omit [Primitives] in
inductive RefusesAuth (frame : Frame) : Error → Prop
  | undecoded {error} (decoded : HandshakePayload.decode frame = .error error) : RefusesAuth frame error
  | mismatch {auth} (decoded : HandshakePayload.decode frame = .ok auth) : RefusesAuth frame .invalidHandshake
  | signature {auth} (decoded : HandshakePayload.decode frame = .ok auth) : RefusesAuth frame .signatureInvalid
  | identity {auth} (decoded : HandshakePayload.decode frame = .ok auth) : RefusesAuth frame .invalidIdentityKey

inductive Refuses (e : Engine) (run : Run) (frame : Frame) : Error → Prop
  | hello {error} (step : run.step = .hello ∨ run.step = .reveal)
      (undecoded : HelloPayload.decode frame = .error error) : Refuses e run frame error
  | mismatch {remote expectedRole error} (step : run.step = .hello ∨ run.step = .reveal)
      (decoded : HelloPayload.decode frame = .ok remote) (unmatched : ¬ Matches e run remote expectedRole)
      (error_eq : error = .invalidHandshake ∨ error = .identityMismatch) : Refuses e run frame error
  | commitment {commit} (step : run.step = .reveal) (commit_eq : run.commit = some commit)
      (closed : commitHash frame.payload ≠ commit.commitment) : Refuses e run frame .invalidHandshake
  | contribution {remote} (step : run.step = .hello ∨ run.step = .reveal)
      (decoded : HelloPayload.decode frame = .ok remote)
      (zero : run.ephemeral.sharedSecret remote.ephemeralPublicKey = .error .allZeroSharedSecret) :
      Refuses e run frame .allZeroSharedSecret
  | unexpected (step : run.step = .sas)
      (untaken : ¬ (run.role = .responder ∧ run.early = none ∧ frame.messageType = .handshake)) :
      Refuses e run frame .invalidStateTransition
  | auth {error} (step : run.step = .authResp ∨ run.step = .authInit) (refuses : RefusesAuth frame error) :
      Refuses e run frame error
  | confirm {error} (step : run.step = .confirmResp ∨ run.step = .confirmInit)
      (undecoded : SessionConfirmPayload.decode frame = .error error) : Refuses e run frame error
  | confirmation {confirm} (step : run.step = .confirmResp ∨ run.step = .confirmInit)
      (decoded : SessionConfirmPayload.decode frame = .ok confirm) : Refuses e run frame .confirmationInvalid

omit [Ciborium] [Primitives] in
theorem Malformed.ne_invalidStateTransition (error : Error) (h : Malformed error) :
    error ≠ .invalidStateTransition := by
  rintro rfl
  cases h

omit [Primitives] in
theorem RefusesAuth.ne_invalidStateTransition {error : Error} (h : RefusesAuth frame error) :
    error ≠ .invalidStateTransition := by
  cases h with
  | undecoded hd =>
      exact HandshakePayload.decode_faults (p := (· ≠ .invalidStateTransition)) (by simp)
        Malformed.ne_invalidStateTransition frame error hd
  | mismatch | signature | identity => simp

theorem Refuses.unexpected_of_eq (h : Refuses e run frame .invalidStateTransition) :
    run.step = .sas ∧ ¬ (run.role = .responder ∧ run.early = none ∧ frame.messageType = .handshake) := by
  cases h with
  | hello _ hd =>
      exact absurd rfl (HelloPayload.decode_faults (p := (· ≠ .invalidStateTransition)) (by simp)
        Malformed.ne_invalidStateTransition (by simp) frame _ hd)
  | mismatch _ _ _ he => simp at he
  | unexpected hs hu => exact ⟨hs, hu⟩
  | auth _ ha => exact absurd rfl ha.ne_invalidStateTransition
  | confirm _ hd =>
      exact absurd rfl (SessionConfirmPayload.decode_faults (p := (· ≠ .invalidStateTransition)) (by simp)
        Malformed.ne_invalidStateTransition (by simp) frame _ hd)

omit [Ciborium] in
theorem verifyTranscriptSignature_fails (peer : PeerIdentity) (hash : Bytes 32) (signature : Bytes 64)
    (initiator : Bool) {p : Error → Prop} (hsignature : p .signatureInvalid) (hidentity : p .invalidIdentityKey) :
    FailsWith p (verifyTranscriptSignature peer hash signature initiator) := by
  rw [verifyTranscriptSignature]
  exact .ite (.ite .ok (.error hsignature)) (.error hidentity)

/-- The encoding of a transcript does not fail, so an AUTH is to blame. -/
theorem verifyHandshakeForRole_fails (rfc : Ciborium.Rfc8949) (auth : HandshakePayload)
    (transcript : Transcript) (shared : Bytes 32) {p : Error → Prop} (hinvalid : p .invalidHandshake)
    (hsignature : p .signatureInvalid) (hidentity : p .invalidIdentityKey) :
    FailsWith p (verifyHandshakeForRole auth transcript shared true) := by
  obtain ⟨bytes, hbytes⟩ : ∃ bytes, transcript.encode = .ok bytes := ⟨_, (Transcript.encode_eq_ok rfc).2 rfl⟩
  rw [verifyHandshakeForRole]
  rw [ensure_of rfl, ok_bind]
  refine .bind (.ensure hinvalid) fun _ => ?_
  rw [hbytes, ok_bind]
  refine .bind (verifyTranscriptSignature_fails _ _ _ _ hsignature hidentity) fun _ => ?_
  dsimp only
  split
  · exact .bind (verifyTranscriptSignature_fails _ _ _ _ hsignature hidentity) fun _ => .ok
  · exact .bind (.ensure hinvalid) fun _ => .ok

end Faults

namespace Ctx

variable (rfc : Ciborium.Rfc8949) (c : Ctx) {transcript : Transcript} {shared : Bytes 32}

section Auth

include rfc

theorem verifyAuth_fails (ht : run.transcript = some transcript) (hs : run.shared = some shared)
    {auth : HandshakePayload} (hd : HandshakePayload.decode frame = .ok auth) :
    FailsWith (RefusesAuth frame) (verifyAuth run auth) := by
  rw [verifyAuth, ht, hs, okOr_some, ok_bind, okOr_some, ok_bind]
  exact verifyHandshakeForRole_fails rfc auth transcript shared (.mismatch hd) (.signature hd) (.identity hd)

theorem stepAuthResp_fails (ht : run.transcript = some transcript) (hs : run.shared = some shared) :
    FailsWith (RefusesAuth frame) (c.stepAuthResp run frame).1 := by
  intro error h
  rw [stepAuthResp] at h
  dsimp only at h
  split at h
  · next error' hchecked =>
    cases h
    cases hd : HandshakePayload.decode frame with
    | error error =>
        rw [hd, error_bind] at hchecked
        cases hchecked
        exact .undecoded hd
    | ok auth =>
        rw [hd, ok_bind] at hchecked
        refine FailsWith.bind (.ensure (.mismatch hd)) (fun _ => ?_) _ hchecked
        refine .bind (verifyAuth_fails rfc ht hs hd) fun derived => ?_
        obtain ⟨confirm, hconfirm⟩ : ∃ confirm, SessionConfirmPayload.encode
            { sessionId := derived.1.sessionId
              role := .initiator
              confirmation := confirmationMac derived.1.confirmationKey derived.2 true } = .ok confirm :=
          SessionConfirmPayload.encode_isOk rfc
        rw [hconfirm, ok_bind]
        exact .ok
  · cases h

theorem stepAuthInit_fails (ht : run.transcript = some transcript) (hs : run.shared = some shared)
    (hsuite : transcript.cipherSuite = 1)
    (hfits : previousFits transcript.purpose transcript.previousSessionId) :
    FailsWith (RefusesAuth frame) (c.stepAuthInit run frame).1 := by
  intro error h
  rw [stepAuthInit] at h
  dsimp only at h
  split at h
  · next error' hchecked =>
    cases h
    cases hd : HandshakePayload.decode frame with
    | error error =>
        rw [hd, error_bind] at hchecked
        cases hchecked
        exact .undecoded hd
    | ok auth =>
        rw [hd, ok_bind] at hchecked
        refine FailsWith.bind (.ensure (.mismatch hd)) (fun _ => ?_) _ hchecked
        refine .bind (verifyAuth_fails rfc ht hs hd) fun derived => ?_
        rw [ht, okOr_some, ok_bind]
        obtain ⟨response, hresponse⟩ : ∃ response, (transcript.handshakePayload 1 auth.initiatorSignature
            (some (c.self.identity.signTranscript derived.2 false))).encode = .ok response :=
          HandshakePayload.encode_isOk rfc hsuite (.inr ⟨rfl, rfl⟩) hfits
        rw [hresponse, ok_bind]
        exact .ok
  · cases h

/-- The approval of a run that has settled fails on its buffered frame only. -/
theorem afterApproval_fails (ht : run.transcript = some transcript) (hs : run.shared = some shared)
    (hh : run.hash.isSome) (hsuite : transcript.cipherSuite = 1)
    (hfits : previousFits transcript.purpose transcript.previousSessionId) :
    FailsWith (fun error => ∃ early, run.early = some early ∧ RefusesAuth early error)
      (c.afterApproval run).1 := by
  obtain ⟨hash, hh⟩ := Option.isSome_iff_exists.1 hh
  rw [afterApproval]
  simp only [ht, hh, okOr_some, ok_bind, pure, Except.pure]
  split
  · obtain ⟨auth, hauth⟩ : ∃ auth, (transcript.handshakePayload 0
        (c.self.identity.signTranscript hash true) none).encode = .ok auth :=
      HandshakePayload.encode_isOk rfc hsuite (.inl ⟨rfl, rfl⟩) hfits
    rw [hauth]
    exact .ok
  · split
    · next early hearly =>
      intro error h
      exact ⟨early, hearly, stepAuthInit_fails rfc c (by rfl) (by exact hs) hsuite hfits error h⟩
    · exact .ok

end Auth

section Hellos

/-- A HELLO that matches settles a transcript of the suite and purpose of the run. -/
theorem settles_of_matches (rfc : Ciborium.Rfc8949) {e' : Engine} (hsound : run.Sound e)
    {remote : HelloPayload} (hd : HelloPayload.decode frame = .ok remote)
    (hm : Matches e' run remote run.role.other) :
    ∃ transcript bytes, run.transcriptWith remote = .ok transcript ∧ transcript.encode = .ok bytes ∧
      transcript.cipherSuite = 1 ∧ previousFits transcript.purpose transcript.previousSessionId := by
  obtain ⟨hsuite, hfits, -⟩ := HelloPayload.carries_of_decode hd
  have hencode (transcript : Transcript) : ∃ bytes, transcript.encode = .ok bytes :=
    ⟨_, (Transcript.encode_eq_ok rfc).2 rfl⟩
  have hlocal : run.localHello.cipherSuite = remote.cipherSuite ∧ run.localHello.purpose = remote.purpose ∧
      run.localHello.previousSessionId = remote.previousSessionId := by
    refine ⟨hm.suite.symm, ?_, ?_⟩
    · rw [hsound.purpose, hm.purpose]
    · rw [hsound.previous, hm.previous]
  obtain ⟨h1, h2, h3⟩ := hlocal
  have hrole := hm.role
  have hrole' := hsound.role
  unfold Run.transcriptWith transcriptFromHellos
  cases hr : run.role with
  | initiator =>
      rw [hr] at hrole hrole'
      dsimp only
      rw [if_neg (by simp [hrole, hrole', HelloRole.other, h1, h2, h3])]
      obtain ⟨bytes, hbytes⟩ := hencode _
      exact ⟨_, bytes, rfl, hbytes, h1.trans hsuite, by rw [h2, h3]; exact hfits⟩
  | responder =>
      rw [hr] at hrole hrole'
      dsimp only
      rw [if_neg (by simp [hrole, hrole', HelloRole.other, h1, h2, h3])]
      obtain ⟨bytes, hbytes⟩ := hencode _
      exact ⟨_, bytes, rfl, hbytes, hsuite, hfits⟩

omit [Ciborium] [Primitives] in
theorem checkRemoteHello_fails (hactive : run.purpose = .rekey → e.active.isSome) (remote : HelloPayload)
    (expectedRole : HelloRole) : FailsWith (fun error => error = .invalidHandshake ∨ error = .identityMismatch)
      (checkRemoteHello e run remote expectedRole) := by
  rw [checkRemoteHello]
  by_cases hbad : remote.role ≠ expectedRole ∨ remote.cipherSuite ≠ run.localHello.cipherSuite ∨
      remote.purpose ≠ run.purpose ∨ remote.previousSessionId ≠ run.previous ∨
      remote.identityPublicKey = run.localHello.identityPublicKey ∨
      remote.ephemeralPublicKey = run.localHello.ephemeralPublicKey
  · rw [if_pos hbad, error_bind]
    exact .error (Or.inl rfl)
  · rw [if_neg hbad]
    by_cases hp : run.purpose = .rekey
    · obtain ⟨active, ha⟩ := Option.isSome_iff_exists.1 (hactive hp)
      rw [if_pos hp, ha, Option.map_some, okOr_some, ok_bind]
      by_cases hpeer : remote.identityPublicKey ≠ active.peer
      · rw [if_pos hpeer]
        exact .error (Or.inr rfl)
      · rw [if_neg hpeer]
        exact .ok
    · rw [if_neg hp]
      exact .ok

/-- Once a transcript is settled only the key of the peer can be at fault. -/
theorem afterHellos_fails (rfc : Ciborium.Rfc8949) {remote : HelloPayload} {bytes : List UInt8}
    (ht : run.transcriptWith remote = .ok transcript) (hbytes : transcript.encode = .ok bytes)
    (hsuite : transcript.cipherSuite = 1)
    (hfits : previousFits transcript.purpose transcript.previousSessionId) (hearly : run.early = none)
    {p : Error → Prop}
    (hzero : run.ephemeral.sharedSecret remote.ephemeralPublicKey = .error .allZeroSharedSecret →
      p .allZeroSharedSecret) : FailsWith p (c.afterHellos run remote).1 := by
  cases hs : run.ephemeral.sharedSecret remote.ephemeralPublicKey with
  | error error =>
      have he : error = .allZeroSharedSecret := by
        rw [EphemeralKeypair.sharedSecret.eq_def] at hs
        dsimp only at hs
        split at hs
        · cases hs
        · cases hs
          rfl
      rw [he] at hs
      rw [afterHellos]
      rw [Run.agreement, ht, ok_bind, hbytes, ok_bind, hs]
      exact .error (hzero hs)
  | ok shared =>
      have hag : run.Agrees remote transcript (transcriptHash bytes) shared := ⟨ht, ⟨bytes, hbytes, rfl⟩, hs⟩
      cases hp : run.purpose with
      | initial =>
          rw [(afterHellos_initial hag hp).1]
          exact .ok
      | rekey =>
          rw [afterHellos_rekey hag hp]
          intro error h
          obtain ⟨early, he, -⟩ := afterApproval_fails rfc c (by rfl) (by rfl) (by rfl) hsuite hfits error h
          cases hearly.symm.trans he

end Hellos

section Arms

variable (hfilled : run.Filled e) (hsound : run.Sound e) (ha : c.self.active = e.active)

include rfc hfilled hsound ha

theorem hello_fails {expectedRole : HelloRole} (hrole : run.role.other = expectedRole)
    (hstep : run.step = .hello ∨ run.step = .reveal) {remote : HelloPayload}
    (hd : HelloPayload.decode frame = .ok remote) :
    FailsWith (Refuses e run frame) (checkRemoteHello c.self run remote expectedRole) ∧
      (checkRemoteHello c.self run remote expectedRole = .ok () → ∀ (c' : Ctx) (run' : Run),
        run'.role = run.role → run'.localHello = run.localHello → run'.ephemeral = run.ephemeral →
        run'.early = run.early → FailsWith (Refuses e run frame) (c'.afterHellos run' remote).1) := by
  have hactive : run.purpose = .rekey → e.active.isSome := by
    intro hp
    obtain ⟨active, ha, -⟩ := hfilled.previous hp
    rw [ha]
    rfl
  have hearly : run.early = none := by
    by_contra h
    have hsas := (hfilled.early (Option.isSome_iff_ne_none.2 h)).2
    rcases hstep with hs | hs <;> cases hs.symm.trans hsas
  rw [checkRemoteHello_congr ha]
  constructor
  · intro error h
    refine Refuses.mismatch hstep hd (show ¬ Matches e run remote expectedRole from ?_)
      (checkRemoteHello_fails hactive remote expectedRole error h)
    intro hm
    cases h.symm.trans (checkRemoteHello_eq_ok.2 hm)
  · intro h c' run' hr hl he hearly'
    subst hrole
    obtain ⟨transcript, bytes, ht, hbytes, hsuite, hfits⟩ :=
      settles_of_matches rfc hsound hd (checkRemoteHello_eq_ok.1 h)
    have ht' : run'.transcriptWith remote = .ok transcript := by
      rw [Run.transcriptWith, hr, hl]
      exact ht
    have hzero : run'.ephemeral.sharedSecret remote.ephemeralPublicKey = .error .allZeroSharedSecret →
        Refuses e run frame .allZeroSharedSecret := by
      rw [he]
      exact .contribution hstep hd
    exact afterHellos_fails c' rfc ht' hbytes hsuite hfits (hearly'.trans hearly) hzero

theorem stepHello_fails (hstep : run.step = .hello) :
    FailsWith (Refuses e run frame) (c.stepHello run frame).1 := by
  obtain ⟨hrole, helloFrame, hkept, -⟩ := hfilled.hello hstep
  rw [stepHello.eq_def]
  dsimp only
  cases hd : HelloPayload.decode frame with
  | error error => exact .error (.hello (.inl hstep) hd)
  | ok remote =>
      have hother : run.role.other = .responder := by
        rw [hrole]
        rfl
      obtain ⟨hcheck, hafter⟩ := hello_fails rfc c hfilled hsound ha hother (.inl hstep) hd
      rw [ok_bind]
      cases hc : checkRemoteHello c.self run remote .responder with
      | error error => exact .error (hcheck error hc)
      | ok u =>
          rw [hkept, ok_bind, okOr_some, ok_bind]
          exact hafter hc _ _ rfl rfl rfl rfl

theorem stepReveal_fails (hstep : run.step = .reveal) :
    FailsWith (Refuses e run frame) (c.stepReveal run frame).1 := by
  obtain ⟨hrole, hcommit⟩ := hfilled.reveal hstep
  obtain ⟨commit, hcommit⟩ := Option.isSome_iff_exists.1 hcommit
  rw [stepReveal.eq_def]
  dsimp only
  cases hd : HelloPayload.decode frame with
  | error error => exact .error (.hello (.inr hstep) hd)
  | ok remote =>
      have hother : run.role.other = .initiator := by
        rw [hrole]
        rfl
      obtain ⟨hcheck, hafter⟩ := hello_fails rfc c hfilled hsound ha hother (.inr hstep) hd
      rw [ok_bind]
      cases hc : checkRemoteHello c.self run remote .initiator with
      | error error => exact .error (hcheck error hc)
      | ok u =>
          rw [hcommit, ok_bind, okOr_some, ok_bind]
          by_cases hopened : commitHash frame.payload = commit.commitment
          · rw [ensure_of hopened, ok_bind]
            exact hafter hc c run rfl rfl rfl rfl
          · rw [ensure_of_not hopened]
            exact .error (.commitment hstep hcommit hopened)

omit hsound ha rfc in
theorem checkConfirm_fails (hstep : run.step = .confirmResp ∨ run.step = .confirmInit)
    (expectedRole : HelloRole) : FailsWith (Refuses e run frame) (checkConfirm run frame expectedRole) := by
  obtain ⟨keys, hkeys⟩ := Option.isSome_iff_exists.1 (hfilled.keys hstep)
  obtain ⟨transcript, bytes, shared, peer, -, -, hhash, -, -⟩ :=
    hfilled.settled (by rcases hstep with h | h <;> simp [h]) (by rcases hstep with h | h <;> simp [h])
  rw [checkConfirm]
  cases hd : SessionConfirmPayload.decode frame with
  | error error => exact .error (.confirm hstep hd)
  | ok confirm =>
      rw [ok_bind, hkeys, okOr_some, ok_bind, hhash, okOr_some, ok_bind]
      refine .bind (.bind (.ensure (.confirmation hstep hd)) fun _ =>
        .bind (.ensure (.confirmation hstep hd)) fun _ => ?_) fun _ => .ok
      exact .ite .ok (.error (.confirmation hstep hd))

omit hsound ha rfc in
theorem finish_fails (hstep : run.step = .confirmResp ∨ run.step = .confirmInit) (keys : SessionKeys)
    {p : Error → Prop} : FailsWith p (c.finish run keys).1 := by
  obtain ⟨transcript, bytes, shared, peer, -, -, -, -, hpeer⟩ :=
    hfilled.settled (by rcases hstep with h | h <;> simp [h]) (by rcases hstep with h | h <;> simp [h])
  rw [finish, Run.candidate, hpeer, okOr_some, ok_bind]
  exact .ok

omit hsound ha rfc in
theorem stepConfirmResp_fails (hstep : run.step = .confirmResp) :
    FailsWith (Refuses e run frame) (c.stepConfirmResp run frame).1 := by
  have hcheck : FailsWith (Refuses e run frame) (checkConfirm run frame .responder) :=
    checkConfirm_fails hfilled (.inl hstep) .responder
  rw [stepConfirmResp]
  split
  · next error h => exact .error (hcheck error h)
  · exact finish_fails c hfilled (.inl hstep) _

omit hsound ha in
theorem stepConfirmInit_fails (hstep : run.step = .confirmInit) :
    FailsWith (Refuses e run frame) (c.stepConfirmInit run frame).1 := by
  have hcheck : FailsWith (Refuses e run frame) (checkConfirm run frame .initiator) :=
    checkConfirm_fails hfilled (.inr hstep) .initiator
  rw [stepConfirmInit]
  dsimp only
  cases hc : checkConfirm run frame .initiator with
  | error error => exact .error (hcheck error hc)
  | ok checked =>
      obtain ⟨reply, hreply⟩ : ∃ reply, SessionConfirmPayload.encode
          { sessionId := checked.1.sessionId
            role := .responder
            confirmation := confirmationMac checked.1.confirmationKey checked.2 false } = .ok reply :=
        SessionConfirmPayload.encode_isOk rfc
      rw [ok_bind, hreply, ok_bind]
      exact finish_fails (c.push (.send reply)) hfilled (.inr hstep) checked.1

variable (hsettled : ∀ transcript, run.transcript = some transcript → transcript.cipherSuite = 1 ∧
  previousFits transcript.purpose transcript.previousSessionId)

include hsettled

/-- A run whose fields fit refuses a frame for what is wrong with the frame. -/
theorem stepRun_fails (frame : Frame) : FailsWith (Refuses e run frame) (c.stepRun run frame).1 := by
  have hauth : run.step = .authResp ∨ run.step = .authInit → ∃ transcript shared,
      run.transcript = some transcript ∧ run.shared = some shared := by
    intro hstep
    obtain ⟨transcript, _, shared, _, ht, -, -, hs, -⟩ :=
      hfilled.settled (by rcases hstep with h | h <;> simp [h]) (by rcases hstep with h | h <;> simp [h])
    exact ⟨transcript, shared, ht, hs⟩
  rw [stepRun]
  split
  · next hstep => exact stepHello_fails rfc c hfilled hsound ha hstep
  · next hstep => exact stepReveal_fails rfc c hfilled hsound ha hstep
  · next hstep =>
    rw [stepSas]
    split
    · exact .ok
    · next htaken =>
      rw [Option.isNone_iff_eq_none] at htaken
      exact .error (.unexpected hstep htaken)
  · next hstep =>
    obtain ⟨transcript, shared, ht, hs⟩ := hauth (.inl hstep)
    intro error h
    exact .auth (.inl hstep) (stepAuthResp_fails rfc c ht hs error h)
  · next hstep =>
    obtain ⟨transcript, shared, ht, hs⟩ := hauth (.inr hstep)
    obtain ⟨hsuite, hfits⟩ := hsettled transcript ht
    intro error h
    exact .auth (.inr hstep) (stepAuthInit_fails rfc c ht hs hsuite hfits error h)
  · next hstep => exact stepConfirmResp_fails c hfilled hstep
  · next hstep => exact stepConfirmInit_fails rfc c hfilled hstep

end Arms

section Starting

include rfc

theorem startInitiatorRun_isOk {purpose : HandshakePurpose} {previous : Option SessionId}
    (hfits : previousFits purpose previous) : (c.startInitiatorRun purpose previous).1 = .ok () := by
  rcases startInitiatorRun_cases c purpose previous with ⟨_, -, -, hno⟩ | ⟨_, _, -, -, hok, -⟩
  · obtain ⟨helloFrame, hh⟩ := c.view.self.hello_isOk rfc .initiator purpose previous hfits
    obtain ⟨frame, hc⟩ := commitOf_isOk rfc purpose previous hfits helloFrame
    exact absurd hc (hno helloFrame frame hh)
  · exact hok

theorem startResponderRun_isOk {commit : CommitPayload} (hd : CommitPayload.decode frame = .ok commit)
    (emitRekeyStarted : Bool) : (c.startResponderRun commit emitRekeyStarted).1 = .ok () := by
  obtain ⟨hsuite, hfits, -⟩ := CommitPayload.carries_of_decode hd
  obtain ⟨helloFrame, hh⟩ := c.view.self.hello_isOk rfc .responder commit.purpose commit.previousSessionId hfits
  rcases startResponderRun_cases c commit emitRekeyStarted hsuite with ⟨_, -, -, hno⟩ | ⟨_, -, hok, -⟩
  · exact absurd hh (hno helloFrame)
  · exact hok

/-- A first frame that starts no run is no COMMIT of an initial handshake. -/
theorem acceptFirstCommit_fails (frame : Frame) :
    FailsWith (· ≠ .invalidStateTransition) (c.acceptFirstCommit frame).1 := by
  rw [acceptFirstCommit]
  cases hd : CommitPayload.decode frame with
  | error error =>
      have hdecode := CommitPayload.decode_faults (p := (· ≠ .invalidStateTransition)) (by simp)
        Malformed.ne_invalidStateTransition (by simp) frame error hd
      exact .error hdecode
  | ok commit =>
      dsimp only
      split
      · exact .error (by simp)
      · rw [startResponderRun_isOk rfc c hd true]
        exact .ok

end Starting

end Ctx

omit [Primitives] in
theorem ClosePayload.encode_isOk (rfc : Ciborium.Rfc8949) {p : ClosePayload} (hd : p.detail = none) :
    ∃ frame, p.encode = .ok frame := by
  have hdetail : ∀ detail, p.detail = some detail → detail.utf8ByteSize ≤ maxDetailBytes := by
    intro detail h
    cases hd.symm.trans h
  obtain ⟨frame, h, -⟩ := encodeMap_keyed rfc .close (p.fieldsOk hdetail) (p.length_le hdetail)
  refine ⟨frame, ?_⟩
  rw [encode, p.entries_eq, ensure_of (by simp [hd])]
  exact h

section Reachable

variable (role : HelloRole) (identity : IdentityKeypair) (entropy : Entropy) (limit : Nat)
  (inputs : List Input)

theorem reachable_settled (rfc : Ciborium.Rfc8949)
    (hrun : (final Engine.handle (Engine.configured role identity entropy limit) inputs).run = some run)
    {transcript : Transcript} (ht : run.transcript = some transcript) :
    transcript.cipherSuite = 1 ∧ previousFits transcript.purpose transcript.previousSessionId := by
  have hsound := (reachable_pinned role identity entropy limit inputs).run_sound run hrun
  obtain ⟨before, first, during, -, hev⟩ := reachable_evident role identity entropy limit inputs run hrun
  have hunheard : ¬ (run.step = .hello ∨ run.step = .reveal) := by
    intro hs
    cases (hev.unheard hs).1.symm.trans ht
  rw [not_or] at hunheard
  obtain ⟨remote, t, hash, shared, h⟩ := hev.heard hunheard.1 hunheard.2
  obtain ⟨call, -, frame, hhears⟩ := h.received
  obtain ⟨t', bytes, ht', -, hsuite, hfits⟩ := Ctx.settles_of_matches rfc hsound hhears.decoded hhears.checked
  obtain rfl := Except.ok.inj (h.agrees.transcript_eq.symm.trans ht')
  obtain rfl := Option.some.inj (h.transcript_eq.symm.trans ht)
  exact ⟨hsuite, hfits⟩

/-- A driven run ends as an unexpected frame only at the SAS wait. -/
theorem Ctx.driveRun_unexpected_iff {c : Ctx} (hrun : c.self.run = some run)
    (hfails : FailsWith (Refuses e run frame)
      ((c.update fun self => { self with run := none }).stepRun run frame).1) :
    (c.driveRun frame).1 = .error .invalidStateTransition ↔
      run.step = .sas ∧ ¬ (run.role = .responder ∧ run.early = none ∧ frame.messageType = .handshake) := by
  constructor
  · intro h
    apply Refuses.unexpected_of_eq (e := e)
    apply hfails
    rw [driveRun] at h
    simp only [hrun] at h
    split at h
    · next error d hd =>
      rw [hd]
      exact congrArg Except.error (Except.error.inj h)
    · cases h
    · cases h
  · rintro ⟨hsas, huntaken⟩
    have hstep : (c.update fun self => { self with run := none }).stepRun run frame =
        (.error .invalidStateTransition, c.update fun self => { self with run := none }) := by
      simp only [stepRun, hsas, stepSas]
      rw [if_neg (by simpa using huntaken)]
    simp only [driveRun, hrun, hstep]

/-- The fields of a run fit its step in every reachable state. So a frame is
refused for what is wrong with it alone: nothing the run needs is missing, and
whatever the engine encodes can be encoded. -/
theorem run_fields_fit (rfc : Ciborium.Rfc8949) (hprim : Primitives.Correct) :
    let e := final Engine.handle (Engine.configured role identity entropy limit) inputs
    (∀ run, e.run = some run → run.Filled e ∧
      (∀ (c : Ctx) (frame : Frame), c.self.active = e.active →
        FailsWith (Refuses e run frame) (c.stepRun run frame).1) ∧
      (∀ c : Ctx, run.step = .sas → FailsWith
        (fun error => error ≠ .invalidStateTransition ∧ ∃ early, run.early = some early ∧ RefusesAuth early error)
        (c.afterApproval run).1) ∧
      ∀ (out : List Effect) (frame : Frame),
        (Ctx.driveRun ⟨e, out⟩ frame).1 = .error .invalidStateTransition ↔
          run.step = .sas ∧ ¬ (run.role = .responder ∧ run.early = none ∧ frame.messageType = .handshake)) ∧
    (∀ c : Ctx, (c.startInitiatorRun .initial none).1 = .ok () ∧
      (∀ id, (c.startInitiatorRun .rekey (some id)).1 = .ok ()) ∧
      (∀ frame commit emitRekeyStarted, CommitPayload.decode frame = .ok commit →
        (c.startResponderRun commit emitRekeyStarted).1 = .ok ()) ∧
      ∀ frame, FailsWith (· ≠ .invalidStateTransition) (c.acceptFirstCommit frame).1) ∧
    (∀ reason, ∃ frame,
      ClosePayload.encode { sessionId := e.activeSessionId, reason, detail := none } = .ok frame) ∧
    (∀ active content, e.active = some active → content.length ≤ maxContent →
      active.sender.counter + 1 ≤ u64Max → ∃ frame, (active.sender.encrypt content).1 = .ok frame) ∧
    ∀ sessionId direction counter, ∃ aad, dataAad sessionId direction counter = .ok aad := by
  intro e
  refine ⟨?_, ?_, fun reason => ClosePayload.encode_isOk rfc rfl, ?_, dataAad_isOk rfc⟩
  · intro run hrun
    have hfilled : run.Filled e := reachable_filled role identity entropy limit inputs hrun
    have hsound : run.Sound e := (reachable_pinned role identity entropy limit inputs).run_sound run hrun
    have hsettled : ∀ transcript, run.transcript = some transcript → transcript.cipherSuite = 1 ∧
        previousFits transcript.purpose transcript.previousSessionId :=
      fun transcript ht => reachable_settled role identity entropy limit inputs rfc hrun ht
    have hstep (c : Ctx) (frame : Frame) (ha : c.self.active = e.active) :
        FailsWith (Refuses e run frame) (c.stepRun run frame).1 :=
      Ctx.stepRun_fails rfc c hfilled hsound ha hsettled frame
    refine ⟨hfilled, hstep, ?_, ?_⟩
    · intro c hsas error h
      obtain ⟨transcript, bytes, shared, peer, ht, -, hh, hs, -⟩ :=
        hfilled.settled (by simp [hsas]) (by simp [hsas])
      obtain ⟨hsuite, hfits⟩ := hsettled transcript ht
      obtain ⟨early, hearly, hrefuses⟩ :=
        Ctx.afterApproval_fails rfc c ht hs (by rw [hh]; rfl) hsuite hfits error h
      exact ⟨hrefuses.ne_invalidStateTransition, early, hearly, hrefuses⟩
    · exact fun out frame => Ctx.driveRun_unexpected_iff (c := ⟨e, out⟩) hrun (hstep _ frame rfl)
  · intro c
    refine ⟨c.startInitiatorRun_isOk rfc rfl, fun id => c.startInitiatorRun_isOk rfc rfl, ?_,
      c.acceptFirstCommit_fails rfc⟩
    intro frame commit emitRekeyStarted hd
    exact c.startResponderRun_isOk rfc hd emitRekeyStarted
  · intro active content _ hc hn
    obtain ⟨frame, payload, h, -⟩ := DataSender.encrypt_isOk rfc hprim hc hn
    rw [h]
    exact ⟨frame, rfl⟩

end Reachable

end Ruxmsg

namespace Ruxmsg

open Library.Machine Sample in
/-- The answering side at the SAS wait refuses a SESSION_CONFIRM as out of place. -/
theorem run_fields_fit_sas : ∃ run,
    (final Engine.handle answerer (handshake.rightInputs.take 3)).run = some run ∧ run.step = .sas ∧
    (Ctx.driveRun ⟨final Engine.handle answerer (handshake.rightInputs.take 3), []⟩ ⟨.v1, .sessionConfirm, []⟩).1 =
      .error .invalidStateTransition := by
  have hposture : ((final Engine.handle answerer (handshake.rightInputs.take 3)).run.any fun run =>
      run.step = .sas) = true := by
    decide +kernel
  obtain ⟨run, hrun, h⟩ := (Option.any_eq_true _ _).1 hposture
  have hfields := run_fields_fit .responder rightIdentity (entropy 200) rekeyMessageLimit
    (handshake.rightInputs.take 3) Ciborium.reference_rfc8949 Primitives.plain_correct
  obtain ⟨-, -, -, hunexpected⟩ := hfields.1 run hrun
  exact ⟨run, hrun, of_decide_eq_true h,
    (hunexpected [] ⟨.v1, .sessionConfirm, []⟩).2 ⟨of_decide_eq_true h, by simp⟩⟩

end Ruxmsg

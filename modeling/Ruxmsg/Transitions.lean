import Ruxmsg.Timeless

namespace Ruxmsg

variable [Ciborium] [Primitives]

section Drawing

def Engine.nextEphemeral (self : Engine) : EphemeralKeypair :=
  EphemeralKeypair.fromBytes (self.entropy.fills self.entropy.calls 32)

omit [Ciborium] [Primitives] in
def Engine.nextNonce (self : Engine) : Bytes 16 := self.entropy.fills (self.entropy.calls + 1) 16

def Engine.drawn (self : Engine) : Engine :=
  { self with entropy := { self.entropy with calls := self.entropy.calls + 2 } }

def Engine.hello (self : Engine) (role : HelloRole) (purpose : HandshakePurpose)
    (previous : Option SessionId) : HelloPayload :=
  { cipherSuite := 1
    purpose
    role
    identityPublicKey := self.identity.identity
    ephemeralPublicKey := self.nextEphemeral.publicKey
    nonce := self.nextNonce
    previousSessionId := previous }

/-- A run before anything has been received in it. -/
def Engine.initiatorRun (self : Engine) (purpose : HandshakePurpose) (previous : Option SessionId)
    (helloFrame : Frame) : Run :=
  { purpose
    role := .initiator
    previous
    ephemeral := self.nextEphemeral
    localHello := self.hello .initiator purpose previous
    localHelloFrame := some helloFrame
    commit := none
    step := .hello
    remoteIdentity := none
    shared := none
    transcript := none
    hash := none
    keys := none
    early := none }

def Engine.responderRun (self : Engine) (commit : CommitPayload) : Run :=
  { purpose := commit.purpose
    role := .responder
    previous := commit.previousSessionId
    ephemeral := self.nextEphemeral
    localHello := self.hello .responder commit.purpose commit.previousSessionId
    localHelloFrame := none
    commit := some commit
    step := .reveal
    remoteIdentity := none
    shared := none
    transcript := none
    hash := none
    keys := none
    early := none }

def commitOf (purpose : HandshakePurpose) (previous : Option SessionId) (helloFrame : Frame) :
    CommitPayload :=
  { cipherSuite := 1
    purpose
    commitment := commitHash helloFrame.payload
    previousSessionId := previous }

end Drawing

structure Run.Agrees (run : Run) (remote : HelloPayload) (transcript : Transcript)
    (hash shared : Bytes 32) : Prop where
  transcript_eq : run.transcriptWith remote = .ok transcript
  hash_eq : ∃ bs, transcript.encode = .ok bs ∧ transcriptHash bs = hash
  shared_eq : run.ephemeral.sharedSecret remote.ephemeralPublicKey = .ok shared

theorem agreement_eq_ok (run : Run) (remote : HelloPayload) {transcript : Transcript}
    {hash shared : Bytes 32} :
    run.agreement remote = .ok (transcript, hash, shared) ↔
      run.Agrees remote transcript hash shared := by
  simp only [Run.agreement, bind_eq_ok, pure_eq_ok, Prod.mk.injEq]
  constructor
  · rintro ⟨_, ht, bs, hbs, _, hsh, rfl, rfl, rfl⟩
    exact ⟨ht, ⟨bs, hbs, rfl⟩, hsh⟩
  · rintro ⟨ht, ⟨bs, hbs, rfl⟩, hsh⟩
    exact ⟨_, ht, bs, hbs, _, hsh, rfl, rfl, rfl⟩

omit [Ciborium] [Primitives] in
def Run.agreed (run : Run) (remote : HelloPayload) (transcript : Transcript) (hash shared : Bytes 32) :
    Run :=
  { run with
    shared := some shared
    transcript := some transcript
    hash := some hash
    remoteIdentity := some remote.identityPublicKey }

structure AcceptsHello (e : Engine) (run : Run) (frame : Frame) (remote : HelloPayload)
    (expectedRole : HelloRole) : Prop where
  decoded : HelloPayload.decode frame = .ok remote
  checked : Ctx.checkRemoteHello e run remote expectedRole = .ok ()

/-- An AUTH whose echoed fields are the transcript of the run. -/
structure AcceptsAuth (run : Run) (frame : Frame) (auth : HandshakePayload) (transcript : Transcript)
    (shared : Bytes 32) (keys : SessionKeys) (hash : Bytes 32) : Prop where
  decoded : HandshakePayload.decode frame = .ok auth
  transcript_eq : run.transcript = some transcript
  shared_eq : run.shared = some shared
  verified : verifyHandshakeForRole auth transcript shared true = .ok (keys, hash)

structure AcceptsConfirm (run : Run) (frame : Frame) (confirm : SessionConfirmPayload)
    (keys : SessionKeys) (hash : Bytes 32) (expectedRole : HelloRole) : Prop where
  decoded : SessionConfirmPayload.decode frame = .ok confirm
  keys_eq : run.keys = some keys
  hash_eq : run.hash = some hash
  verified : confirm.verifyFrom keys hash expectedRole = .ok ()

def confirmOf (keys : SessionKeys) (hash : Bytes 32) (role : HelloRole) : SessionConfirmPayload :=
  { sessionId := keys.sessionId
    role
    confirmation := confirmationMac keys.confirmationKey hash (role = .initiator) }

def Engine.authOf (self : Engine) (transcript : Transcript) (hash : Bytes 32) : HandshakePayload :=
  transcript.handshakePayload 0 (self.identity.signTranscript hash true) none

def Engine.responseOf (self : Engine) (transcript : Transcript) (hash : Bytes 32)
    (auth : HandshakePayload) : HandshakePayload :=
  transcript.handshakePayload 1 auth.initiatorSignature
    (some (self.identity.signTranscript hash false))

inductive Approves (self : Engine) (run : Run) : List Effect → Ctx.Stepped → Prop
  | initiator {transcript hash frame} (role : run.role = .initiator)
      (transcript_eq : run.transcript = some transcript) (hash_eq : run.hash = some hash)
      (encoded : (self.authOf transcript hash).encode = .ok frame) :
      Approves self run [.send frame] (.ok ({ run with step := .authResp }, none))
  | responder {transcript hash} (role : run.role = .responder)
      (transcript_eq : run.transcript = some transcript) (hash_eq : run.hash = some hash)
      (early : run.early = none) :
      Approves self run [] (.ok ({ run with step := .authInit }, none))
  | early {transcript hash frame auth shared keys hash' reply} (role : run.role = .responder)
      (transcript_eq : run.transcript = some transcript) (hash_eq : run.hash = some hash)
      (early : run.early = some frame) (accepts : AcceptsAuth run frame auth transcript shared keys hash')
      (stage : auth.stage = 0 ∧ auth.responderSignature.isNone)
      (encoded : (self.responseOf transcript hash' auth).encode = .ok reply) :
      Approves self run [.send reply]
        (.ok ({ run with early := none, keys := some keys, step := .confirmInit }, none))
  | failed (error : Error) : Approves self run [] (.error error)

inductive Steps (self : Engine) (run : Run) (frame : Frame) : List Effect → Ctx.Stepped → Prop
  | helloSas {remote reveal transcript hash shared} (step : run.step = .hello)
      (accepts : AcceptsHello self run frame remote .responder)
      (kept : run.localHelloFrame = some reveal)
      (agrees : run.Agrees remote transcript hash shared) (purpose : run.purpose = .initial) :
      Steps self run frame [.send reveal, .requestSas (sasWords hash) remote.identityPublicKey]
        (.ok ({ run.agreed remote transcript hash shared with
          localHelloFrame := none, step := .sas }, none))
  | helloAuth {remote reveal transcript hash shared auth} (step : run.step = .hello)
      (accepts : AcceptsHello self run frame remote .responder)
      (kept : run.localHelloFrame = some reveal)
      (agrees : run.Agrees remote transcript hash shared) (purpose : run.purpose = .rekey)
      (role : run.role = .initiator)
      (encoded : (self.authOf transcript hash).encode = .ok auth) :
      Steps self run frame [.send reveal, .send auth]
        (.ok ({ run.agreed remote transcript hash shared with
          localHelloFrame := none, step := .authResp }, none))
  | helloFailed {remote reveal} (error : Error) (step : run.step = .hello)
      (accepts : AcceptsHello self run frame remote .responder)
      (kept : run.localHelloFrame = some reveal) :
      Steps self run frame [.send reveal] (.error error)
  | revealSas {remote commit transcript hash shared} (step : run.step = .reveal)
      (accepts : AcceptsHello self run frame remote .initiator) (commit_eq : run.commit = some commit)
      (opened : commitHash frame.payload = commit.commitment)
      (agrees : run.Agrees remote transcript hash shared) (purpose : run.purpose = .initial) :
      Steps self run frame [.requestSas (sasWords hash) remote.identityPublicKey]
        (.ok ({ run.agreed remote transcript hash shared with step := .sas }, none))
  | revealAuth {remote commit transcript hash shared} (step : run.step = .reveal)
      (accepts : AcceptsHello self run frame remote .initiator) (commit_eq : run.commit = some commit)
      (opened : commitHash frame.payload = commit.commitment)
      (agrees : run.Agrees remote transcript hash shared) (purpose : run.purpose = .rekey)
      (role : run.role = .responder) :
      Steps self run frame []
        (.ok ({ run.agreed remote transcript hash shared with step := .authInit }, none))
  | early (step : run.step = .sas) (role : run.role = .responder) (free : run.early = none)
      (type : frame.messageType = .handshake) :
      Steps self run frame [] (.ok ({ run with early := some frame }, none))
  | authResp {auth transcript shared keys hash confirm} (step : run.step = .authResp)
      (accepts : AcceptsAuth run frame auth transcript shared keys hash)
      (stage : auth.stage = 1 ∧ auth.responderSignature.isSome)
      (encoded : (confirmOf keys hash .initiator).encode = .ok confirm) :
      Steps self run frame [.send confirm]
        (.ok ({ run with keys := some keys, step := .confirmResp }, none))
  | authInit {auth transcript shared keys hash reply} (step : run.step = .authInit)
      (accepts : AcceptsAuth run frame auth transcript shared keys hash)
      (stage : auth.stage = 0 ∧ auth.responderSignature.isNone)
      (encoded : (self.responseOf transcript hash auth).encode = .ok reply) :
      Steps self run frame [.send reply]
        (.ok ({ run with keys := some keys, step := .confirmInit }, none))
  | confirmResp {confirm keys hash peer} (step : run.step = .confirmResp)
      (accepts : AcceptsConfirm run frame confirm keys hash .responder)
      (peer_eq : run.remoteIdentity = some peer) :
      Steps self run frame [] (.ok ({ run with keys := none }, some ⟨keys, peer, run.role⟩))
  | confirmInit {confirm keys hash reply peer} (step : run.step = .confirmInit)
      (accepts : AcceptsConfirm run frame confirm keys hash .initiator)
      (encoded : (confirmOf keys hash .responder).encode = .ok reply)
      (peer_eq : run.remoteIdentity = some peer) :
      Steps self run frame [.send reply]
        (.ok ({ run with keys := none }, some ⟨keys, peer, run.role⟩))
  | confirmFailed {confirm keys hash reply} (error : Error) (step : run.step = .confirmInit)
      (accepts : AcceptsConfirm run frame confirm keys hash .initiator)
      (encoded : (confirmOf keys hash .responder).encode = .ok reply) :
      Steps self run frame [.send reply] (.error error)
  | failed (error : Error) : Steps self run frame [] (.error error)

/-- The role and the buffered frame that go with a step. -/
structure Run.Fits (run : Run) : Prop where
  hello_role : run.step = .hello → run.role = .initiator
  reveal_role : run.step = .reveal → run.role = .responder
  early_step : run.early.isSome → run.step = .sas
  early_role : run.early.isSome → run.role = .responder

omit [Ciborium] [Primitives] in
theorem Run.Fits.early_eq_none {run : Run} (hf : run.Fits) (hs : run.step ≠ .sas) :
    run.early = none := by
  by_contra h
  exact hs (hf.early_step (Option.isSome_iff_ne_none.2 h))

omit [Ciborium] [Primitives] in
theorem checkRemoteHello_congr {self self' : Engine} (ha : self.active = self'.active) (run : Run)
    (remote : HelloPayload) (expectedRole : HelloRole) :
    Ctx.checkRemoteHello self run remote expectedRole =
      Ctx.checkRemoteHello self' run remote expectedRole := by
  rw [Ctx.checkRemoteHello, Ctx.checkRemoteHello, ha]

omit [Primitives] in
theorem AcceptsHello.congr {self self' : Engine} {run : Run} {frame : Frame} {remote : HelloPayload}
    {expectedRole : HelloRole} (ha : self.active = self'.active)
    (h : AcceptsHello self run frame remote expectedRole) :
    AcceptsHello self' run frame remote expectedRole :=
  ⟨h.decoded, (checkRemoteHello_congr ha run remote expectedRole) ▸ h.checked⟩

theorem Approves.congr {self self' : Engine} {run : Run} {es : List Effect} {result : Ctx.Stepped}
    (hi : self.identity = self'.identity) (h : Approves self run es result) :
    Approves self' run es result := by
  cases h with
  | initiator hr ht hh he =>
      rw [Engine.authOf, hi] at he
      exact .initiator hr ht hh he
  | responder hr ht hh he => exact .responder hr ht hh he
  | early hr ht hh he hacc hst hrep =>
      rw [Engine.responseOf, hi] at hrep
      exact .early hr ht hh he hacc hst hrep
  | failed error => exact .failed error

/-- Only the identity and the active session of the engine bear on a step. -/
theorem Steps.congr {self self' : Engine} {run : Run} {frame : Frame} {es : List Effect}
    {result : Ctx.Stepped} (hi : self.identity = self'.identity) (ha : self.active = self'.active)
    (h : Steps self run frame es result) : Steps self' run frame es result := by
  have hauth : self.authOf = self'.authOf := by
    funext t hash
    rw [Engine.authOf, Engine.authOf, hi]
  have hresponse : self.responseOf = self'.responseOf := by
    funext t hash auth
    rw [Engine.responseOf, Engine.responseOf, hi]
  cases h with
  | helloSas hs hacc hk hag hp => exact .helloSas hs (hacc.congr ha) hk hag hp
  | helloAuth hs hacc hk hag hp hr he => exact .helloAuth hs (hacc.congr ha) hk hag hp hr (hauth ▸ he)
  | helloFailed error hs hacc hk => exact .helloFailed error hs (hacc.congr ha) hk
  | revealSas hs hacc hk ho hag hp => exact .revealSas hs (hacc.congr ha) hk ho hag hp
  | revealAuth hs hacc hk ho hag hp hr => exact .revealAuth hs (hacc.congr ha) hk ho hag hp hr
  | early hs hr hf ht => exact .early hs hr hf ht
  | authResp hs hacc hst he => exact .authResp hs hacc hst he
  | authInit hs hacc hst he => exact .authInit hs hacc hst (hresponse ▸ he)
  | confirmResp hs hacc hp => exact .confirmResp hs hacc hp
  | confirmInit hs hacc he hp => exact .confirmInit hs hacc he hp
  | confirmFailed error hs hacc he => exact .confirmFailed error hs hacc he
  | failed error => exact .failed error

namespace Ctx

/-- A result a relation allows, and the effects it comes with added to the view. -/
def Yields (R : List Effect → Stepped → Prop) (c : Ctx) (result : Stepped × Ctx) : Prop :=
  ∃ effects, R effects result.1 ∧ result.2.view = c.view.append effects

omit [Ciborium] [Primitives] in
theorem view_append_nil (c : Ctx) : c.view = c.view.append [] := by
  simp [append]

omit [Ciborium] [Primitives] in
theorem view_append_append (c : Ctx) (xs ys : List Effect) :
    (c.append xs).append ys = c.append (xs ++ ys) := by
  simp [append]

omit [Ciborium] [Primitives] in
theorem push_view (c : Ctx) (effect : Effect) (he : effect.visible = true) :
    (c.push effect).view = c.view.append [effect] := by
  rw [view_push _ _ he]
  rfl

variable (c : Ctx) (run : Run) (frame : Frame)

theorem stepAuthResp_yields (hs : run.step = .authResp) :
    Yields (Steps c.self run frame) c (c.stepAuthResp run frame) := by
  rw [stepAuthResp]
  dsimp only
  split
  next error _ => exact ⟨[], .failed error, view_append_nil c⟩
  next keys confirm h =>
      simp only [bind_eq_ok, ensure_eq_ok, verifyAuth, okOr_eq_ok, pure_eq_ok, Prod.mk.injEq] at h
      obtain ⟨auth, hd, _, hst, ⟨keys', hash⟩, ⟨t, ht, shared, hsh, hv⟩, f, he, rfl, rfl⟩ := h
      refine ⟨[.send f], .authResp hs ⟨hd, ht, hsh, hv⟩ hst he, ?_⟩
      rw [view_rearmFrameDeadline, push_view _ _ rfl]

/-- The `AuthInit` arm, for a run that is at that step or is put there by its approval. -/
theorem stepAuthInit_cases :
    (∃ error, c.stepAuthInit run frame = (.error error, c)) ∨
      ∃ auth transcript shared keys hash reply,
        AcceptsAuth run frame auth transcript shared keys hash ∧
        (auth.stage = 0 ∧ auth.responderSignature.isNone) ∧
        (c.self.responseOf transcript hash auth).encode = .ok reply ∧
        (c.stepAuthInit run frame).1 =
          .ok ({ run with keys := some keys, step := .confirmInit }, none) ∧
        (c.stepAuthInit run frame).2.view = c.view.append [.send reply] := by
  rw [stepAuthInit]
  dsimp only
  split
  next error _ => exact .inl ⟨error, rfl⟩
  next keys reply h =>
      simp only [bind_eq_ok, ensure_eq_ok, verifyAuth, okOr_eq_ok, pure_eq_ok, Prod.mk.injEq] at h
      obtain ⟨auth, hd, _, hst, ⟨keys', hash⟩, ⟨t, ht, shared, hsh, hv⟩, t', ht', f, he, rfl, rfl⟩ := h
      obtain rfl : t = t' := Option.some.inj (ht.symm.trans ht')
      refine .inr ⟨auth, t, shared, keys', hash, f, ⟨hd, ht, hsh, hv⟩, hst, he, rfl, ?_⟩
      rw [view_rearmFrameDeadline, push_view _ _ rfl]

theorem stepAuthInit_yields (hs : run.step = .authInit) :
    Yields (Steps c.self run frame) c (c.stepAuthInit run frame) := by
  obtain ⟨error, h⟩ | ⟨auth, t, shared, keys, hash, reply, hacc, hst, he, hr, hv⟩ :=
    stepAuthInit_cases c run frame
  · rw [h]
    exact ⟨[], .failed error, view_append_nil c⟩
  · refine ⟨_, ?_, hv⟩
    rw [hr]
    exact .authInit hs hacc hst he

theorem afterApproval_yields : Yields (Approves c.self run) c (c.afterApproval run) := by
  rw [afterApproval]
  dsimp only
  split
  next error _ => exact ⟨[], .failed error, view_append_nil c⟩
  next _ _ h =>
      simp only [bind_eq_ok, okOr_eq_ok, pure_eq_ok, Prod.mk.injEq] at h
      obtain ⟨hash, hh, t, ht, rfl, rfl⟩ := h
      split
      next hrole =>
          split
          next error _ => exact ⟨[], .failed error, view_append_nil c⟩
          next auth he =>
              refine ⟨[.send auth], .initiator hrole ht hh he, ?_⟩
              rw [view_rearmFrameDeadline, push_view _ _ rfl]
      next hrole =>
          split
          next early hearly =>
              obtain ⟨error, hc⟩ | ⟨auth, t', shared, keys, hash', reply, hacc, hst, he, hr, hv⟩ :=
                stepAuthInit_cases c { run with step := .authInit, early := none } early
              · rw [hc]
                exact ⟨[], .failed error, view_append_nil c⟩
              · obtain rfl : t = t' := Option.some.inj (ht.symm.trans hacc.transcript_eq)
                refine ⟨_, ?_, hv⟩
                rw [hr]
                exact .early hrole ht hh hearly ⟨hacc.decoded, ht, hacc.shared_eq, hacc.verified⟩ hst he
          next hearly =>
              refine ⟨[], .responder hrole ht hh hearly, ?_⟩
              rw [view_rearmFrameDeadline]
              exact view_append_nil c

/-- What both HELLOs settle, and the SAS request or the approval after it. -/
theorem afterHellos_cases (remote : HelloPayload) :
    (∃ error, c.afterHellos run remote = (.error error, c)) ∨
      ∃ transcript hash shared, run.Agrees remote transcript hash shared ∧
        ((run.purpose = .initial ∧
          (c.afterHellos run remote).1 =
            .ok ({ run.agreed remote transcript hash shared with step := .sas }, none) ∧
          (c.afterHellos run remote).2.view =
            c.view.append [.requestSas (sasWords hash) remote.identityPublicKey]) ∨
        (run.purpose = .rekey ∧
          c.afterHellos run remote = c.afterApproval (run.agreed remote transcript hash shared))) := by
  rw [afterHellos]
  dsimp only
  split
  next error _ => exact .inl ⟨error, rfl⟩
  next t hash shared h =>
      refine .inr ⟨t, hash, shared, (agreement_eq_ok run remote).1 h, ?_⟩
      split
      next hp =>
          refine .inl ⟨hp, rfl, ?_⟩
          rw [push_view _ _ rfl, view_arm, view_cancel]
      next hp => exact .inr ⟨hp, rfl⟩

theorem stepHello_yields (hs : run.step = .hello) (hf : run.Fits) :
    Yields (Steps c.self run frame) c (c.stepHello run frame) := by
  have hrole := hf.hello_role hs
  rw [stepHello.eq_def]
  dsimp only
  split
  next error _ => exact ⟨[], .failed error, view_append_nil c⟩
  next _ _ h =>
      simp only [bind_eq_ok, okOr_eq_ok, pure_eq_ok, Prod.mk.injEq] at h
      obtain ⟨remote, hd, _, hc, reveal, hk, rfl, rfl⟩ := h
      have hacc : AcceptsHello c.self run frame remote .responder := ⟨hd, hc⟩
      have hpush : (c.push (.send reveal)).view = c.view.append [.send reveal] := push_view _ _ rfl
      obtain ⟨error, h⟩ | ⟨t, hash, shared, ha, ⟨hp, h1, h2⟩ | ⟨hp, h⟩⟩ :=
        afterHellos_cases (c.push (.send reveal)) { run with localHelloFrame := none } remote
      · rw [h]
        exact ⟨_, .helloFailed error hs hacc hk, hpush⟩
      · refine ⟨_, ?_, h2.trans (by rw [hpush, view_append_append])⟩
        rw [h1]
        exact .helloSas hs hacc hk ⟨ha.transcript_eq, ha.hash_eq, ha.shared_eq⟩ hp
      · rw [h]
        obtain ⟨es, happ, hview⟩ := afterApproval_yields (c.push (.send reveal))
          (Run.agreed { run with localHelloFrame := none } remote t hash shared)
        refine ⟨.send reveal :: es, ?_, hview.trans (by rw [hpush, view_append_append]; rfl)⟩
        generalize (afterApproval (c.push (.send reveal))
          (Run.agreed { run with localHelloFrame := none } remote t hash shared)).1 = result at happ
        cases happ with
        | initiator _ ht hh he =>
            obtain rfl := Option.some.inj ht
            obtain rfl := Option.some.inj hh
            exact .helloAuth hs hacc hk ⟨ha.transcript_eq, ha.hash_eq, ha.shared_eq⟩ hp hrole he
        | responder hr => cases hrole.symm.trans hr
        | early hr => cases hrole.symm.trans hr
        | failed error => exact .helloFailed error hs hacc hk

theorem stepReveal_yields (hs : run.step = .reveal) (hf : run.Fits) :
    Yields (Steps c.self run frame) c (c.stepReveal run frame) := by
  have hrole := hf.reveal_role hs
  have hearly : run.early = none := hf.early_eq_none (by rw [hs]; decide)
  rw [stepReveal.eq_def]
  dsimp only
  split
  next error _ => exact ⟨[], .failed error, view_append_nil c⟩
  next _ h =>
      simp only [bind_eq_ok, ensure_eq_ok, okOr_eq_ok, pure_eq_ok] at h
      obtain ⟨remote, hd, _, hc, commit, hk, _, ho, rfl⟩ := h
      have hacc : AcceptsHello c.self run frame remote .initiator := ⟨hd, hc⟩
      obtain ⟨error, h⟩ | ⟨t, hash, shared, ha, ⟨hp, h1, h2⟩ | ⟨hp, h⟩⟩ :=
        afterHellos_cases c run remote
      · rw [h]
        exact ⟨[], .failed error, view_append_nil c⟩
      · refine ⟨_, ?_, h2⟩
        rw [h1]
        exact .revealSas hs hacc hk ho ha hp
      · rw [h]
        obtain ⟨es, happ, hview⟩ := afterApproval_yields c (run.agreed remote t hash shared)
        refine ⟨es, ?_, hview⟩
        generalize (afterApproval c (run.agreed remote t hash shared)).1 = result at happ
        cases happ with
        | initiator hr => cases hrole.symm.trans hr
        | responder => exact .revealAuth hs hacc hk ho ha hp hrole
        | early _ _ _ he => exact absurd (hearly.symm.trans he) (by simp)
        | failed error => exact .failed error

theorem stepSas_yields (hs : run.step = .sas) :
    Yields (Steps c.self run frame) c (c.stepSas run frame) := by
  rw [stepSas]
  split
  next h =>
      refine ⟨[], .early hs h.1 ?_ h.2.2, view_append_nil c⟩
      simpa using h.2.1
  next => exact ⟨[], .failed _, view_append_nil c⟩

theorem checkConfirm_eq_ok {expectedRole : HelloRole} {keys : SessionKeys} {hash : Bytes 32}
    (h : checkConfirm run frame expectedRole = .ok (keys, hash)) :
    ∃ confirm, AcceptsConfirm run frame confirm keys hash expectedRole := by
  simp only [checkConfirm, bind_eq_ok, okOr_eq_ok, pure_eq_ok, Prod.mk.injEq] at h
  obtain ⟨confirm, hd, _, hk, _, hh, _, hv, rfl, rfl⟩ := h
  exact ⟨confirm, hd, hk, hh, hv⟩

omit [Ciborium] [Primitives] in
theorem finish_cases (keys : SessionKeys) :
    (∃ error, c.finish run keys = (.error error, c)) ∨
      ∃ peer, run.remoteIdentity = some peer ∧
        c.finish run keys = (.ok ({ run with keys := none }, some ⟨keys, peer, run.role⟩), c) := by
  rw [finish, Run.candidate]
  cases run.remoteIdentity with
  | none => exact .inl ⟨_, rfl⟩
  | some peer => exact .inr ⟨peer, rfl, rfl⟩

theorem stepConfirmResp_yields (hs : run.step = .confirmResp) :
    Yields (Steps c.self run frame) c (c.stepConfirmResp run frame) := by
  rw [stepConfirmResp]
  split
  next error _ => exact ⟨[], .failed error, view_append_nil c⟩
  next keys hash h =>
      obtain ⟨confirm, hacc⟩ := checkConfirm_eq_ok run frame h
      obtain ⟨error, hf⟩ | ⟨peer, hpeer, hf⟩ := finish_cases c run keys
      · rw [hf]
        exact ⟨[], .failed error, view_append_nil c⟩
      · rw [hf]
        exact ⟨[], .confirmResp hs hacc hpeer, view_append_nil c⟩

theorem stepConfirmInit_yields (hs : run.step = .confirmInit) :
    Yields (Steps c.self run frame) c (c.stepConfirmInit run frame) := by
  rw [stepConfirmInit]
  dsimp only
  split
  next error _ => exact ⟨[], .failed error, view_append_nil c⟩
  next _ _ h =>
      simp only [bind_eq_ok, pure_eq_ok, Prod.mk.injEq] at h
      obtain ⟨⟨keys, hash⟩, hc, reply, he, rfl, rfl⟩ := h
      obtain ⟨confirm, hacc⟩ := checkConfirm_eq_ok run frame hc
      have hpush : (c.push (.send reply)).view = c.view.append [.send reply] := push_view _ _ rfl
      obtain ⟨error, hf⟩ | ⟨peer, hpeer, hf⟩ := finish_cases (c.push (.send reply)) run keys
      · rw [hf]
        exact ⟨_, .confirmFailed error hs hacc he, hpush⟩
      · rw [hf]
        exact ⟨_, .confirmInit hs hacc he hpeer, hpush⟩

/-- Every step of a run is one that the relation lists. -/
theorem stepRun_yields (hf : run.Fits) :
    Yields (Steps c.self run frame) c (c.stepRun run frame) := by
  rw [stepRun]
  split
  next h => exact stepHello_yields c run frame h hf
  next h => exact stepReveal_yields c run frame h hf
  next h => exact stepSas_yields c run frame h
  next h => exact stepAuthResp_yields c run frame h
  next h => exact stepAuthInit_yields c run frame h
  next h => exact stepConfirmResp_yields c run frame h
  next h => exact stepConfirmInit_yields c run frame h

end Ctx

end Ruxmsg

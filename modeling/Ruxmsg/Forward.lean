import Ruxmsg.Reachable
import Ruxmsg.Payloads

namespace Ruxmsg

variable [Ciborium] [Primitives]

namespace Ctx

section Steps

variable {c : Ctx} {run : Run} {frame : Frame}

theorem afterHellos_initial {remote : HelloPayload} {transcript : Transcript} {hash shared : Bytes 32}
    (hag : run.Agrees remote transcript hash shared) (hp : run.purpose = .initial) :
    (c.afterHellos run remote).1 =
      .ok ({ run.agreed remote transcript hash shared with step := .sas }, none) ∧
    (c.afterHellos run remote).2.view =
      c.view.append [.requestSas (sasWords hash) remote.identityPublicKey] := by
  rw [afterHellos]
  rw [(agreement_eq_ok run remote).2 hag]
  dsimp only
  rw [hp]
  dsimp only
  refine ⟨by rw [Run.agreed, hp], ?_⟩
  rw [push_view _ _ rfl, view_arm, view_cancel]

theorem afterHellos_rekey {remote : HelloPayload} {transcript : Transcript} {hash shared : Bytes 32}
    (hag : run.Agrees remote transcript hash shared) (hp : run.purpose = .rekey) :
    c.afterHellos run remote = c.afterApproval (run.agreed remote transcript hash shared) := by
  rw [afterHellos]
  rw [(agreement_eq_ok run remote).2 hag]
  dsimp only
  rw [hp]
  simp only [Run.agreed, hp]

theorem afterApproval_realized {es : List Effect} {run' : Run}
    (h : Approves c.self run es (.ok (run', none))) :
    (c.afterApproval run).1 = .ok (run', none) ∧ (c.afterApproval run).2.view = c.view.append es := by
  rw [afterApproval]
  cases h with
  | initiator hr ht hh he =>
      simp only [Engine.authOf] at he
      simp only [hh, ht, okOr_some, ok_bind, pure, Except.pure, hr, he, true_and]
      rw [view_rearmFrameDeadline, push_view _ _ rfl]
  | responder hr ht hh he =>
      simp only [hh, ht, okOr_some, ok_bind, pure, Except.pure, hr, he, true_and]
      rw [view_rearmFrameDeadline]
      exact view_append_nil c
  | early hr ht hh he hacc hst hrep =>
      simp only [Engine.responseOf] at hrep
      have hv := hacc.verified
      have hsh := hacc.shared_eq
      simp only [hh, ht, okOr_some, ok_bind, pure, Except.pure, hr, he, stepAuthInit, hacc.decoded,
        ensure_of hst, verifyAuth, hsh, hv, hrep, true_and]
      rw [view_rearmFrameDeadline, push_view _ _ rfl]

theorem stepHello_initial {remote : HelloPayload} {reveal : Frame} {transcript : Transcript}
    {hash shared : Bytes 32} (hacc : AcceptsHello c.self run frame remote .responder)
    (hk : run.localHelloFrame = some reveal) (hag : run.Agrees remote transcript hash shared)
    (hp : run.purpose = .initial) :
    (c.stepHello run frame).1 =
      .ok ({ run.agreed remote transcript hash shared with localHelloFrame := none, step := .sas },
        none) ∧
    (c.stepHello run frame).2.view = c.view.append
      [.send reveal, .requestSas (sasWords hash) remote.identityPublicKey] := by
  rw [stepHello]
  simp only [hacc.decoded, hacc.checked, hk, okOr_some, ok_bind, pure, Except.pure]
  have hag' : Run.Agrees { run with localHelloFrame := none } remote transcript hash shared :=
    ⟨hag.transcript_eq, hag.hash_eq, hag.shared_eq⟩
  obtain ⟨h1, h2⟩ := afterHellos_initial (c := c.push (.send reveal)) hag' hp
  refine ⟨h1, h2.trans ?_⟩
  rw [push_view _ _ rfl, view_append_append]
  rfl

theorem stepHello_rekey {remote : HelloPayload} {reveal auth : Frame} {transcript : Transcript}
    {hash shared : Bytes 32} (hacc : AcceptsHello c.self run frame remote .responder)
    (hk : run.localHelloFrame = some reveal) (hag : run.Agrees remote transcript hash shared)
    (hp : run.purpose = .rekey) (hr : run.role = .initiator)
    (he : (c.self.authOf transcript hash).encode = .ok auth) :
    (c.stepHello run frame).1 =
      .ok ({ run.agreed remote transcript hash shared with
        localHelloFrame := none, step := .authResp }, none) ∧
    (c.stepHello run frame).2.view = c.view.append [.send reveal, .send auth] := by
  rw [stepHello]
  simp only [hacc.decoded, hacc.checked, hk, okOr_some, ok_bind, pure, Except.pure]
  have hag' : Run.Agrees { run with localHelloFrame := none } remote transcript hash shared :=
    ⟨hag.transcript_eq, hag.hash_eq, hag.shared_eq⟩
  rw [afterHellos_rekey hag' hp]
  have happ : Approves (c.push (.send reveal)).self
      (Run.agreed { run with localHelloFrame := none } remote transcript hash shared) [.send auth] _ :=
    .initiator hr rfl rfl he
  obtain ⟨h1, h2⟩ := afterApproval_realized happ
  refine ⟨h1, h2.trans ?_⟩
  rw [push_view _ _ rfl, view_append_append]
  rfl

theorem checkConfirm_of_accepts {confirm : SessionConfirmPayload} {keys : SessionKeys} {hash : Bytes 32}
    {expectedRole : HelloRole} (h : AcceptsConfirm run frame confirm keys hash expectedRole) :
    checkConfirm run frame expectedRole = .ok (keys, hash) := by
  rw [checkConfirm, h.decoded, ok_bind, h.keys_eq, okOr_some, ok_bind, h.hash_eq, okOr_some, ok_bind,
    h.verified, ok_bind]
  rfl

/-- A step that can succeed does: what a frame does to a run is determined. -/
theorem stepRun_realized {es : List Effect} {r : Run × Option Candidate} (hf : run.Fits)
    (h : Steps c.self run frame es (.ok r)) :
    (c.stepRun run frame).1 = .ok r ∧ (c.stepRun run frame).2.view = c.view.append es := by
  rw [stepRun]
  cases h with
  | helloSas hs hacc hk hag hp =>
      rw [hs]
      exact stepHello_initial hacc hk hag hp
  | helloAuth hs hacc hk hag hp hr he =>
      rw [hs]
      exact stepHello_rekey hacc hk hag hp hr he
  | revealSas hs hacc hk ho hag hp =>
      rw [hs]
      dsimp only
      rw [stepReveal]
      simp only [hacc.decoded, hacc.checked, hk, okOr_some, ok_bind, ensure_of ho, pure, Except.pure]
      exact afterHellos_initial hag hp
  | revealAuth hs hacc hk ho hag hp hr =>
      have hearly : run.early = none := hf.early_eq_none (by rw [hs]; decide)
      rw [hs]
      dsimp only
      rw [stepReveal]
      simp only [hacc.decoded, hacc.checked, hk, okOr_some, ok_bind, ensure_of ho, pure, Except.pure]
      rw [afterHellos_rekey hag hp]
      exact afterApproval_realized (.responder hr rfl rfl hearly)
  | early hs hr hfree ht =>
      rw [hs]
      dsimp only
      rw [stepSas]
      rw [if_pos ⟨hr, by simp [hfree], ht⟩]
      exact ⟨by rw [hs], view_append_nil c⟩
  | @authResp _ _ _ keys hash reply hs hacc hst he =>
      rw [hs]
      have he : SessionConfirmPayload.encode ⟨keys.sessionId, .initiator,
        confirmationMac keys.confirmationKey hash true⟩ = .ok reply := he
      have ht := hacc.transcript_eq
      have hsh := hacc.shared_eq
      have hv := hacc.verified
      simp only [stepAuthResp, hacc.decoded, ok_bind, ensure_of hst, verifyAuth, ht, hsh, okOr_some, hv,
        he, pure, Except.pure, true_and]
      rw [view_rearmFrameDeadline, push_view _ _ rfl]
  | authInit hs hacc hst he =>
      rw [hs]
      simp only [Engine.responseOf] at he
      have ht := hacc.transcript_eq
      have hsh := hacc.shared_eq
      have hv := hacc.verified
      simp only [stepAuthInit, hacc.decoded, ok_bind, ensure_of hst, verifyAuth, ht, hsh, okOr_some, hv,
        he, pure, Except.pure, true_and]
      rw [view_rearmFrameDeadline, push_view _ _ rfl]
  | confirmResp hs hacc hp =>
      rw [hs]
      simp only [stepConfirmResp, checkConfirm_of_accepts hacc, finish, Run.candidate, hp, okOr_some, ok_bind, pure,
        Except.pure]
      exact ⟨by rw [hs], view_append_nil c⟩
  | @confirmInit _ keys hash reply peer hs hacc he hp =>
      rw [hs]
      have he : SessionConfirmPayload.encode ⟨keys.sessionId, .responder,
        confirmationMac keys.confirmationKey hash false⟩ = .ok reply := he
      simp only [stepConfirmInit, checkConfirm_of_accepts hacc, ok_bind, he, pure, Except.pure, finish,
        Run.candidate, hp, okOr_some]
      exact ⟨by rw [hs], push_view _ _ rfl⟩

theorem driveRun_realized {es : List Effect} {run' : Run} {candidate : Option Candidate}
    (hrun : c.self.run = some run) (hf : run.Fits)
    (h : Steps c.self run frame es (.ok (run', candidate))) :
    (c.driveRun frame).1 = .ok candidate ∧ (c.driveRun frame).2.view =
      ⟨{ c.self.timeless with run := if candidate.isSome then none else some run' },
        c.view.out ++ es⟩ := by
  have hs : Steps (c.update fun self => { self with run := none }).self run frame es
      (.ok (run', candidate)) := by
    refine h.congr ?_ ?_ <;> rfl
  obtain ⟨h1, h2⟩ := stepRun_realized hf hs
  rw [driveRun]
  rw [hrun]
  dsimp only
  generalize stepRun (c.update fun self => { self with run := none }) run frame = result at h1 h2 ⊢
  obtain ⟨result, c'⟩ := result
  dsimp only at h1
  subst h1
  cases candidate with
  | some candidate => exact ⟨rfl, h2⟩
  | none =>
      refine ⟨rfl, ?_⟩
      rw [view_update _ _ (by intro; rfl), h2]
      rfl

end Steps

end Ctx

/-- What one call does, timers apart. -/
structure Engine.Becomes (e : Engine) (i : Input) (es : List Effect) (e' : Engine) : Prop where
  post : (e.handle i).1.timeless = e'
  out : (e.handle i).2.filter Effect.visible = es

section Becoming

variable {e : Engine} {frame : Frame} {run run' : Run} {es : List Effect}

theorem Engine.Becomes.of_view {i : Input} {e' : Engine} {c : Ctx} (hh : e.handle i = (c.self, c.out))
    (hv : c.view = ⟨e', es⟩) : e.Becomes i es e' := by
  refine ⟨?_, ?_⟩
  · rw [hh]
    exact congrArg Ctx.self hv
  · rw [hh]
    exact congrArg Ctx.out hv

omit [Primitives] in
def Engine.Expects (e : Engine) (frame : Frame) : Prop :=
  (e.phase = .handshaking ∧ frame.messageType ≠ .close) ∨
  (e.phase = .established ∧ (frame.messageType = .rekey ∨ frame.messageType = .sessionConfirm))

theorem handle_frame (hp : e.phase = .handshaking ∨ e.phase = .established) (frame : Frame) :
    e.handle (.frameReceived frame) =
      (((⟨e, []⟩ : Ctx).onFrame frame).self, ((⟨e, []⟩ : Ctx).onFrame frame).out) := by
  have hopen : e.phase ≠ .closed := by
    obtain h | h := hp <;> simp [h]
  rw [Engine.handle, if_neg hopen]

omit [Ciborium] [Primitives] in
theorem Engine.Expects.phase (h : e.Expects frame) : e.phase = .handshaking ∨ e.phase = .established :=
  h.imp And.left And.left

theorem becomes_stepped (hf : e.Fits) (hex : e.Expects frame) (hrun : e.run = some run)
    (hno : run.step = .hello → ∀ commit, CommitPayload.decode frame ≠ .ok commit)
    (hs : Steps e run frame es (.ok (run', none))) :
    e.Becomes (.frameReceived frame) es { e.timeless with run := some run' } := by
  obtain ⟨h1, h2⟩ := Ctx.driveRun_realized (c := ⟨e, []⟩) hrun (hf.run_fits run hrun) hs
  refine .of_view (handle_frame hex.phase frame) ?_
  rw [Ctx.onFrame]
  obtain ⟨hp, ht⟩ | ⟨hp, ht⟩ := hex
  · rw [hp]
    dsimp only
    rw [Ctx.onFrameHandshaking]
    rw [if_neg ht, if_neg (by simp [hrun]), ← Prod.mk.eta (p := Ctx.driveRun ⟨e, []⟩ frame), h1]
    exact h2
  · rw [hp]
    have hframe : ((⟨e, []⟩ : Ctx).onRekeyFrame frame).view =
        ⟨{ e.timeless with run := some run' }, es⟩ := by
      rw [Ctx.onRekeyFrame]
      rw [hrun]
      dsimp only
      split
      next commit hglare =>
          split at hglare
          next hg =>
              cases hd : CommitPayload.decode frame with
              | error error =>
                  rw [hd] at hglare
                  cases hglare
              | ok commit' => exact absurd hd (hno hg.2.1 commit')
          next => cases hglare
      next =>
          rw [← Prod.mk.eta (p := Ctx.driveRun ⟨e, []⟩ frame), h1]
          exact h2
    obtain ht | ht := ht <;> simpa only [ht] using hframe

theorem becomes_established (hf : e.Fits) (hp : e.phase = .handshaking)
    (ht : frame.messageType ≠ .close) (hrun : e.run = some run) {candidate : Candidate}
    (hs : Steps e run frame es (.ok (run', some candidate))) :
    e.Becomes (.frameReceived frame) (es ++ [.notify (.established candidate.peer)])
      (Engine.established { e.timeless with run := none } candidate) := by
  obtain ⟨h1, h2⟩ := Ctx.driveRun_realized (c := ⟨e, []⟩) hrun (hf.run_fits run hrun) hs
  refine .of_view (handle_frame (.inl hp) frame) ?_
  rw [Ctx.onFrame]
  rw [hp]
  dsimp only
  rw [Ctx.onFrameHandshaking]
  rw [if_neg ht, if_neg (by simp [hrun]), ← Prod.mk.eta (p := Ctx.driveRun ⟨e, []⟩ frame), h1]
  dsimp only
  rw [Ctx.view_completeInitial, h2, ← Ctx.view_self, h2]
  rfl

theorem onFrame_completed (hp : e.phase = .established) (ht : frame.messageType = .sessionConfirm)
    (hrun : e.run = some run) {candidate : Candidate}
    (hdrive : (Ctx.driveRun ⟨e, []⟩ frame).1 = .ok (some candidate)) :
    (⟨e, []⟩ : Ctx).onFrame frame = (Ctx.driveRun ⟨e, []⟩ frame).2.completeRekey candidate := by
  rw [Ctx.onFrame]
  rw [hp]
  dsimp only
  rw [ht]
  dsimp only
  rw [Ctx.onRekeyFrame]
  rw [hrun]
  dsimp only
  rw [if_neg (by simp [ht]), ← Prod.mk.eta (p := Ctx.driveRun ⟨e, []⟩ frame), hdrive]

theorem becomes_promoted (hf : e.Fits) (hp : e.phase = .established)
    (ht : frame.messageType = .sessionConfirm) (hrun : e.run = some run) {candidate : Candidate}
    (hs : Steps e run frame es (.ok (run', some candidate))) (hacc : e.acceptsCandidate candidate) :
    e.Becomes (.frameReceived frame) (es ++ [.notify .rekeyCompleted])
      (Engine.promoted { e.timeless with run := none } candidate) := by
  obtain ⟨h1, h2⟩ := Ctx.driveRun_realized (c := ⟨e, []⟩) hrun (hf.run_fits run hrun) hs
  have hactive : (Ctx.driveRun ⟨e, []⟩ frame).2.self.active = e.active :=
    congrArg (fun c : Ctx => c.self.active) h2
  refine .of_view (handle_frame (.inr hp) frame) ?_
  rw [onFrame_completed hp ht hrun h1,
    Ctx.view_completeRekey _ _ (by rwa [Engine.acceptsCandidate, hactive]), h2, ← Ctx.view_self, h2]
  rfl

/-- The confirmation that completes a rekey whose session may not replace the active
one. -/
theorem becomes_declined (hf : e.Fits) (hp : e.phase = .established)
    (ht : frame.messageType = .sessionConfirm) (hrun : e.run = some run) {candidate : Candidate}
    (hs : Steps e run frame es (.ok (run', some candidate))) (hacc : ¬ e.acceptsCandidate candidate) :
    e.Becomes (.frameReceived frame) (es ++ [.notify (.rekeyFailed .identityMismatch)])
      e.timeless.abandoned := by
  obtain ⟨h1, h2⟩ := Ctx.driveRun_realized (c := ⟨e, []⟩) hrun (hf.run_fits run hrun) hs
  have hactive : (Ctx.driveRun ⟨e, []⟩ frame).2.self.active = e.active :=
    congrArg (fun c : Ctx => c.self.active) h2
  refine .of_view (handle_frame (.inr hp) frame) ?_
  rw [onFrame_completed hp ht hrun h1,
    Ctx.completeRekey_of_not_accepts _ _ (by rwa [Engine.acceptsCandidate, hactive]),
    Ctx.view_failRekey, h2, ← Ctx.view_self, h2]
  rfl

theorem becomes_accepted (hp : e.phase = .handshaking) (hrun : e.run = none) {commit : CommitPayload}
    {helloFrame : Frame} (hacc : AcceptsCommit e frame commit helloFrame)
    (hpurpose : commit.purpose = .initial) (hprev : commit.previousSessionId = none)
    (ht : frame.messageType ≠ .close) :
    e.Becomes (.frameReceived frame) [.send helloFrame]
      { e.timeless.drawn with run := some (e.responderRun commit) } := by
  refine .of_view (handle_frame (.inl hp) frame) ?_
  rw [Ctx.onFrame]
  rw [hp]
  dsimp only
  rw [Ctx.onFrameHandshaking, Ctx.acceptFirstCommit]
  rw [if_neg ht, if_pos (by simp [hrun]), hacc.decoded]
  dsimp only
  rw [if_neg (by simp [hacc.suite, hpurpose, hprev])]
  obtain ⟨error, -, -, hno⟩ | ⟨helloFrame', hh, h1, h2⟩ :=
    Ctx.startResponderRun_cases (⟨e, []⟩ : Ctx) commit true hacc.suite
  · exact absurd hacc.hello (hno helloFrame)
  · obtain rfl := Except.ok.inj (hacc.hello.symm.trans hh)
    rw [← Prod.mk.eta (p := Ctx.startResponderRun ⟨e, []⟩ commit true), h1]
    dsimp only
    rw [h2, if_neg (by simp [hpurpose])]
    rfl

omit [Primitives] in
theorem incomingRekey_eq {commit : CommitPayload} (hd : CommitPayload.decode frame = .ok commit)
    (hpurpose : commit.purpose = .rekey) (hsome : commit.previousSessionId.isSome)
    (hprev : commit.previousSessionId = e.activeSessionId) :
    Ctx.incomingRekey e frame = some commit := by
  obtain ⟨hsuite, -, ht⟩ := CommitPayload.decode_eq_ok hd
  rw [hpurpose] at ht
  rw [Ctx.incomingRekey]
  rw [if_neg (by simp [ht, messageTypeForPurpose]), hd]
  exact if_pos ⟨hsuite, hpurpose, hsome, hprev⟩

theorem becomes_answered (hp : e.phase = .established) (hrun : e.run = none) {commit : CommitPayload}
    {helloFrame : Frame} (hacc : AcceptsCommit e frame commit helloFrame)
    (hpurpose : commit.purpose = .rekey) (hsome : commit.previousSessionId.isSome)
    (hprev : commit.previousSessionId = e.activeSessionId) :
    e.Becomes (.frameReceived frame) [.send helloFrame, .notify .rekeyStarted]
      { e.timeless.drawn with
        run := some (e.responderRun commit)
        lateRekeyFrames := 0
        consecutiveRekeyRejections := 0 } := by
  obtain ⟨-, -, ht⟩ := CommitPayload.decode_eq_ok hacc.decoded
  rw [hpurpose] at ht
  refine .of_view (handle_frame (.inr hp) frame) ?_
  rw [Ctx.onFrame]
  rw [hp]
  dsimp only
  rw [ht]
  dsimp only [messageTypeForPurpose]
  rw [Ctx.onRekeyFrame]
  rw [hrun]
  dsimp only
  rw [incomingRekey_eq hacc.decoded hpurpose hsome hprev]
  dsimp only
  obtain ⟨failure, -, hno⟩ | ⟨helloFrame', hh, h⟩ := Ctx.onIncomingCommit_cases
    ((⟨e, []⟩ : Ctx).update fun self => { self with lateRekeyFrames := 0 }) commit true hacc.suite
    hpurpose hsome hprev
  · exact absurd hacc.hello (hno helloFrame)
  · obtain rfl := Except.ok.inj (hacc.hello.symm.trans hh)
    exact h

section Glare

variable {commit : CommitPayload} {peer : PeerIdentity} (hp : e.phase = .established)
    (hrun : e.run = some run) (hrole : run.role = .initiator) (hstep : run.step = .hello)
    (hd : CommitPayload.decode frame = .ok commit) (hpurpose : commit.purpose = .rekey)
    (hpeer : e.peerIdentity = some peer) (hsame : commit.previousSessionId = run.previous)

include hp hrun hrole hstep hd hpurpose in
theorem onFrame_glare : (⟨e, []⟩ : Ctx).onFrame frame = (⟨e, []⟩ : Ctx).resolveGlare commit := by
  obtain ⟨-, -, ht⟩ := CommitPayload.decode_eq_ok hd
  rw [hpurpose] at ht
  rw [Ctx.onFrame]
  rw [hp]
  dsimp only
  rw [ht]
  dsimp only [messageTypeForPurpose]
  rw [Ctx.onRekeyFrame]
  rw [hrun]
  dsimp only
  rw [if_pos ⟨hrole, hstep, ht⟩, hd]
  rfl

include hp hrun hrole hstep hd hpurpose hpeer hsame

theorem becomes_ignored (hwin : localIdentityWinsRekeyGlare e.identity.identity peer = true) :
    e.Becomes (.frameReceived frame) [] e.timeless := by
  refine .of_view (handle_frame (.inr hp) frame) ?_
  rw [onFrame_glare hp hrun hrole hstep hd hpurpose]
  rw [Ctx.resolveGlare]
  rw [hpeer]
  dsimp only
  rw [if_neg (by simp [hrun, hsame]), if_pos hwin]
  rfl

theorem becomes_yielded (hloses : localIdentityWinsRekeyGlare e.identity.identity peer = false)
    {helloFrame : Frame}
    (hh : (e.hello .responder commit.purpose commit.previousSessionId).encode = .ok helloFrame)
    (hsome : commit.previousSessionId.isSome)
    (hprev : commit.previousSessionId = e.activeSessionId) :
    e.Becomes (.frameReceived frame) [.send helloFrame]
      { e.timeless.drawn with
        run := some (e.responderRun commit)
        consecutiveRekeyRejections := 0 } := by
  obtain ⟨hsuite, -, -⟩ := CommitPayload.decode_eq_ok hd
  refine .of_view (handle_frame (.inr hp) frame) ?_
  rw [onFrame_glare hp hrun hrole hstep hd hpurpose]
  rw [Ctx.resolveGlare]
  rw [hpeer]
  dsimp only
  rw [if_neg (by simp [hrun, hsame]), if_neg (by simp [hloses])]
  generalize hc : ((((⟨e, []⟩ : Ctx).update fun self => { self with run := none }).cancel
    .handshakeFrame).cancel .handshakeTotal) = c
  have hview : c.view = ⟨{ e.timeless with run := none }, []⟩ := by
    rw [← hc, Ctx.view_cancel, Ctx.view_cancel, Ctx.view_update _ _ (by intro; rfl)]
    rfl
  have hid : c.self.activeSessionId = e.activeSessionId := by rw [← hc]; rfl
  obtain ⟨failure, -, hno⟩ | ⟨helloFrame', hh', h⟩ := Ctx.onIncomingCommit_cases c commit false hsuite
    hpurpose hsome (hprev.trans hid.symm)
  · rw [hview] at hno
    exact absurd hh (hno helloFrame)
  · rw [hview] at h hh'
    obtain rfl := Except.ok.inj (hh.symm.trans hh')
    exact h

end Glare

theorem becomes_approved (hp : e.phase = .handshaking) (hrun : e.run = some run)
    (hstep : run.step = .sas) (h : Approves e run es (.ok (run', none))) :
    e.Becomes (.sasDecision true) es { e.timeless with run := some run' } := by
  have hopen : e.phase ≠ .closed := by simp [hp]
  generalize hc : (⟨e, []⟩ : Ctx).onSas true = c
  have hh : e.handle (.sasDecision true) = (c.self, c.out) := by
    rw [Engine.handle, if_neg hopen, ← hc]
  refine .of_view hh ?_
  rw [← hc]
  rw [Ctx.onSas]
  rw [hrun]
  dsimp only
  rw [if_neg (by simp [hp, hstep]), if_neg (by simp)]
  generalize hc' : ((⟨e, []⟩ : Ctx).cancel .sasDecision).update
    (fun self => { self with run := none }) = c'
  have hview : c'.view = ⟨{ e.timeless with run := none }, []⟩ := by
    rw [← hc', Ctx.view_update _ _ (by intro; rfl), Ctx.view_cancel]
    rfl
  have hid : e.identity = c'.self.identity := by rw [← hc']; rfl
  obtain ⟨h1, h2⟩ := Ctx.afterApproval_realized (c := c') (h.congr hid)
  rw [← Prod.mk.eta (p := c'.afterApproval run), h1]
  dsimp only
  rw [Ctx.view_update _ _ (by intro; rfl), h2, hview]
  rfl

theorem becomes_unasked (hw : e.phase ≠ .handshaking ∨ ∀ run, e.run = some run → run.step ≠ .sas) :
    e.Becomes (.sasDecision true) [] e.timeless := by
  have hh : e.handle (.sasDecision true) = (e, []) := by
    rw [Engine.handle]
    split
    next => rfl
    next =>
        dsimp only [Ctx.onSas]
        cases hrun : e.run with
        | none => rfl
        | some run =>
            dsimp only
            rw [if_pos (hw.imp id fun h => h run hrun)]
  exact .of_view (c := ⟨e, []⟩) hh rfl

end Becoming

section Opening

variable {e : Engine} (hp : e.phase = .idle)

include hp

theorem start_eq_of_idle :
    e.handle .start = ((⟨e, []⟩ : Ctx).start.self, (⟨e, []⟩ : Ctx).start.out) := by
  rw [Engine.handle, if_neg (by simp [hp])]

theorem becomes_started (hr : e.role ≠ .initiator) :
    e.Becomes .start [] { e.timeless with phase := .handshaking } := by
  refine .of_view (start_eq_of_idle hp) ?_
  rw [Ctx.start]
  rw [if_neg (by simp [hp])]
  dsimp only
  rw [if_neg (by exact hr), Ctx.view_arm, Ctx.view_arm, Ctx.view_update _ _ (by intro; rfl)]
  rfl

theorem becomes_committed (hr : e.role = .initiator) {helloFrame frame : Frame}
    (hh : (e.hello .initiator .initial none).encode = .ok helloFrame)
    (hc : (commitOf .initial none helloFrame).encode = .ok frame) :
    e.Becomes .start [.send frame] { e.timeless.drawn with
      phase := .handshaking
      run := some (e.initiatorRun .initial none helloFrame) } := by
  refine .of_view (start_eq_of_idle hp) ?_
  rw [Ctx.start]
  rw [if_neg (by simp [hp])]
  dsimp only
  rw [if_pos (by exact hr)]
  generalize hc₁ : ((⟨e, []⟩ : Ctx).update fun self => { self with phase := .handshaking }).arm
    .handshakeTotal handshakeTotalTimeoutSecs = c
  have hview : c.view = ⟨{ e.timeless with phase := .handshaking }, []⟩ := by
    rw [← hc₁, Ctx.view_arm, Ctx.view_update _ _ (by intro; rfl)]
    rfl
  obtain ⟨error, -, -, hno⟩ | ⟨helloFrame', frame', hh', hc', h1, h2⟩ :=
    Ctx.startInitiatorRun_cases c .initial none
  · rw [hview] at hno
    exact absurd hc (hno helloFrame frame hh)
  · rw [hview] at hh' h2
    obtain rfl := Except.ok.inj (hh.symm.trans hh')
    obtain rfl := Except.ok.inj (hc.symm.trans hc')
    rw [← Prod.mk.eta (p := c.startInitiatorRun .initial none), h1]
    dsimp only
    rw [Ctx.view_rearmFrameDeadline, h2]
    rfl

end Opening

section Starting

variable {e : Engine} (rfc : Ciborium.Rfc8949)

include rfc

theorem commitOf_isOk (purpose : HandshakePurpose) (previous : Option SessionId)
    (hfits : previousFits purpose previous) (helloFrame : Frame) :
    ∃ frame, (commitOf purpose previous helloFrame).encode = .ok frame :=
  CommitPayload.encode_isOk rfc rfl hfits

theorem Engine.hello_isOk (e : Engine) (role : HelloRole) (purpose : HandshakePurpose)
    (previous : Option SessionId) (hfits : previousFits purpose previous) :
    ∃ frame, (e.hello role purpose previous).encode = .ok frame :=
  HelloPayload.encode_isOk rfc rfl hfits

theorem Begins.succeeds {e' : Engine} {es : List Effect} (h : Begins e es e') :
    (es = [] ∧ e' = e) ∨ ∃ active helloFrame frame, e.phase = .established ∧ e.run = none ∧
      e.active = some active ∧
      (e.hello .initiator .rekey (some active.id)).encode = .ok helloFrame ∧
      (commitOf .rekey (some active.id) helloFrame).encode = .ok frame ∧
      es = [.send frame, .notify .rekeyStarted] ∧
      e' = { e.drawn with run := some (e.initiatorRun .rekey (some active.id) helloFrame) } := by
  cases h with
  | skipped => exact .inl ⟨rfl, rfl⟩
  | began hp hr ha hh hc => exact .inr ⟨_, _, _, hp, hr, ha, hh, hc, rfl, rfl⟩
  | @failed active _ _ _ ha hno =>
      obtain ⟨helloFrame, hh⟩ := e.hello_isOk rfc .initiator .rekey (some active.id) rfl
      obtain ⟨frame, hc⟩ := commitOf_isOk rfc .rekey (some active.id) rfl helloFrame
      exact absurd hc (hno helloFrame frame hh)

end Starting

theorem becomes_requested {e : Engine} (hopen : e.phase ≠ .closed) : ∃ es e', Begins e.timeless es e' ∧
    e.Becomes .requestRekey es e' := by
  obtain ⟨es, e', hb, hv⟩ := Ctx.beginRekey_begins ⟨e, []⟩
  refine ⟨es, e', hb, .of_view (c := (⟨e, []⟩ : Ctx).beginRekey) ?_ hv⟩
  rw [Engine.handle, if_neg hopen]

end Ruxmsg

import Ruxmsg.Transitions

namespace Ruxmsg

inductive Event.Quiet : Event → Prop
  | repeated : Event.Quiet (.rekeyFailed .repeated)
  | sendRejected (rejection : SendRejection) : Event.Quiet (.sendRejected rejection)

variable [Ciborium] [Primitives]

inductive Begins (e : Engine) : List Effect → Engine → Prop
  | skipped : Begins e [] e
  | began {active helloFrame frame} (phase : e.phase = .established) (run : e.run = none)
      (active_eq : e.active = some active)
      (hello : (e.hello .initiator .rekey (some active.id)).encode = .ok helloFrame)
      (commit : (commitOf .rekey (some active.id) helloFrame).encode = .ok frame) :
      Begins e [.send frame, .notify .rekeyStarted]
        { e.drawn with run := some (e.initiatorRun .rekey (some active.id) helloFrame) }
  | failed {active} (error : Error) (phase : e.phase = .established) (run : e.run = none)
      (active_eq : e.active = some active)
      (refused : ∀ helloFrame frame,
        (e.hello .initiator .rekey (some active.id)).encode = .ok helloFrame →
          (commitOf .rekey (some active.id) helloFrame).encode ≠ .ok frame) :
      Begins e [.notify (.rekeyFailed (rekeyFailure error))] e.drawn.abandoned

/-- What a closing connection may have sent in the same call. -/
inductive Prior (e : Engine) : Input → List Effect → Prop
  | none (i : Input) : Prior e i []
  | stepped {run frame es} (error : Error) (phase : e.phase = .handshaking) (run_eq : e.run = some run)
      (steps : Steps e run frame es (.error error)) : Prior e (.frameReceived frame) es

omit [Ciborium] [Primitives] in
/-- The timeout of an armed deadline of some kind. -/
def Engine.Fires (e : Engine) (kind : DeadlineKind) (i : Input) : Prop :=
  ∃ id deadline, i = .timeout id ∧ e.deadlines.find? (·.1 = id) = some deadline ∧ deadline.2 = kind

omit [Ciborium] [Primitives] in
/-- The inputs that may end an established session. -/
def Engine.MayClose (e : Engine) : Input → Prop
  | .frameReceived frame => e.phase = .established →
      frame.messageType ≠ .rekey ∧
        (frame.messageType = .sessionConfirm → e.run = none ∧ e.lateRekeyFrames = 0)
  | .timeout id => e.phase = .established →
      ∀ deadline, e.deadlines.find? (·.1 = id) = some deadline → deadline.2 = .sasDecision
  | .start | .sasDecision _ | .requestRekey => e.phase ≠ .established
  | _ => True

omit [Ciborium] [Primitives] in
theorem Engine.MayClose.of_phase {e : Engine} (hp : e.phase ≠ .established) (i : Input) :
    e.MayClose i := by
  cases i <;> simp [MayClose, hp]

omit [Ciborium] [Primitives] in
theorem Engine.MayClose.of_type {e : Engine} {frame : Frame} (h : frame.messageType ≠ .rekey)
    (h' : frame.messageType ≠ .sessionConfirm) : e.MayClose (.frameReceived frame) :=
  fun _ => ⟨h, fun hc => absurd hc h'⟩

inductive Abandons (e : Engine) : Input → List Effect → Prop
  | stepped {run frame es} (error : Error) (run_eq : e.run = some run)
      (steps : Steps e run frame es (.error error)) : Abandons e (.frameReceived frame) es
  | refused {run run' frame es candidate} (run_eq : e.run = some run)
      (steps : Steps e run frame es (.ok (run', some candidate)))
      (refused : ¬ e.acceptsCandidate candidate) : Abandons e (.frameReceived frame) es
  | timeout {i} (fires : e.Fires .handshakeFrame i ∨ e.Fires .handshakeTotal i) (run : e.run.isSome) :
      Abandons e i []

structure AcceptsCommit (e : Engine) (frame : Frame) (commit : CommitPayload) (helloFrame : Frame) :
    Prop where
  decoded : CommitPayload.decode frame = .ok commit
  suite : commit.cipherSuite = 1
  hello : (e.hello .responder commit.purpose commit.previousSessionId).encode = .ok helloFrame

/-- The input and the visible effects of one call, and the engine it leaves
with its timers left out. -/
inductive Moves (e : Engine) : Input → List Effect → Engine → Prop
  | noted {i} {events : List Event} {late rejections : Nat} {blocked : Bool}
      (quiet : ∀ event ∈ events, Event.Quiet event)
      (phase : .rekeyFailed .repeated ∈ events → e.phase = .established) :
      Moves e i (events.map .notify)
        { e.timeless with
          lateRekeyFrames := late
          consecutiveRekeyRejections := rejections
          rekeyBlocked := blocked }
  | closed {i es cause notifyPeer entropy} (prior : Prior e i es) (may : e.MayClose i) :
      Moves e i (es ++ e.closing cause notifyPeer) { e.timeless.ended with entropy }
  | started (phase : e.phase = .idle) : Moves e .start [] { e.timeless with phase := .handshaking }
  | committed {helloFrame frame} (phase : e.phase = .idle)
      (hello : (e.hello .initiator .initial none).encode = .ok helloFrame)
      (commit : (commitOf .initial none helloFrame).encode = .ok frame) :
      Moves e .start [.send frame]
        { e.timeless.drawn with
          phase := .handshaking
          run := some (e.initiatorRun .initial none helloFrame) }
  | accepted {frame commit helloFrame} (phase : e.phase = .handshaking) (run : e.run = none)
      (accepts : AcceptsCommit e frame commit helloFrame) (purpose : commit.purpose = .initial)
      (previous : commit.previousSessionId = none) :
      Moves e (.frameReceived frame) [.send helloFrame]
        { e.timeless.drawn with run := some (e.responderRun commit) }
  | stepped {run run' frame es} (phase : e.phase = .handshaking ∨ e.phase = .established)
      (run_eq : e.run = some run) (steps : Steps e run frame es (.ok (run', none))) :
      Moves e (.frameReceived frame) es { e.timeless with run := some run' }
  | approved {run run' es} (phase : e.phase = .handshaking) (run_eq : e.run = some run)
      (step : run.step = .sas) (approves : Approves e run es (.ok (run', none))) :
      Moves e (.sasDecision true) es { e.timeless with run := some run' }
  | established {run run' frame es candidate} (phase : e.phase = .handshaking)
      (run_eq : e.run = some run) (steps : Steps e run frame es (.ok (run', some candidate))) :
      Moves e (.frameReceived frame) (es ++ [.notify (.established candidate.peer)])
        (Engine.established { e.timeless with run := none } candidate)
  | promoted {run run' frame es candidate} (phase : e.phase = .established)
      (run_eq : e.run = some run) (steps : Steps e run frame es (.ok (run', some candidate)))
      (accepts : e.acceptsCandidate candidate) :
      Moves e (.frameReceived frame) (es ++ [.notify .rekeyCompleted])
        (Engine.promoted { e.timeless with run := none } candidate)
  | abandoned {i es error} (phase : e.phase = .established) (abandons : Abandons e i es) :
      Moves e i (es ++ [.notify (.rekeyFailed (rekeyFailure error))]) e.timeless.abandoned
  | refused {frame commit error} (phase : e.phase = .established)
      (decoded : CommitPayload.decode frame = .ok commit)
      (failed : ∀ helloFrame,
        (e.hello .responder commit.purpose commit.previousSessionId).encode ≠ .ok helloFrame) :
      Moves e (.frameReceived frame) [.notify (.rekeyFailed (rekeyFailure error))]
        { e.timeless.drawn.abandoned with consecutiveRekeyRejections := 0 }
  | began {i late blocked es e'} (input : i = .requestRekey ∨ e.Fires .rekeyDue i)
      (begins : Begins { e.timeless with lateRekeyFrames := late, rekeyBlocked := blocked } es e') :
      Moves e i es e'
  | answered {frame commit helloFrame} (phase : e.phase = .established) (run : e.run = none)
      (accepts : AcceptsCommit e frame commit helloFrame) (purpose : commit.purpose = .rekey)
      (previous_some : commit.previousSessionId.isSome)
      (previous : commit.previousSessionId = e.activeSessionId) :
      Moves e (.frameReceived frame) [.send helloFrame, .notify .rekeyStarted]
        { e.timeless.drawn with
          run := some (e.responderRun commit)
          lateRekeyFrames := 0
          consecutiveRekeyRejections := 0 }
  | yielded {frame commit helloFrame run peer} (phase : e.phase = .established)
      (run_eq : e.run = some run) (role : run.role = .initiator) (step : run.step = .hello)
      (same : commit.previousSessionId = run.previous)
      (peer_eq : e.peerIdentity = some peer)
      (loses : localIdentityWinsRekeyGlare e.identity.identity peer = false)
      (accepts : AcceptsCommit e frame commit helloFrame) (purpose : commit.purpose = .rekey)
      (previous_some : commit.previousSessionId.isSome)
      (previous : commit.previousSessionId = e.activeSessionId) :
      Moves e (.frameReceived frame) [.send helloFrame]
        { e.timeless.drawn with
          run := some (e.responderRun commit)
          consecutiveRekeyRejections := 0 }
  | sent {content frame active sender messages es e'} (phase : e.phase = .established)
      (active_eq : e.active = some active)
      (encrypted : active.sender.encrypt content = (.ok frame, sender))
      (begins : Begins { e.timeless with active := some { active with sender }, messages } es e') :
      Moves e (.localSend content) (.send frame :: es) e'
  | unsent {content error active sender} (phase : e.phase = .established)
      (active_eq : e.active = some active)
      (refused : active.sender.encrypt content = (.error error, sender)) :
      Moves e (.localSend content) [.notify (.sendRejected .tooLarge)]
        { e.timeless with active := some { active with sender } }
  | delivered {frame content active receiver messages es e'} (phase : e.phase = .established)
      (type : frame.messageType = .data)
      (active_eq : e.active = some active)
      (decrypted : active.receiver.decrypt frame = (.ok content, receiver))
      (begins : Begins { e.timeless with active := some { active with receiver }, messages } es e') :
      Moves e (.frameReceived frame) (.deliver content :: es) e'
  | drained {frame error content active receiver drainee receiver'} (phase : e.phase = .established)
      (type : frame.messageType = .data)
      (active_eq : e.active = some active)
      (refused : active.receiver.decrypt frame = (.error error, receiver))
      (draining_eq : e.draining = some drainee)
      (decrypted : drainee.receiver.decrypt frame = (.ok content, receiver')) :
      Moves e (.frameReceived frame) [.deliver content]
        { e.timeless with
          active := some { active with receiver }
          draining := some { drainee with receiver := receiver' } }
  | rejected {frame error active receiver} (phase : e.phase = .established)
      (type : frame.messageType = .data)
      (active_eq : e.active = some active)
      (refused : active.receiver.decrypt frame = (.error error, receiver))
      (draining : ∀ drainee, e.draining = some drainee →
        ∃ error, (drainee.receiver.decrypt frame).1 = .error error) :
      Moves e (.frameReceived frame) [.notify .dataRejected]
        { e.timeless with
          active := some { active with receiver }
          draining := e.draining.map fun drainee =>
            { drainee with receiver := (drainee.receiver.decrypt frame).2 } }
  | ended {i} (input : (∃ frame, i = .frameReceived frame ∧ frame.messageType = .close) ∨
        e.Fires .drain i) :
      Moves e i [] { e.timeless with draining := none }

/-- What every engine between two calls satisfies: a run belongs to the phase
and to the active session, and a session is there exactly when established. -/
structure Engine.Fits (e : Engine) : Prop where
  run_fits : ∀ run, e.run = some run → run.Fits
  run_purpose : ∀ run, e.run = some run → (e.phase = .handshaking ∧ run.purpose = .initial) ∨
    (e.phase = .established ∧ run.purpose = .rekey)
  run_previous : ∀ run, e.run = some run → run.purpose = .rekey → run.previous = e.activeSessionId
  active_iff : e.active.isSome ↔ e.phase = .established
  draining_phase : e.draining.isSome → e.phase = .established

omit [Primitives] in
theorem CommitPayload.decode_eq_ok {frame : Frame} {commit : CommitPayload}
    (h : CommitPayload.decode frame = .ok commit) :
    commit.cipherSuite = 1 ∧ previousFits commit.purpose commit.previousSessionId ∧
      frame.messageType = messageTypeForPurpose commit.purpose := by
  simp only [CommitPayload.decode, bind_eq_ok, ensure_eq_ok, pure_eq_ok] at h
  obtain ⟨_, _, _, _, _, _, _, _, _, _, _, _, _, _, _, _, suite, _, _, hs, _, _, _, _, purpose, _,
    _, _, commitment, _, previous, _, _, hp, _, ht, rfl⟩ := h
  exact ⟨hs, hp, ht⟩

namespace Ctx

def Does (e : Engine) (i : Input) (c : Ctx) : Prop := Moves e i c.view.out c.view.self

theorem Does.of_view {e : Engine} {i : Input} {c : Ctx} {es : List Effect} {e' : Engine}
    (hv : c.view = ⟨e', es⟩) (h : Moves e i es e') : Does e i c := by
  rw [Does, hv]
  exact h

section Starting

variable (c : Ctx)

omit [Ciborium] [Primitives] in
theorem view_self : c.view.self = c.self.timeless := rfl

theorem startInitiatorRun_cases (purpose : HandshakePurpose) (previous : Option SessionId) :
    (∃ error, (c.startInitiatorRun purpose previous).1 = .error error ∧
      (c.startInitiatorRun purpose previous).2.view = ⟨c.view.self.drawn, c.view.out⟩ ∧
      ∀ helloFrame frame, (c.view.self.hello .initiator purpose previous).encode = .ok helloFrame →
        (commitOf purpose previous helloFrame).encode ≠ .ok frame) ∨
    ∃ helloFrame frame, (c.view.self.hello .initiator purpose previous).encode = .ok helloFrame ∧
      (commitOf purpose previous helloFrame).encode = .ok frame ∧
      (c.startInitiatorRun purpose previous).1 = .ok () ∧
      (c.startInitiatorRun purpose previous).2.view =
        ⟨{ c.view.self.drawn with
            run := some (c.view.self.initiatorRun purpose previous helloFrame) },
          c.view.out ++ [.send frame]⟩ := by
  rw [startInitiatorRun]
  dsimp only [freshKeys]
  split
  next error he =>
      refine .inl ⟨error, rfl, rfl, ?_⟩
      intro helloFrame _ hh
      cases he.symm.trans hh
  next helloFrame hh =>
      split
      next error he =>
          refine .inl ⟨error, rfl, rfl, ?_⟩
          intro helloFrame' frame hh' hc
          obtain rfl := Except.ok.inj (hh.symm.trans hh')
          cases he.symm.trans hc
      next frame hc =>
          refine .inr ⟨helloFrame, frame, hh, hc, rfl, ?_⟩
          rw [view_update _ _ (by intro; rfl), view_push _ _ rfl]
          rfl

theorem startResponderRun_cases (commit : CommitPayload) (emitRekeyStarted : Bool)
    (hsuite : commit.cipherSuite = 1) :
    (∃ error, (c.startResponderRun commit emitRekeyStarted).1 = .error error ∧
      (c.startResponderRun commit emitRekeyStarted).2.view = ⟨c.view.self.drawn, c.view.out⟩ ∧
      ∀ helloFrame,
        (c.view.self.hello .responder commit.purpose commit.previousSessionId).encode ≠
          .ok helloFrame) ∨
    ∃ helloFrame,
      (c.view.self.hello .responder commit.purpose commit.previousSessionId).encode = .ok helloFrame ∧
      (c.startResponderRun commit emitRekeyStarted).1 = .ok () ∧
      (c.startResponderRun commit emitRekeyStarted).2.view =
        ⟨{ c.view.self.drawn with run := some (c.view.self.responderRun commit) },
          c.view.out ++ .send helloFrame ::
            if commit.purpose = .rekey ∧ emitRekeyStarted then [.notify .rekeyStarted] else []⟩ := by
  rw [startResponderRun]
  dsimp only [freshKeys]
  rw [hsuite]
  split
  next error he =>
      refine .inl ⟨error, rfl, rfl, ?_⟩
      intro helloFrame hh
      cases he.symm.trans hh
  next frame hh =>
      refine .inr ⟨frame, hh, rfl, ?_⟩
      rw [view_rearmFrameDeadline]
      split
      next hp =>
          cases emitRekeyStarted with
          | true =>
              rw [if_pos rfl, view_push _ _ rfl, view_arm, view_update _ _ (by intro; rfl),
                view_push _ _ rfl, if_pos ⟨hp, rfl⟩, push, update, push, List.append_assoc]
              rfl
          | false =>
              rw [if_neg Bool.false_ne_true, view_arm, view_update _ _ (by intro; rfl),
                view_push _ _ rfl, if_neg (by simp)]
              rfl
      next hp =>
          rw [view_update _ _ (by intro; rfl), view_push _ _ rfl, if_neg (by simp [hp])]
          rfl

theorem beginRekey_begins : ∃ es e', Begins c.view.self es e' ∧
    c.beginRekey.view = ⟨e', c.view.out ++ es⟩ := by
  have hskip : c.view = ⟨c.view.self, c.view.out ++ []⟩ := by simp
  rw [beginRekey]
  split
  next => exact ⟨[], _, .skipped, hskip⟩
  next hfree =>
      have hphase : c.self.phase = .established := by
        by_contra h
        exact hfree (.inl h)
      have hrun : c.self.run = none := by
        by_contra h
        exact hfree (.inr (Option.isSome_iff_ne_none.2 h))
      split
      next => exact ⟨[], _, .skipped, hskip⟩
      next previous hprev =>
          obtain ⟨active, ha, rfl⟩ := Option.map_eq_some_iff.1 hprev
          obtain ⟨error, h1, h2, hno⟩ | ⟨helloFrame, frame, hh, hc, h1, h2⟩ :=
            startInitiatorRun_cases c .rekey (some active.id)
          · rw [← Prod.mk.eta (p := c.startInitiatorRun .rekey (some active.id)), h1]
            refine ⟨_, _, .failed error hphase hrun ha hno, ?_⟩
            dsimp only
            rw [view_failRekey, h2, ← view_self, h2]
          · rw [← Prod.mk.eta (p := c.startInitiatorRun .rekey (some active.id)), h1]
            refine ⟨_, _, .began hphase hrun ha hh hc, ?_⟩
            dsimp only
            rw [view_push _ _ rfl, view_rearmFrameDeadline, view_arm, h2, push, List.append_assoc]
            rfl

end Starting

section Driving

variable (c : Ctx) (frame : Frame)

theorem driveRun_cases (run : Run) (hrun : c.self.run = some run) (hf : run.Fits) :
    ∃ es, (∃ error, Steps c.self run frame es (.error error) ∧
        (c.driveRun frame).1 = .error error ∧
        (c.driveRun frame).2.view = ⟨{ c.self.timeless with run := none }, c.view.out ++ es⟩) ∨
      (∃ run' candidate, Steps c.self run frame es (.ok (run', some candidate)) ∧
        (c.driveRun frame).1 = .ok (some candidate) ∧
        (c.driveRun frame).2.view = ⟨{ c.self.timeless with run := none }, c.view.out ++ es⟩) ∨
      (∃ run', Steps c.self run frame es (.ok (run', none)) ∧
        (c.driveRun frame).1 = .ok none ∧
        (c.driveRun frame).2.view = ⟨{ c.self.timeless with run := some run' }, c.view.out ++ es⟩) := by
  obtain ⟨es, hs, hv⟩ := stepRun_yields (c.update fun self => { self with run := none }) run frame hf
  refine ⟨es, ?_⟩
  have hs : Steps c.self run frame es
      (stepRun (c.update fun self => { self with run := none }) run frame).1 := by
    refine hs.congr ?_ ?_ <;> rfl
  have hview : (c.update fun self => { self with run := none }).view.append es =
      ⟨{ c.self.timeless with run := none }, c.view.out ++ es⟩ := rfl
  rw [hview] at hv
  rw [driveRun]
  rw [hrun]
  dsimp only
  generalize stepRun (c.update fun self => { self with run := none }) run frame = result at hs hv ⊢
  obtain ⟨result, c'⟩ := result
  match result with
  | .error error => exact .inl ⟨error, hs, rfl, hv⟩
  | .ok (run', some candidate) => exact .inr (.inl ⟨run', candidate, hs, rfl, hv⟩)
  | .ok (run', none) =>
      refine .inr (.inr ⟨run', hs, rfl, ?_⟩)
      rw [view_update _ _ (by intro; rfl), hv]
      rfl

end Driving

section Handling

variable (e : Engine)

theorem Does.noted {i : Input} {c : Ctx} (events : List Event) (late rejections : Nat) (blocked : Bool)
    (hs : c.view.self = { e.timeless with
      lateRekeyFrames := late, consecutiveRekeyRejections := rejections, rekeyBlocked := blocked })
    (ho : c.view.out = events.map .notify) (quiet : ∀ event ∈ events, Event.Quiet event)
    (phase : .rekeyFailed .repeated ∈ events → e.phase = .established) : Does e i c := by
  rw [Does, hs, ho]
  exact .noted quiet phase

theorem Does.refl {i : Input} : Does e i ⟨e, []⟩ :=
  Does.noted e [] e.lateRekeyFrames e.consecutiveRekeyRejections e.rekeyBlocked rfl rfl (by simp) (by simp)

theorem Does.terminate {i : Input} {e' : Engine} {es : List Effect} {c : Ctx} (cause : CloseCause)
    (notifyPeer : Option CloseReason) (hv : c.view = ⟨e', es⟩)
    (hself : e'.ended = { e.timeless.ended with entropy := e'.entropy })
    (hid : e'.activeSessionId = e.activeSessionId) (prior : Prior e i es) (may : e.MayClose i) :
    Does e i (c.terminate cause notifyPeer) := by
  have hs : c.self.timeless = e' := congrArg Ctx.self hv
  have hc : c.self.closing cause notifyPeer = e.closing cause notifyPeer := by
    have : c.self.activeSessionId = e.activeSessionId := by rw [← hid, ← hs]; rfl
    simp only [Engine.closing, this]
  refine .of_view (view_terminate c cause notifyPeer) ?_
  rw [hv, hs, hself, hc]
  exact .closed prior may

theorem Does.close {i : Input} (cause : CloseCause) (notifyPeer : Option CloseReason)
    (may : e.MayClose i) : Does e i ((⟨e, []⟩ : Ctx).terminate cause notifyPeer) :=
  Does.terminate e cause notifyPeer rfl rfl rfl (.none i) may

theorem Does.failRekey {i : Input} {e' : Engine} {es : List Effect} {c : Ctx} (error : Error)
    (hv : c.view = ⟨e', es⟩) (hself : e'.abandoned = e.timeless.abandoned)
    (hp : e.phase = .established) (abandons : Abandons e i es) : Does e i (c.failRekey error) := by
  have hs : c.self.timeless = e' := congrArg Ctx.self hv
  refine .of_view (view_failRekey c error) ?_
  rw [hv, hs, hself]
  exact .abandoned hp abandons

theorem start_does (i : Input) (hi : i = .start) : Does e i (⟨e, []⟩ : Ctx).start := by
  subst hi
  rw [start]
  split
  next => exact .refl e
  next hp =>
      have hphase : e.phase = .idle := not_not.1 hp
      dsimp only
      split
      next =>
          generalize hc : ((⟨e, []⟩ : Ctx).update fun self => { self with phase := .handshaking }).arm
            .handshakeTotal handshakeTotalTimeoutSecs = c
          have hview : c.view = ⟨{ e.timeless with phase := .handshaking }, []⟩ := by
            rw [← hc, view_arm]
            rfl
          obtain ⟨error, h1, h2, -⟩ | ⟨helloFrame, frame, hh, hk, h1, h2⟩ :=
            startInitiatorRun_cases c .initial none
          · rw [← Prod.mk.eta (p := c.startInitiatorRun .initial none), h1]
            rw [hview] at h2
            exact Does.terminate e _ _ h2 rfl rfl (.none _) (.of_phase (by simp [hphase]) _)
          · rw [← Prod.mk.eta (p := c.startInitiatorRun .initial none), h1]
            rw [hview] at hh h2
            refine .of_view ?_ (.committed hphase hh hk)
            dsimp only
            rw [view_rearmFrameDeadline, h2]
            rfl
      next =>
          refine .of_view ?_ (.started hphase)
          rw [view_arm, view_arm]
          rfl

theorem onCloseFrame_does (frame : Frame) (ht : frame.messageType = .close) :
    Does e (.frameReceived frame) ((⟨e, []⟩ : Ctx).onCloseFrame frame) := by
  rw [onCloseFrame]
  split
  next => exact .close e _ _ (.of_type (by simp [ht]) (by simp [ht]))
  next close _ =>
      split_ifs
      · exact .close e _ _ (.of_type (by simp [ht]) (by simp [ht]))
      · exact .refl e
      · split
        next => exact .refl e
        next id _ =>
            split_ifs
            · exact .close e _ _ (.of_type (by simp [ht]) (by simp [ht]))
            · refine .of_view ?_ (.ended (.inl ⟨frame, rfl, ht⟩))
              rw [view_cancel, view_update _ _ (by intro; rfl)]
              rfl
            · exact .refl e

/-- The frame of a handshake: the first COMMIT, or the next step of the run. -/
theorem onFrameHandshaking_does (hf : e.Fits) (hp : e.phase = .handshaking) (frame : Frame) :
    Does e (.frameReceived frame) ((⟨e, []⟩ : Ctx).onFrameHandshaking frame) := by
  rw [onFrameHandshaking]
  split
  next ht => exact onCloseFrame_does e frame ht
  next =>
      cases hrun : e.run with
      | none =>
          rw [if_pos (by simp)]
          rw [acceptFirstCommit]
          cases hd : CommitPayload.decode frame with
          | error error => exact .close e _ _ (.of_phase (by simp [hp]) _)
          | ok commit =>
              dsimp only
              by_cases hbad : commit.cipherSuite ≠ 1 ∨ commit.purpose ≠ .initial ∨
                  commit.previousSessionId.isSome
              · rw [if_pos hbad]
                exact .close e _ _ (.of_phase (by simp [hp]) _)
              · rw [if_neg hbad]
                simp only [not_or, not_not, Bool.not_eq_true, Option.isSome_eq_false_iff,
                  Option.isNone_iff_eq_none] at hbad
                obtain ⟨hsuite, hpurpose, hprev⟩ := hbad
                obtain ⟨error, h1, h2, -⟩ | ⟨helloFrame, hh, h1, h2⟩ :=
                  startResponderRun_cases (⟨e, []⟩ : Ctx) commit true hsuite
                · rw [← Prod.mk.eta (p := startResponderRun ⟨e, []⟩ commit true), h1]
                  exact Does.terminate e _ _ h2 rfl rfl (.none _) (.of_phase (by simp [hp]) _)
                · rw [← Prod.mk.eta (p := startResponderRun ⟨e, []⟩ commit true), h1]
                  refine .of_view ?_ (.accepted hp hrun ⟨hd, hsuite, hh⟩ hpurpose hprev)
                  dsimp only
                  rw [h2, if_neg (by simp [hpurpose])]
                  rfl
      | some run =>
          rw [if_neg (by simp)]
          obtain ⟨es, ⟨error, hs, h1, h2⟩ | ⟨run', candidate, hs, h1, h2⟩ | ⟨run', hs, h1, h2⟩⟩ :=
            driveRun_cases (⟨e, []⟩ : Ctx) frame run hrun (hf.run_fits run hrun)
          · rw [← Prod.mk.eta (p := driveRun ⟨e, []⟩ frame), h1]
            exact Does.terminate e _ _ h2 rfl rfl (.stepped error hp hrun hs)
              (.of_phase (by simp [hp]) _)
          · rw [← Prod.mk.eta (p := driveRun ⟨e, []⟩ frame), h1]
            refine .of_view ?_ (.established hp hrun hs)
            dsimp only
            rw [view_completeInitial, h2, ← view_self, h2]
            rfl
          · rw [← Prod.mk.eta (p := driveRun ⟨e, []⟩ frame), h1]
            exact .of_view h2 (.stepped (.inl hp) hrun hs)

theorem onSas_does (approved : Bool) : Does e (.sasDecision approved) ((⟨e, []⟩ : Ctx).onSas approved) := by
  rw [onSas]
  cases hrun : e.run with
  | none => exact .refl e
  | some run =>
      dsimp only
      by_cases hwait : e.phase ≠ .handshaking ∨ run.step ≠ .sas
      · rw [if_pos hwait]
        exact .refl e
      · rw [if_neg hwait]
        have hphase : e.phase = .handshaking := by
          by_contra h
          exact hwait (.inl h)
        have hstep : run.step = .sas := by
          by_contra h
          exact hwait (.inr h)
        have hv : ((⟨e, []⟩ : Ctx).cancel .sasDecision).view = ⟨e.timeless, []⟩ := view_cancel _ _
        cases approved with
        | false =>
            rw [if_pos (by simp)]
            exact Does.terminate e _ _ hv rfl rfl (.none _) (.of_phase (by simp [hphase]) _)
        | true =>
            rw [if_neg (by simp)]
            generalize hc : ((⟨e, []⟩ : Ctx).cancel .sasDecision).update
              (fun self => { self with run := none }) = c
            have hview : c.view = ⟨{ e.timeless with run := none }, []⟩ := by
              rw [← hc, view_update _ _ (by intro; rfl), hv]
              rfl
            have hid : c.self.identity = e.identity := by rw [← hc]; rfl
            obtain ⟨es, happ, hres⟩ := afterApproval_yields c run
            replace happ := happ.congr hid
            rw [hview] at hres
            generalize c.afterApproval run = result at happ hres
            obtain ⟨result, c'⟩ := result
            cases happ with
            | initiator hr ht hh he =>
                refine .of_view ?_ (.approved hphase hrun hstep (.initiator hr ht hh he))
                rw [view_update _ _ (by intro; rfl), hres]
                rfl
            | responder hr ht hh he =>
                refine .of_view ?_ (.approved hphase hrun hstep (.responder hr ht hh he))
                rw [view_update _ _ (by intro; rfl), hres]
                rfl
            | early hr ht hh he hacc hst hrep =>
                refine .of_view ?_ (.approved hphase hrun hstep (.early hr ht hh he hacc hst hrep))
                rw [view_update _ _ (by intro; rfl), hres]
                rfl
            | failed error => exact Does.terminate e _ _ hres rfl rfl (.none _) (.of_phase (by simp [hphase]) _)

theorem noteRekeyRejection_does {i : Input} {c : Ctx} (hp : e.phase = .established) (late : Nat) (blocked : Bool)
    (hv : c.view = ⟨{ e.timeless with lateRekeyFrames := late, rekeyBlocked := blocked }, []⟩) :
    Does e i c.noteRekeyRejection := by
  rw [noteRekeyRejection]
  dsimp only
  split_ifs
  · refine Does.noted e [.rekeyFailed .repeated] late (e.consecutiveRekeyRejections + 1) blocked
      ?_ ?_ (by simpa using .repeated) (fun _ => hp) <;>
    · rw [view_push _ _ rfl, view_update _ _ (by intro; rfl), hv]
      rfl
  · refine Does.noted e [] late (e.consecutiveRekeyRejections + 1) blocked ?_ ?_ (by simp) (by simp) <;>
    · rw [view_update _ _ (by intro; rfl), hv]
      rfl
  · refine Does.noted e [] late e.consecutiveRekeyRejections blocked ?_ ?_ (by simp) (by simp)
    · rw [hv]
      rfl
    · rw [hv]
      rfl

theorem onIncomingCommit_cases (c : Ctx) (commit : CommitPayload) (emitRekeyStarted : Bool)
    (hsuite : commit.cipherSuite = 1) (hpurpose : commit.purpose = .rekey)
    (hsome : commit.previousSessionId.isSome)
    (hprev : commit.previousSessionId = c.self.activeSessionId) :
    (∃ error, (c.onIncomingCommit commit emitRekeyStarted).view =
      ⟨{ c.view.self.drawn.abandoned with consecutiveRekeyRejections := 0 },
        c.view.out ++ [.notify (.rekeyFailed (rekeyFailure error))]⟩ ∧
      ∀ helloFrame,
        (c.view.self.hello .responder commit.purpose commit.previousSessionId).encode ≠
          .ok helloFrame) ∨
    ∃ helloFrame,
      (c.view.self.hello .responder commit.purpose commit.previousSessionId).encode = .ok helloFrame ∧
      (c.onIncomingCommit commit emitRekeyStarted).view =
        ⟨{ c.view.self.drawn with
            run := some (c.view.self.responderRun commit)
            consecutiveRekeyRejections := 0 },
          c.view.out ++ .send helloFrame ::
            if emitRekeyStarted then [.notify .rekeyStarted] else []⟩ := by
  rw [onIncomingCommit]
  dsimp only
  rw [if_neg (by simp [hsuite, hpurpose, hsome, ← hprev])]
  generalize hc : c.update (fun self => { self with consecutiveRekeyRejections := 0 }) = c'
  have hview : c'.view = ⟨{ c.view.self with consecutiveRekeyRejections := 0 }, c.view.out⟩ := by
    rw [← hc, view_update _ _ (by intro; rfl)]
    rfl
  obtain ⟨error, h1, h2, hno⟩ | ⟨helloFrame, hh, h1, h2⟩ :=
    startResponderRun_cases c' commit emitRekeyStarted hsuite
  · rw [← Prod.mk.eta (p := startResponderRun c' commit emitRekeyStarted), h1]
    rw [hview] at hno
    refine .inl ⟨error, ?_, hno⟩
    dsimp only
    rw [view_failRekey, ← view_self, h2, hview]
    rfl
  · rw [← Prod.mk.eta (p := startResponderRun c' commit emitRekeyStarted), h1]
    rw [hview] at h2 hh
    refine .inr ⟨helloFrame, hh, ?_⟩
    dsimp only
    rw [h2]
    simp only [hpurpose, true_and]
    rfl

theorem resolveGlare_does (hf : e.Fits) (hp : e.phase = .established) (frame : Frame)
    {run : Run} {commit : CommitPayload} (hrun : e.run = some run) (hrole : run.role = .initiator)
    (hstep : run.step = .hello) (htype : frame.messageType = .rekey)
    (hd : CommitPayload.decode frame = .ok commit) :
    Does e (.frameReceived frame) ((⟨e, []⟩ : Ctx).resolveGlare commit) := by
  obtain ⟨hsuite, hfits, hct⟩ := CommitPayload.decode_eq_ok hd
  have hpurpose : commit.purpose = .rekey := by
    cases hc : commit.purpose with
    | rekey => rfl
    | initial =>
        rw [hc, htype] at hct
        cases hct
  have hsome : commit.previousSessionId.isSome := by
    rw [hpurpose] at hfits
    exact hfits
  have hrekey : run.purpose = .rekey := by
    obtain ⟨h, -⟩ | ⟨-, h⟩ := hf.run_purpose run hrun
    · rw [hp] at h
      cases h
    · exact h
  rw [resolveGlare]
  split
  next => exact .refl e
  next peer hpeer =>
      dsimp only
      by_cases hsame : commit.previousSessionId ≠ e.run.bind Run.previous
      · rw [if_pos hsame]
        exact noteRekeyRejection_does e hp e.lateRekeyFrames e.rekeyBlocked rfl
      · rw [if_neg hsame]
        rw [not_not, hrun, Option.bind_some] at hsame
        by_cases hwin : localIdentityWinsRekeyGlare e.identity.identity peer
        · rw [if_pos hwin]
          exact .refl e
        · rw [if_neg hwin]
          have hprev : commit.previousSessionId = e.activeSessionId :=
            hsame.trans (hf.run_previous run hrun hrekey)
          generalize hc : ((((⟨e, []⟩ : Ctx).update fun self => { self with run := none }).cancel
            .handshakeFrame).cancel .handshakeTotal) = c
          have hview : c.view = ⟨{ e.timeless with run := none }, []⟩ := by
            rw [← hc, view_cancel, view_cancel, view_update _ _ (by intro; rfl)]
            rfl
          have hid : c.self.activeSessionId = e.activeSessionId := by rw [← hc]; rfl
          obtain ⟨failure, h, hno⟩ | ⟨helloFrame, hh, h⟩ := onIncomingCommit_cases c commit false hsuite
            hpurpose hsome (hprev.trans hid.symm)
          · rw [hview] at h hno
            exact .of_view h (.refused hp hd hno)
          · rw [hview] at h hh
            refine .of_view h (.yielded hp hrun hrole hstep hsame hpeer (by simpa using hwin)
              ⟨hd, hsuite, hh⟩ hpurpose hsome hprev)

omit [Primitives] in
theorem incomingRekey_eq_some {frame : Frame} {commit : CommitPayload}
    (h : incomingRekey e frame = some commit) :
    CommitPayload.decode frame = .ok commit ∧ commit.cipherSuite = 1 ∧ commit.purpose = .rekey ∧
      commit.previousSessionId.isSome ∧ commit.previousSessionId = e.activeSessionId := by
  rw [incomingRekey] at h
  split at h
  next => cases h
  next =>
      split at h
      next => cases h
      next commit' hd =>
          split at h
          next hc =>
              cases h
              exact ⟨hd, hc⟩
          next => cases h

theorem onRekeyFrame_does (hf : e.Fits) (hp : e.phase = .established) (frame : Frame) :
    Does e (.frameReceived frame) ((⟨e, []⟩ : Ctx).onRekeyFrame frame) := by
  rw [onRekeyFrame]
  cases hrun : e.run with
  | none =>
      dsimp only
      cases hin : incomingRekey e frame with
      | some commit =>
          obtain ⟨hd, hsuite, hpurpose, hsome, hprev⟩ := incomingRekey_eq_some e hin
          obtain ⟨failure, h, hno⟩ | ⟨helloFrame, hh, h⟩ := onIncomingCommit_cases
            ((⟨e, []⟩ : Ctx).update fun self => { self with lateRekeyFrames := 0 }) commit true hsuite
            hpurpose hsome hprev
          · exact .of_view h (.refused hp hd hno)
          · exact .of_view h (.answered hp hrun ⟨hd, hsuite, hh⟩ hpurpose hsome hprev)
      | none =>
          dsimp only
          split_ifs with hlate hconfirm
          · exact Does.noted e [] (e.lateRekeyFrames - 1) e.consecutiveRekeyRejections e.rekeyBlocked
              rfl rfl (by simp) (by simp)
          · refine .close e _ _ ?_
            intro _
            exact ⟨by simp [hconfirm], fun _ => ⟨hrun, Nat.eq_zero_of_not_pos hlate⟩⟩
          · exact noteRekeyRejection_does e hp e.lateRekeyFrames e.rekeyBlocked rfl
  | some run =>
      dsimp only
      split
      next commit hglare =>
          split at hglare
          next hg =>
              cases hd : CommitPayload.decode frame with
              | error error =>
                  rw [hd] at hglare
                  cases hglare
              | ok commit' =>
                  rw [hd] at hglare
                  cases hglare
                  exact resolveGlare_does e hf hp frame hrun hg.1 hg.2.1 hg.2.2 hd
          next => cases hglare
      next =>
          obtain ⟨es, ⟨error, hs, h1, h2⟩ | ⟨run', candidate, hs, h1, h2⟩ | ⟨run', hs, h1, h2⟩⟩ :=
            driveRun_cases (⟨e, []⟩ : Ctx) frame run hrun (hf.run_fits run hrun)
          · rw [← Prod.mk.eta (p := driveRun ⟨e, []⟩ frame), h1]
            exact Does.failRekey e error h2 rfl hp (.stepped error hrun hs)
          · rw [← Prod.mk.eta (p := driveRun ⟨e, []⟩ frame), h1]
            dsimp only
            have hactive : (driveRun ⟨e, []⟩ frame).2.self.active = e.active :=
              congrArg (fun c : Ctx => c.self.active) h2
            by_cases hacc : e.acceptsCandidate candidate
            · refine .of_view ?_ (.promoted hp hrun hs hacc)
              rw [view_completeRekey _ _ (by rwa [Engine.acceptsCandidate, hactive]), h2, ← view_self, h2]
              rfl
            · rw [completeRekey_of_not_accepts _ _ (by rwa [Engine.acceptsCandidate, hactive])]
              exact Does.failRekey e _ h2 rfl hp (.refused hrun hs hacc)
          · rw [← Prod.mk.eta (p := driveRun ⟨e, []⟩ frame), h1]
            exact .of_view h2 (.stepped (.inr hp) hrun hs)

theorem maybeTriggerRekey_begins (c : Ctx) : ∃ es e', Begins c.view.self es e' ∧
    c.maybeTriggerRekey.view = ⟨e', c.view.out ++ es⟩ := by
  rw [maybeTriggerRekey]
  split
  next => exact beginRekey_begins c
  next => exact ⟨[], _, .skipped, by simp⟩

theorem onSend_does (content : List UInt8) :
    Does e (.localSend content) ((⟨e, []⟩ : Ctx).onSend content) := by
  have hrej : ∀ rejection, Does e (.localSend content)
      ((⟨e, []⟩ : Ctx).push (.notify (.sendRejected rejection))) := by
    intro rejection
    exact Does.noted e [.sendRejected rejection] e.lateRekeyFrames e.consecutiveRekeyRejections
      e.rekeyBlocked rfl rfl (by simpa using .sendRejected rejection) (by simp)
  rw [onSend]
  split
  next => exact hrej _
  next =>
      split
      next => exact hrej _
      next active ha =>
          obtain ⟨hp, ha⟩ : e.phase = .established ∧ e.active = some active := by
            split at ha
            next h => exact ⟨h, ha⟩
            next => cases ha
          cases henc : active.sender.encrypt content with
          | mk result sender =>
              dsimp only
              split
              next frame =>
                  generalize hc : (((⟨e, []⟩ : Ctx).update fun self =>
                    { self with active := some { active with sender } }).push
                      (.send frame)).countMessage = c
                  have hview : c.view = ⟨{ e.timeless with
                      active := some { active with sender }
                      messages := min (e.messages + 1) u64Max }, [.send frame]⟩ := by
                    rw [← hc]
                    rfl
                  obtain ⟨es, e', hb, hv⟩ := maybeTriggerRekey_begins c
                  rw [hview] at hb hv
                  exact .of_view hv (.sent hp ha henc hb)
              next => exact .of_view rfl (.unsent hp ha henc)
              next =>
                  refine Does.terminate e _ _ rfl rfl ?_ (.none _) trivial
                  rw [Engine.activeSessionId, Engine.activeSessionId, ha]
                  rfl

theorem onData_does (hp : e.phase = .established) (frame : Frame) (ht : frame.messageType = .data) :
    Does e (.frameReceived frame) ((⟨e, []⟩ : Ctx).onData frame) := by
  have hmay : e.MayClose (.frameReceived frame) := .of_type (by simp [ht]) (by simp [ht])
  rw [onData]
  cases ha : e.active with
  | none => exact .refl e
  | some active =>
      dsimp only
      cases hdec : active.receiver.decrypt frame with
      | mk result receiver =>
          cases result with
          | ok content =>
              dsimp only
              generalize hc : (((⟨e, []⟩ : Ctx).update fun self =>
                { self with active := some { active with receiver } }).push
                  (.deliver content)).countMessage = c
              have hview : c.view = ⟨{ e.timeless with
                  active := some { active with receiver }
                  messages := min (e.messages + 1) u64Max }, [.deliver content]⟩ := by
                rw [← hc]
                rfl
              obtain ⟨es, e', hb, hv⟩ := maybeTriggerRekey_begins c
              rw [hview] at hb hv
              exact .of_view hv (.delivered hp ht ha hdec hb)
          | error error =>
              dsimp only
              have hid : ∀ d : Option Session,
                  ({ e.timeless with active := some { active with receiver }, draining := d } :
                    Engine).activeSessionId = e.activeSessionId := by
                intro d
                rw [Engine.activeSessionId, Engine.activeSessionId, ha]
                rfl
              cases hdrain : e.draining with
              | none =>
                  simp only [update, hdrain]
                  split
                  next => exact Does.terminate e _ _ rfl rfl (hid _) (.none _) hmay
                  next =>
                      refine .of_view ?_ (.rejected hp ht ha hdec (by simp [hdrain]))
                      rw [view_push _ _ rfl, hdrain]
                      simp only [view, push, Engine.timeless, hdrain]
                      rfl
              | some drainee =>
                  simp only [update, hdrain]
                  cases hdec' : drainee.receiver.decrypt frame with
                  | mk result receiver' =>
                      cases result with
                      | ok content => exact .of_view rfl (.drained hp ht ha hdec hdrain hdec')
                      | error error' =>
                          dsimp only [Except.toOption]
                          split
                          next => exact Does.terminate e _ _ rfl rfl (hid _) (.none _) hmay
                          next =>
                              refine .of_view ?_ (.rejected hp ht ha hdec ?_)
                              · rw [view_push _ _ rfl, hdrain]
                                simp only [Option.map_some, hdec']
                                rfl
                              · intro d hd
                                obtain rfl := Option.some.inj (hdrain.symm.trans hd)
                                exact ⟨error', by rw [hdec']⟩

theorem onFrame_does (hf : e.Fits) (frame : Frame) :
    Does e (.frameReceived frame) ((⟨e, []⟩ : Ctx).onFrame frame) := by
  rw [onFrame]
  cases hp : e.phase with
  | idle => exact .close e _ _ (.of_phase (by simp [hp]) _)
  | closed => exact .close e _ _ (.of_phase (by simp [hp]) _)
  | handshaking => exact onFrameHandshaking_does e hf hp frame
  | established =>
      dsimp only
      cases ht : frame.messageType with
      | data => exact onData_does e hp frame ht
      | close => exact onCloseFrame_does e frame ht
      | rekey => exact onRekeyFrame_does e hf hp frame
      | sessionConfirm => exact onRekeyFrame_does e hf hp frame
      | handshake => exact .close e _ _ (.of_type (by simp [ht]) (by simp [ht]))

theorem beginRekey_does {i : Input} {c : Ctx} (late : Nat) (blocked : Bool)
    (hi : i = .requestRekey ∨ e.Fires .rekeyDue i)
    (hv : c.view = ⟨{ e.timeless with lateRekeyFrames := late, rekeyBlocked := blocked }, []⟩) :
    Does e i c.beginRekey := by
  obtain ⟨es, e', hb, h⟩ := beginRekey_begins c
  rw [hv] at hb h
  exact .of_view h (.began hi hb)

theorem onTimeout_does (hf : e.Fits) (id : DeadlineId) :
    Does e (.timeout id) ((⟨e, []⟩ : Ctx).onTimeout id) := by
  rw [onTimeout]
  cases hfound : e.deadlines.find? (·.1 = id) with
  | none => exact .refl e
  | some deadline =>
      obtain ⟨d, kind⟩ := deadline
      dsimp only
      generalize hc : (⟨e, []⟩ : Ctx).update
        (fun self => { self with deadlines := self.deadlines.eraseP (·.1 = id) }) = c
      have hview : c.view = ⟨e.timeless, []⟩ := by rw [← hc]; rfl
      have hphase : c.self.phase = e.phase := by rw [← hc]; rfl
      have hrun : c.self.run = e.run := by rw [← hc]; rfl
      have hframe : e.Fires .handshakeFrame (.timeout id) ∨ e.Fires .handshakeTotal (.timeout id) →
          Does e (.timeout id)
          (if c.self.phase = .handshaking then c.terminate .timeout (some .resourceLimit)
            else if c.self.run.isSome then c.failRekey .transportTimeout else c) := by
        intro hk
        rw [hphase, hrun]
        split_ifs with h1 h2
        · exact Does.terminate e _ _ hview rfl rfl (.none _) (.of_phase (by simp [h1]) _)
        · obtain ⟨run, hr⟩ := Option.isSome_iff_exists.1 h2
          have hp : e.phase = .established := by
            obtain ⟨h, -⟩ | ⟨h, -⟩ := hf.run_purpose run hr
            · exact absurd h h1
            · exact h
          exact Does.failRekey e _ hview rfl hp (.timeout hk h2)
        · exact Does.noted e [] e.lateRekeyFrames e.consecutiveRekeyRejections e.rekeyBlocked
            (congrArg Ctx.self hview) (congrArg Ctx.out hview) (by simp) (by simp)
      cases kind with
      | handshakeFrame => exact hframe (.inl ⟨id, _, rfl, hfound, rfl⟩)
      | handshakeTotal => exact hframe (.inr ⟨id, _, rfl, hfound, rfl⟩)
      | sasDecision =>
          refine Does.terminate e _ _ hview rfl rfl (.none _) ?_
          intro _ deadline hd
          obtain rfl := Option.some.inj (hfound.symm.trans hd)
          rfl
      | rekeyDue =>
          refine beginRekey_does e 0 false (.inr ⟨id, _, rfl, hfound, rfl⟩) ?_
          rw [view_update _ _ (by intro; rfl), hview]
          rfl
      | drain =>
          refine .of_view ?_ (.ended (.inr ⟨id, _, rfl, hfound, rfl⟩))
          rw [view_update _ _ (by intro; rfl), hview]
          rfl

end Handling

end Ctx

/-- Every call of `handle` is a move. -/
theorem handle_moves {e : Engine} (hf : e.Fits) (i : Input) :
    Moves e i ((e.handle i).2.filter Effect.visible) (e.handle i).1.timeless := by
  rw [Engine.handle]
  by_cases hc : e.phase = .closed
  · rw [if_pos hc]
    exact Ctx.Does.refl e
  · rw [if_neg hc]
    cases i with
    | start => exact Ctx.start_does e _ rfl
    | frameReceived frame => exact Ctx.onFrame_does e hf frame
    | sasDecision approved => exact Ctx.onSas_does e approved
    | localSend content => exact Ctx.onSend_does e content
    | localClose reason => exact Ctx.Does.close e .localClose (some reason) trivial
    | requestRekey => exact Ctx.beginRekey_does e e.lateRekeyFrames e.rekeyBlocked (.inl rfl) rfl
    | timeout id => exact Ctx.onTimeout_does e hf id
    | transportClosed => exact Ctx.Does.close e .transportLost none trivial
    | malformed respond =>
        exact Ctx.Does.close e .protocolError (if respond then some .protocolError else none)
          trivial

end Ruxmsg

import Ruxmsg.Closing
import Ruxmsg.Forms
import Ruxmsg.Provenance

namespace Ruxmsg

open Library.Cbor Library.Machine

/-- The errors that an initial handshake reports to the peer as its protocol
error, with the same cause. -/
def ProtocolFault (error : Error) : Prop := initialFailure error = (.protocolError, .protocolError)

theorem ProtocolFault.of_malformed {error : Error} (h : Malformed error) : ProtocolFault error := by
  cases error with
  | signatureInvalid | confirmationInvalid | identityMismatch | sasRejected => cases h
  | _ => rfl

section Fields

variable {p : Error → Prop} (hinvalid : p .invalidHandshake) (hmalformed : ∀ error, Malformed error → p error)

include hinvalid in
theorem HandshakePurpose.tryFrom_faults (value : Nat) : FailsWith p (HandshakePurpose.tryFrom value) := by
  rw [HandshakePurpose.tryFrom.eq_def]
  split
  · exact .ok
  · exact .ok
  · exact .error hinvalid

include hinvalid in
theorem HelloRole.tryFrom_faults (value : Nat) : FailsWith p (HelloRole.tryFrom value) := by
  rw [HelloRole.tryFrom.eq_def]
  split
  · exact .ok
  · exact .ok
  · exact .error hinvalid

theorem uintValue_faults {invalid : Error} (h : p invalid) (value : Value) :
    FailsWith p (uintValue value invalid) := by
  cases value with
  | integer i => exact .okOr h
  | bytes | text | array | map => exact .error h

include hmalformed in
theorem arrayValue_faults (n : Nat) (value : Value) (kind : String) :
    FailsWith p (arrayValue n value kind) := by
  cases value with
  | bytes bs =>
      rw [arrayValue]
      cases Bytes.ofList? n bs with
      | some b => exact .ok
      | none => exact .error (hmalformed _ rfl)
  | integer | text | array | map => exact .error (hmalformed _ rfl)

theorem takeOptional_faults {α : Type} (fields : List (Option Value)) (index : Nat)
    {read : Value → Result α} (hread : ∀ value, FailsWith p (read value)) :
    FailsWith p (takeOptional fields index read) := by
  rw [takeOptional]
  split
  · exact .bind (hread _) fun _ => .ok
  · exact .ok

theorem fillFields_faults {invalid : Error} (h : p invalid) (fields : List (Option Value))
    (entries : List (Nat × Value)) : FailsWith p (fillFields invalid fields entries) := by
  induction entries generalizing fields with
  | nil => exact .ok
  | cons entry entries ih =>
      obtain ⟨key, value⟩ := entry
      rw [fillFields]
      split
      · exact ih _
      · exact .error h

variable [Ciborium]

include hmalformed in
theorem validateCborMap_faults (frame : Frame) : FailsWith p frame.validateCborMap := by
  intro error h
  exact hmalformed error (validateCborMapPayload_fails frame.payload error h)

include hinvalid hmalformed

theorem HelloPayload.decode_faults (hversion : ∀ version, p (.unsupportedVersion version)) (frame : Frame) :
    FailsWith p (HelloPayload.decode frame) := by
  rw [HelloPayload.decode.eq_def]
  dsimp only
  refine .bind (.ensure hinvalid) fun _ => .bind (validateCborMap_faults hmalformed frame) fun entries =>
    .bind (.ensure hinvalid) fun _ => .bind (fillFields_faults hinvalid _ entries) fun fields => ?_
  refine .bind (.okOr hinvalid) fun v => .bind (uintValue_faults hinvalid v) fun version =>
    .bind (.ensure (hversion version)) fun _ => ?_
  refine .bind (.okOr hinvalid) fun v => .bind (uintValue_faults hinvalid v) fun suite =>
    .bind (.ensure hinvalid) fun _ => ?_
  refine .bind (.okOr hinvalid) fun v => .bind (uintValue_faults hinvalid v) fun n =>
    .bind (HandshakePurpose.tryFrom_faults hinvalid n) fun purpose => ?_
  refine .bind (.okOr hinvalid) fun v => .bind (uintValue_faults hinvalid v) fun n =>
    .bind (HelloRole.tryFrom_faults hinvalid n) fun role => ?_
  refine .bind (.okOr hinvalid) fun v => .bind (arrayValue_faults hmalformed 32 v _) fun identity => ?_
  refine .bind (.okOr hinvalid) fun v => .bind (arrayValue_faults hmalformed 32 v _) fun ephemeral => ?_
  refine .bind (.okOr hinvalid) fun v => .bind (arrayValue_faults hmalformed 16 v _) fun nonce => ?_
  refine .bind (takeOptional_faults fields 7 fun v => arrayValue_faults hmalformed 16 v _) fun previous => ?_
  exact .bind (.ensure hinvalid) fun _ => .bind (.ensure hinvalid) fun _ => .ok

theorem CommitPayload.decode_faults (hversion : ∀ version, p (.unsupportedVersion version)) (frame : Frame) :
    FailsWith p (CommitPayload.decode frame) := by
  rw [CommitPayload.decode.eq_def]
  dsimp only
  refine .bind (.ensure hinvalid) fun _ => .bind (validateCborMap_faults hmalformed frame) fun entries =>
    .bind (.ensure hinvalid) fun _ => .bind (fillFields_faults hinvalid _ entries) fun fields => ?_
  refine .bind (.okOr hinvalid) fun v => .bind (uintValue_faults hinvalid v) fun version =>
    .bind (.ensure (hversion version)) fun _ => ?_
  refine .bind (.okOr hinvalid) fun v => .bind (uintValue_faults hinvalid v) fun suite =>
    .bind (.ensure hinvalid) fun _ => ?_
  refine .bind (.okOr hinvalid) fun v => .bind (uintValue_faults hinvalid v) fun n =>
    .bind (HandshakePurpose.tryFrom_faults hinvalid n) fun purpose => ?_
  refine .bind (.okOr hinvalid) fun v => .bind (arrayValue_faults hmalformed 32 v _) fun commitment => ?_
  refine .bind (takeOptional_faults fields 4 fun v => arrayValue_faults hmalformed 16 v _) fun previous => ?_
  exact .bind (.ensure hinvalid) fun _ => .bind (.ensure hinvalid) fun _ => .ok

/-- No frame that is not an AUTH payload puts the blame on the identity of the
peer. -/
theorem HandshakePayload.decode_faults (frame : Frame) : FailsWith p (HandshakePayload.decode frame) := by
  have harray (n : Nat) (fields : List (Option Value)) (index : Nat) (kind : String) :
      FailsWith p (takeOptional fields index (arrayValue n · kind)) :=
    takeOptional_faults fields index fun value => arrayValue_faults hmalformed n value kind
  rw [HandshakePayload.decode.eq_def]
  dsimp only
  refine .bind (.ensure hinvalid) fun _ => .bind (validateCborMap_faults hmalformed frame) fun entries =>
    .bind (fillFields_faults hinvalid _ entries) fun fields => ?_
  refine .bind (.okOr hinvalid) fun v => .bind (uintValue_faults hinvalid v) fun n =>
    .bind (HandshakePurpose.tryFrom_faults hinvalid n) fun purpose => ?_
  refine .bind (.okOr hinvalid) fun v => .bind (uintValue_faults hinvalid v) fun stage =>
    .bind (.ensure hinvalid) fun _ => ?_
  refine .bind (.okOr hinvalid) fun v => .bind (uintValue_faults hinvalid v) fun suite =>
    .bind (.ensure hinvalid) fun _ => ?_
  refine .bind (.okOr hinvalid) fun v => .bind (arrayValue_faults hmalformed 32 v _) fun initiatorIdentity => ?_
  refine .bind (.okOr hinvalid) fun v => .bind (arrayValue_faults hmalformed 32 v _) fun responderIdentity => ?_
  refine .bind (.okOr hinvalid) fun v => .bind (arrayValue_faults hmalformed 32 v _) fun initiatorEphemeral => ?_
  refine .bind (.okOr hinvalid) fun v => .bind (arrayValue_faults hmalformed 32 v _) fun responderEphemeral => ?_
  refine .bind (.okOr hinvalid) fun v => .bind (arrayValue_faults hmalformed 16 v _) fun initiatorNonce => ?_
  refine .bind (.okOr hinvalid) fun v => .bind (arrayValue_faults hmalformed 16 v _) fun responderNonce => ?_
  refine .bind (harray 16 fields 9 _) fun previous => ?_
  refine .bind (.okOr hinvalid) fun v => .bind (arrayValue_faults hmalformed 64 v _) fun signature => ?_
  refine .bind (harray 64 fields 11 _) fun response => ?_
  exact .bind (.ensure hinvalid) fun _ => .bind (.ensure hinvalid) fun _ => .bind (.ensure hinvalid) fun _ => .ok

theorem SessionConfirmPayload.decode_faults (hconfirmation : p .confirmationInvalid) (frame : Frame) :
    FailsWith p (SessionConfirmPayload.decode frame) := by
  rw [SessionConfirmPayload.decode.eq_def]
  dsimp only
  refine .bind (.ensure hconfirmation) fun _ => .bind (validateCborMap_faults hmalformed frame) fun entries =>
    .bind (.ensure hconfirmation) fun _ => .bind (fillFields_faults hconfirmation _ entries) fun fields => ?_
  refine .bind (.okOr hconfirmation) fun v => .bind (arrayValue_faults hmalformed 16 v _) fun sessionId => ?_
  refine .bind (.okOr hconfirmation) fun v => .bind (uintValue_faults hinvalid v) fun n => ?_
  refine .bind ?_ fun role => ?_
  · cases HelloRole.tryFrom n with
    | ok role => exact .ok
    | error error => exact .error hconfirmation
  · exact .bind (.okOr hconfirmation) fun v => .bind (arrayValue_faults hmalformed 32 v _) fun confirmation => .ok

end Fields

section Answering

variable [Ciborium] [Primitives]

def Run.answer (run : Run) (identity : IdentityKeypair) (frame : Frame) :
    Result (SessionKeys × Frame) := do
  let auth ← HandshakePayload.decode frame
  ensure (auth.stage = 0 ∧ auth.responderSignature.isNone) .invalidHandshake
  let (keys, hash) ← Ctx.verifyAuth run auth
  let transcript ← okOr run.transcript .invalidStateTransition
  let response := transcript.handshakePayload 1 auth.initiatorSignature
    (some (identity.signTranscript hash false))
  return (keys, ← response.encode)

theorem Ctx.stepAuthInit_eq (c : Ctx) (run : Run) (frame : Frame) :
    c.stepAuthInit run frame =
      match run.answer c.self.identity frame with
      | .error error => (.error error, c)
      | .ok (keys, response) =>
          (.ok ({ run with keys := some keys, step := .confirmInit }, none),
            (c.push (.send response)).rearmFrameDeadline run.purpose .confirmInit) := rfl

/-- The AUTH of an initial handshake only comes in a frame of its own type. -/
theorem Run.answer_mistyped (run : Run) {frame : Frame} (identity : IdentityKeypair)
    (htranscript : ∀ transcript, run.transcript = some transcript → transcript.purpose = .initial)
    (htype : frame.messageType ≠ .handshake) :
    ∃ error, run.answer identity frame = .error error ∧ ProtocolFault error := by
  rw [Run.answer]
  cases hd : HandshakePayload.decode frame with
  | error error => exact ⟨error, rfl, HandshakePayload.decode_faults (p := ProtocolFault) rfl (fun _ => .of_malformed) frame error hd⟩
  | ok auth =>
      obtain ⟨-, -, -, hcarries⟩ := HandshakePayload.carries_of_decode hd
      have hpurpose : auth.purpose ≠ .initial := by
        intro hpurpose
        rw [hpurpose] at hcarries
        exact htype hcarries.1
      rw [ok_bind]
      by_cases hstage : auth.stage = 0 ∧ auth.responderSignature.isNone
      · rw [ensure_of hstage, ok_bind, Ctx.verifyAuth]
        cases ht : run.transcript with
        | none => exact ⟨_, rfl, rfl⟩
        | some transcript =>
            cases hs : run.shared with
            | none => exact ⟨_, rfl, rfl⟩
            | some shared =>
                have hother : auth.transcript ≠ transcript := by
                  rintro rfl
                  exact hpurpose (htranscript _ ht)
                rw [okOr_some, ok_bind, okOr_some, ok_bind, verifyHandshakeForRole, ensure_of rfl, ok_bind,
                  ensure_of_not hother]
                exact ⟨_, rfl, rfl⟩
      · rw [ensure_of_not hstage]
        exact ⟨_, rfl, rfl⟩

/-- The approval of a responder, for which a buffered AUTH is the next frame. -/
theorem Ctx.afterApproval_responder (c : Ctx) (run : Run) (hrole : run.role = .responder) :
    c.afterApproval run =
      if run.hash.isSome ∧ run.transcript.isSome then
        match run.early with
        | some early => c.stepAuthInit { run with step := .authInit, early := none } early
        | none => (.ok ({ run with step := .authInit }, none), c.rearmFrameDeadline run.purpose .authInit)
      else (.error .invalidStateTransition, c) := by
  rw [Ctx.afterApproval]
  cases run.hash with
  | none => rfl
  | some hash =>
      cases run.transcript with
      | none => rfl
      | some transcript =>
          dsimp only [okOr_some, ok_bind]
          rw [if_pos ⟨rfl, rfl⟩, hrole]
          rfl

end Answering

section Handling

variable [Ciborium] [Primitives]

/-- What becomes of an initial run once it has been stepped or approved. -/
def Ctx.settle : Ctx.Stepped × Ctx → Ctx
  | (.error error, c) => c.failInitial error
  | (.ok (_, some candidate), c) => c.completeInitial candidate
  | (.ok (run, none), c) => c.update fun self => { self with run := some run }

def Engine.stepping (e : Engine) : Ctx := ⟨{ e with run := none }, []⟩

def Engine.approving (e : Engine) : Ctx :=
  ((⟨e, []⟩ : Ctx).cancel .sasDecision).update fun self => { self with run := none }

variable {e : Engine} {run : Run} {frame : Frame}

theorem handle_stepped (hphase : e.phase = .handshaking) (hrun : e.run = some run)
    (htype : frame.messageType ≠ .close) : e.handle (.frameReceived frame) =
      ((Ctx.settle (e.stepping.stepRun run frame)).self, (Ctx.settle (e.stepping.stepRun run frame)).out) := by
  have hopen : e.phase ≠ .closed := by
    rw [hphase]
    decide
  have hdrive : (⟨e, []⟩ : Ctx).onFrame frame = Ctx.settle (e.stepping.stepRun run frame) := by
    rw [Ctx.onFrame]
    dsimp only
    rw [hphase]
    dsimp only
    rw [Ctx.onFrameHandshaking, if_neg htype]
    dsimp only
    rw [hrun, if_neg (by simp), Ctx.driveRun]
    dsimp only
    rw [hrun]
    dsimp only [Ctx.update]
    change _ = Ctx.settle (Ctx.stepRun ⟨{ e with run := none }, []⟩ run frame)
    generalize Ctx.stepRun ⟨{ e with run := none }, []⟩ run frame = result
    obtain ⟨_ | ⟨run', _ | candidate⟩, c⟩ := result <;> rfl
  rw [Engine.handle, if_neg hopen]
  dsimp only
  rw [hdrive]

theorem handle_approved (hphase : e.phase = .handshaking) (hrun : e.run = some run)
    (hstep : run.step = .sas) : e.handle (.sasDecision true) =
      ((Ctx.settle (e.approving.afterApproval run)).self,
        (Ctx.settle (e.approving.afterApproval run)).out) := by
  have hopen : e.phase ≠ .closed := by
    rw [hphase]
    decide
  have happrove : (⟨e, []⟩ : Ctx).onSas true = Ctx.settle (e.approving.afterApproval run) := by
    rw [Ctx.onSas]
    dsimp only
    rw [hrun]
    dsimp only
    rw [if_neg (by simp [hphase, hstep]), if_neg (by simp)]
    change _ = Ctx.settle (Ctx.afterApproval (((⟨e, []⟩ : Ctx).cancel .sasDecision).update
      fun self => { self with run := none }) run)
    generalize Ctx.afterApproval (((⟨e, []⟩ : Ctx).cancel .sasDecision).update
      fun self => { self with run := none }) run = result
    obtain ⟨_ | ⟨run', _ | candidate⟩, c⟩ := result <;> rfl
  rw [Engine.handle, if_neg hopen]
  dsimp only
  rw [happrove]

end Handling

def Engine.cleared (self : Engine) : Engine := { self with run := none, deadlines := [] }

def Ctx.shown (c : Ctx) : Engine × List Effect := (c.self, c.out.filter Effect.visible)

/-- Contexts that differ in the run, in the deadlines and in timer requests. -/
structure Ctx.Alike (c d : Ctx) : Prop where
  engine : c.self.cleared = d.self.cleared
  effects : c.out.filter Effect.visible = d.out.filter Effect.visible

theorem Ctx.self_arm_congr {c d : Ctx} (h : c.self = d.self) (kind : DeadlineKind) (after : Nat) :
    (c.arm kind after).self = (d.arm kind after).self := by
  unfold arm cancel
  dsimp only
  rw [h]

theorem Ctx.self_cancel_cancel (c : Ctx) (kind : DeadlineKind) :
    ((c.cancel kind).cancel kind).self = (c.cancel kind).self := by
  simp [cancel]

/-- Rearming cancels first, so that an earlier cancellation makes no
difference. -/
theorem Ctx.self_rearmFrameDeadline {c d : Ctx} (h : d.self = (c.cancel .handshakeFrame).self)
    (purpose : HandshakePurpose) (step : Step) :
    (d.rearmFrameDeadline purpose step).self = (c.rearmFrameDeadline purpose step).self := by
  have hcancel : (d.cancel .handshakeFrame).self = (c.cancel .handshakeFrame).self := by
    rw [← self_cancel_cancel c]
    unfold cancel at h ⊢
    dsimp only at h ⊢
    rw [h]
  unfold rearmFrameDeadline
  dsimp only
  split
  · exact self_arm_congr hcancel _ _
  · split_ifs
    · exact self_arm_congr hcancel _ _
    · exact hcancel

section Showing

variable [Ciborium]

theorem Ctx.Alike.failInitial {c d : Ctx} (h : c.Alike d) {error error' : Error}
    (herror : initialFailure error = initialFailure error') :
    (c.failInitial error).shown = (d.failInitial error').shown := by
  have hactive : c.self.activeSessionId = d.self.activeSessionId := by
    change c.self.cleared.activeSessionId = d.self.cleared.activeSessionId
    rw [h.engine]
  have hterminate (c : Ctx) (cause : CloseCause) (reason : CloseReason) :
      (c.terminate cause (some reason)).shown =
        (c.self.cleared.ended, c.out.filter Effect.visible ++ c.self.closing cause (some reason)) :=
    Prod.ext (terminate_self c cause (some reason))
      (congrArg Ctx.out (view_terminate c cause (some reason)))
  have hclosing (cause : CloseCause) (reason : CloseReason) :
      c.self.closing cause (some reason) = d.self.closing cause (some reason) := by
    rw [Engine.closing, Engine.closing, hactive]
  rw [Ctx.failInitial, Ctx.failInitial, ← herror]
  rw [hterminate, hterminate, h.engine, h.effects, hclosing]

variable [Primitives]

/-- Where inputs lead, and the frames, requests and events on the way. -/
def Engine.shows (e : Engine) (inputs : List Input) : Engine × List Effect :=
  (final Engine.handle e inputs,
    ((trace Engine.handle e inputs).flatMap Record.out).filter Effect.visible)

variable {e : Engine}

/-- The second of two inputs decides what both come to, when the first shows
nothing. -/
theorem Engine.shows_second {i j : Input} {c : Ctx} (hfirst : (e.handle i).2.filter Effect.visible = [])
    (hsecond : (e.handle i).1.handle j = (c.self, c.out)) : e.shows [i, j] = c.shown := by
  have hout : (trace Engine.handle e [i, j]).flatMap Record.out =
      (e.handle i).2 ++ ((e.handle i).1.handle j).2 := by
    simp [trace]
  rw [Engine.shows, hout, List.filter_append, hfirst, hsecond]
  rw [final_cons, final_cons, hsecond]
  rfl

theorem Engine.shows_first {i j : Input} {c : Ctx} (hfirst : e.handle i = (c.self, c.out))
    (hclosed : c.self.phase = .closed) : e.shows [i, j] = c.shown := by
  have hout : (trace Engine.handle e [i, j]).flatMap Record.out =
      (e.handle i).2 ++ ((e.handle i).1.handle j).2 := by
    simp [trace]
  have hsecond : (e.handle i).1.handle j = ((e.handle i).1, []) := by
    rw [hfirst]
    exact handle_closed hclosed j
  rw [Engine.shows, hout, final_cons, final_cons, hsecond, hfirst, List.append_nil]
  rfl

end Showing

section Orders

variable [Ciborium] [Primitives] {e : Engine} {run : Run} {frame : Frame}

def Engine.approved (e : Engine) : Ctx := ⟨(e.approving.cancel .handshakeFrame).self, []⟩

omit [Ciborium] [Primitives] in
theorem Engine.approving_out (e : Engine) : e.approving.out.filter Effect.visible = [] :=
  Ctx.filter_cancelDeadline _

omit [Ciborium] [Primitives] in
theorem Engine.stepping_alike (e : Engine) : e.stepping.Alike e.approving :=
  ⟨rfl, e.approving_out.symm⟩

omit [Ciborium] [Primitives] in
theorem Engine.approved_alike (e : Engine) : e.approved.Alike e.approving :=
  ⟨rfl, e.approving_out.symm⟩

theorem shows_buffered (hphase : e.phase = .handshaking) (hrun : e.run = some run)
    (hrole : run.role = .responder) (hstep : run.step = .sas) (hearly : run.early = none)
    (htype : frame.messageType = .handshake) :
    e.shows [.frameReceived frame, .sasDecision true] =
      (Ctx.settle (e.approving.afterApproval { run with early := some frame })).shown := by
  have hsas : e.stepping.stepRun run frame = (.ok ({ run with early := some frame }, none), e.stepping) := by
    rw [Ctx.stepRun, hstep]
    dsimp only
    rw [Ctx.stepSas, if_pos ⟨hrole, by rw [hearly]; rfl, htype⟩, hstep]
  have hfirst : e.handle (.frameReceived frame) =
      ({ e with run := some { run with early := some frame } }, []) := by
    rw [handle_stepped hphase hrun (by simp [htype]), hsas]
    rfl
  apply Engine.shows_second
  · rw [hfirst]
    rfl
  · rw [hfirst]
    exact handle_approved hphase rfl hstep

theorem shows_unbuffered (hphase : e.phase = .handshaking) (hrun : e.run = some run)
    (hstep : run.step = .sas) (hclose : frame.messageType ≠ .close)
    (htype : frame.messageType ≠ .handshake) (j : Input) :
    e.shows [.frameReceived frame, j] = (e.stepping.failInitial .invalidStateTransition).shown := by
  have hsas : e.stepping.stepRun run frame = (.error .invalidStateTransition, e.stepping) := by
    rw [Ctx.stepRun, hstep]
    dsimp only
    rw [Ctx.stepSas, if_neg fun h => htype h.2.2]
  apply Engine.shows_first
  · rw [handle_stepped hphase hrun hclose, hsas]
    rfl
  · rw [Ctx.failInitial, Ctx.terminate_self]

theorem shows_unsettled (hphase : e.phase = .handshaking) (hrun : e.run = some run)
    (hrole : run.role = .responder) (hstep : run.step = .sas)
    (hsettled : ¬ (run.hash.isSome ∧ run.transcript.isSome)) (j : Input) :
    e.shows [.sasDecision true, j] = (e.approving.failInitial .invalidStateTransition).shown := by
  apply Engine.shows_first
  · rw [handle_approved hphase hrun hstep, Ctx.afterApproval_responder _ _ hrole, if_neg hsettled]
    rfl
  · rw [Ctx.failInitial, Ctx.terminate_self]

theorem shows_awaited (hphase : e.phase = .handshaking) (hrun : e.run = some run)
    (hrole : run.role = .responder) (hpurpose : run.purpose = .initial) (hstep : run.step = .sas)
    (hearly : run.early = none) (hsettled : run.hash.isSome ∧ run.transcript.isSome)
    (hclose : frame.messageType ≠ .close) :
    e.shows [.sasDecision true, .frameReceived frame] =
      (Ctx.settle (e.approved.stepAuthInit { run with step := .authInit } frame)).shown := by
  have happroval : e.approving.afterApproval run =
      (.ok ({ run with step := .authInit }, none), e.approving.cancel .handshakeFrame) := by
    rw [Ctx.afterApproval_responder _ _ hrole, if_pos hsettled, hearly, hpurpose]
    rfl
  have hfirst : e.handle (.sasDecision true) =
      ({ e.approved.self with run := some { run with step := .authInit } },
        (e.approving.cancel .handshakeFrame).out) := by
    rw [handle_approved hphase hrun hstep, happroval]
    rfl
  apply Engine.shows_second
  · rw [hfirst]
    exact (congrArg Ctx.out (Ctx.view_cancel e.approving .handshakeFrame)).trans e.approving_out
  · rw [hfirst]
    exact handle_stepped (e := { e.approved.self with run := some { run with step := .authInit } })
      hphase rfl hclose

theorem settle_stepAuthInit :
    (Ctx.settle (e.approving.stepAuthInit run frame)).shown =
      (Ctx.settle (e.approved.stepAuthInit run frame)).shown := by
  have hidentity : e.approved.self.identity = e.approving.self.identity := rfl
  rw [Ctx.stepAuthInit_eq, Ctx.stepAuthInit_eq, hidentity]
  cases run.answer e.approving.self.identity frame with
  | error error => exact (e.approved_alike.failInitial rfl).symm
  | ok answered =>
      obtain ⟨keys, response⟩ := answered
      have hvisible {c : Ctx} (hc : c.out.filter Effect.visible = []) :
          ((c.push (.send response)).rearmFrameDeadline run.purpose .confirmInit).out.filter
            Effect.visible = [.send response] := by
        have hview := congrArg Ctx.out (Ctx.view_rearmFrameDeadline (c.push (.send response))
          run.purpose .confirmInit)
        rw [Ctx.view_push c _ rfl] at hview
        exact hview.trans (congrArg (· ++ [Effect.send response]) hc)
      have hself : ((e.approved.push (.send response)).rearmFrameDeadline run.purpose .confirmInit).self =
          ((e.approving.push (.send response)).rearmFrameDeadline run.purpose .confirmInit).self := by
        apply Ctx.self_rearmFrameDeadline
        rfl
      apply Prod.ext
      · exact congrArg (fun self : Engine =>
          { self with run := some { run with keys := some keys, step := .confirmInit } }) hself.symm
      · exact (hvisible e.approving_out).trans (hvisible rfl).symm

/-- The two orders of an approval and a frame, for any engine in the posture of
a responder before its approval. -/
theorem approval_commutes (hphase : e.phase = .handshaking) (hrun : e.run = some run)
    (hrole : run.role = .responder) (hpurpose : run.purpose = .initial) (hstep : run.step = .sas)
    (hearly : run.early = none) (hclose : frame.messageType ≠ .close)
    (htranscript : ∀ transcript, run.transcript = some transcript → transcript.purpose = .initial) :
    e.shows [.frameReceived frame, .sasDecision true] =
      e.shows [.sasDecision true, .frameReceived frame] := by
  by_cases htype : frame.messageType = .handshake
  · rw [shows_buffered hphase hrun hrole hstep hearly htype]
    by_cases hsettled : run.hash.isSome ∧ run.transcript.isSome
    · rw [shows_awaited hphase hrun hrole hpurpose hstep hearly hsettled hclose,
        ← settle_stepAuthInit, Ctx.afterApproval_responder _ { run with early := some frame } hrole,
        if_pos hsettled]
      dsimp only
      rw [hearly]
    · rw [shows_unsettled hphase hrun hrole hstep hsettled,
        Ctx.afterApproval_responder _ { run with early := some frame } hrole, if_neg hsettled]
      rfl
  · rw [shows_unbuffered hphase hrun hstep hclose htype]
    by_cases hsettled : run.hash.isSome ∧ run.transcript.isSome
    · rw [shows_awaited hphase hrun hrole hpurpose hstep hearly hsettled hclose,
        ← settle_stepAuthInit, Ctx.stepAuthInit_eq]
      obtain ⟨error, hanswer, hfault⟩ := Run.answer_mistyped { run with step := .authInit }
        e.approving.self.identity htranscript htype
      rw [hanswer]
      exact e.stepping_alike.failInitial hfault.symm
    · rw [shows_unsettled hphase hrun hrole hstep hsettled]
      exact e.stepping_alike.failInitial rfl

end Orders

section Reachable

variable [Ciborium] [Primitives]

omit [Ciborium] [Primitives] in
theorem Run.transcriptWith_purpose {run : Run} {remote : HelloPayload} {transcript : Transcript}
    (h : run.transcriptWith remote = .ok transcript) : transcript.purpose = run.localHello.purpose := by
  unfold Run.transcriptWith transcriptFromHellos at h
  split at h
  all_goals
    split at h
    next => cases h
    next hsame =>
      simp only [not_or, not_not, ne_eq] at hsame
      cases h
      first | rfl | exact hsame.2.2.2.1

theorem reachable_transcript (role : HelloRole) (identity : IdentityKeypair) (entropy : Entropy)
    (limit : Nat) (inputs : List Input) {run : Run} {transcript : Transcript}
    (hrun : (final Engine.handle (Engine.configured role identity entropy limit) inputs).run = some run)
    (htranscript : run.transcript = some transcript) : transcript.purpose = run.purpose := by
  obtain ⟨before, first, during, -, hevidence⟩ :=
    reachable_evident role identity entropy limit inputs run hrun
  have hsound := (reachable_pinned role identity entropy limit inputs).run_sound run hrun
  have hheard : run.step ≠ .hello ∧ run.step ≠ .reveal := by
    constructor
    · intro hs
      cases (hevidence.unheard (.inl hs)).1.symm.trans htranscript
    · intro hs
      cases (hevidence.unheard (.inr hs)).1.symm.trans htranscript
  obtain ⟨remote, t, hash, shared, h⟩ := hevidence.heard hheard.1 hheard.2
  obtain rfl := Option.some.inj (h.transcript_eq.symm.trans htranscript)
  exact (Run.transcriptWith_purpose h.agrees.transcript_eq).trans hsound.purpose

/-- An AUTH that comes before the approval of the responder and one that comes
after it, and any other frame but a CLOSE, leave the engine in the same state,
deadlines included, after the same frames and events. -/
theorem early_auth_commutes (role : HelloRole) (identity : IdentityKeypair) (entropy : Entropy)
    (limit : Nat) (inputs : List Input) (run : Run) (frame : Frame)
    (hrun : (final Engine.handle (Engine.configured role identity entropy limit) inputs).run = some run)
    (hrole : run.role = .responder) (hpurpose : run.purpose = .initial) (hstep : run.step = .sas)
    (hearly : run.early = none) (hclose : frame.messageType ≠ .close) :
    let e := final Engine.handle (Engine.configured role identity entropy limit) inputs
    e.shows [.frameReceived frame, .sasDecision true] =
      e.shows [.sasDecision true, .frameReceived frame] := by
  intro e
  have hphase : e.phase = .handshaking := by
    obtain ⟨hphase, -⟩ | ⟨-, hrekey⟩ :=
      (reachable_fits role identity entropy limit inputs).run_purpose run hrun
    · exact hphase
    · cases hpurpose.symm.trans hrekey
  apply approval_commutes hphase hrun hrole hpurpose hstep hearly hclose
  intro transcript htranscript
  rw [reachable_transcript role identity entropy limit inputs hrun htranscript, hpurpose]

end Reachable

open Sample in
/-- The AUTH of the dialing side may come before the answering side approves: it
is answered all the same. -/
theorem early_auth_commutes_sample :
    let e := final Engine.handle answerer (handshake.rightInputs.take 3)
    let auth := handshake.rightInputs.getD 4 .start
    e.shows [auth, .sasDecision true] = e.shows [.sasDecision true, auth] ∧
      frames (e.shows [auth, .sasDecision true]).2 ≠ [] := by
  intro e auth
  obtain ⟨hposture, hauth, hanswer⟩ : (e.run.any fun run =>
        run.role = .responder ∧ run.purpose = .initial ∧ run.step = .sas ∧ run.early.isNone) = true ∧
      ((received auth).any fun frame => frame.messageType = .handshake) = true ∧
      frames (e.shows [.sasDecision true, auth]).2 ≠ [] := by
    decide +kernel
  obtain ⟨run, hrun, h⟩ := (Option.any_eq_true _ _).1 hposture
  obtain ⟨hrole, hpurpose, hstep, hearly⟩ := of_decide_eq_true h
  obtain ⟨frame, hreceived, htype⟩ := (Option.any_eq_true _ _).1 hauth
  have hclose : frame.messageType ≠ .close := by
    rw [of_decide_eq_true htype]
    decide
  have hsame : e.shows [auth, .sasDecision true] = e.shows [.sasDecision true, auth] := by
    rw [received_eq_some hreceived]
    exact early_auth_commutes .responder rightIdentity (entropy 200) rekeyMessageLimit
      (handshake.rightInputs.take 3) run frame hrun hrole hpurpose hstep (Option.isNone_iff_eq_none.1 hearly) hclose
  refine ⟨hsame, ?_⟩
  rw [hsame]
  exact hanswer

end Ruxmsg

import Ruxmsg.Timers

namespace Ruxmsg

namespace Ctx

/-- A bound on the effects of a step, by whether it failed. -/
def spent {α : Type} (error ok : Nat) : Result α → Nat
  | .error _ => error
  | .ok _ => ok

theorem Path.free {n : Nat} {c : Ctx} : Path n c c :=
  .weaken (Nat.zero_le n) (.refl c)

theorem rearmFrameDeadline_path (c : Ctx) (purpose : HandshakePurpose) (step : Step) :
    Path 3 c (c.rearmFrameDeadline purpose step) := by
  rw [rearmFrameDeadline.eq_def]
  dsimp only
  split
  · exact .arm _ _ (.cancel _ (.refl c))
  · split_ifs
    · exact .arm _ _ (.cancel _ (.refl c))
    · exact .weaken (by decide) (.cancel _ (.refl c))

theorem failRekey_path (c : Ctx) (error : Error) : Path 5 c (c.failRekey error) := by
  rw [failRekey]
  refine .push _ trivial (.arm _ _ (.update _ ?_ (.cancel _ (.cancel _ (.update _ ?_ (.refl c))))))
  · exact fun _ => ⟨rfl, rfl, id⟩
  · exact fun _ => ⟨rfl, rfl, id⟩

theorem noteRekeyRejection_path (c : Ctx) : Path 1 c c.noteRekeyRejection := by
  rw [noteRekeyRejection]
  split_ifs
  · dsimp only
    split_ifs
    · exact .push _ trivial (.update _ (fun _ => ⟨rfl, rfl, id⟩) (.refl c))
    · exact .weaken (by decide) (.update _ (fun _ => ⟨rfl, rfl, id⟩) (.refl c))
  · exact .weaken (by decide) (.refl c)

theorem completeInitial_path (c : Ctx) (candidate : Candidate) : Path 6 c (c.completeInitial candidate) := by
  rw [completeInitial]
  refine .push _ trivial (.arm _ _ (.update _ ?_ (.cancel _ (.cancel _ (.cancel _ (.refl c))))))
  exact fun _ => ⟨rfl, rfl, fun _ => (by decide : Phase.established ≠ .closed)⟩

theorem completeRekey_path (c : Ctx) (candidate : Candidate) : Path 7 c (c.completeRekey candidate) := by
  rw [completeRekey]
  dsimp only
  by_cases hvalid : c.self.active.any fun active =>
      active.peer = candidate.peer ∧ active.id ≠ candidate.keys.sessionId
  · rw [if_neg (not_not.2 hvalid)]
    refine .push _ trivial (.update _ ?_ (.arm _ _ (.arm _ _ (.update _ ?_
      (.cancel _ (.cancel _ (.refl c)))))))
    · exact fun _ => ⟨rfl, rfl, id⟩
    · exact fun _ => ⟨rfl, rfl, id⟩
  · rw [if_pos hvalid]
    exact .weaken (by decide : 5 ≤ 7) (failRekey_path c _)

variable [Primitives]

theorem freshKeys_path (c : Ctx) : Path 0 c c.freshKeys.2 := by
  rw [freshKeys, Entropy.fill]
  dsimp only
  refine .update _ ?_ (.refl c)
  exact fun _ => ⟨rfl, rfl, id⟩

variable [Ciborium]

theorem startInitiatorRun_path (c : Ctx) (purpose : HandshakePurpose) (previous : Option SessionId) :
    Path 1 c (c.startInitiatorRun purpose previous).2 := by
  have hfresh := freshKeys_path c
  rw [startInitiatorRun]
  generalize c.freshKeys = drawn at hfresh
  obtain ⟨⟨ephemeral, nonce⟩, d⟩ := drawn
  dsimp only at hfresh ⊢
  split
  · exact .weaken (by decide) hfresh
  · split
    · exact .weaken (by decide) hfresh
    · dsimp only
      refine .update _ ?_ (.push _ ?_ hfresh)
      · exact fun _ => ⟨rfl, rfl, id⟩
      · trivial

theorem startResponderRun_path (c : Ctx) (commit : CommitPayload) (emitRekeyStarted : Bool) :
    Path (spent 0 7 (c.startResponderRun commit emitRekeyStarted).1) c
      (c.startResponderRun commit emitRekeyStarted).2 := by
  have hfresh := freshKeys_path c
  rw [startResponderRun]
  generalize c.freshKeys = drawn at hfresh
  obtain ⟨⟨ephemeral, nonce⟩, d⟩ := drawn
  dsimp only at hfresh ⊢
  split
  · exact hfresh
  next frame _ =>
      have hsend : Path 1 c (d.push (.send frame)) := .push _ trivial hfresh
      dsimp only
      split_ifs
      · refine Path.trans (n := 4) (m := 3) (.push _ ?_ (.arm _ _ (.update _ ?_ hsend)))
          (rearmFrameDeadline_path _ _ _)
        · trivial
        · exact fun _ => ⟨rfl, rfl, id⟩
      · refine .weaken (Nat.le_succ 6) (Path.trans (n := 3) (m := 3) (.arm _ _ (.update _ ?_ hsend))
          (rearmFrameDeadline_path _ _ _))
        exact fun _ => ⟨rfl, rfl, id⟩
      · refine .weaken (by decide : 4 ≤ 7) (Path.trans (n := 1) (m := 3) (.update _ ?_ hsend)
          (rearmFrameDeadline_path _ _ _))
        exact fun _ => ⟨rfl, rfl, id⟩

omit [Primitives] [Ciborium] in
theorem Path.after_push {c d : Ctx} {frame : Frame} {result : Stepped}
    (h : Path (spent 0 4 result) (c.push (.send frame)) d) : Path (spent 1 5 result) c d := by
  have hsend : Path 1 c (c.push (.send frame)) := .push _ trivial (.refl c)
  cases result with
  | error => exact hsend.trans h
  | ok => exact hsend.trans h

omit [Primitives] [Ciborium] in
theorem Path.spend {c d : Ctx} {result : Stepped} (h : Path (spent 0 4 result) c d) :
    Path (spent 1 5 result) c d := by
  cases result with
  | error => exact .weaken (Nat.zero_le 1) h
  | ok => exact .weaken (Nat.le_succ 4) h

omit [Primitives] [Ciborium] in
theorem sendAndRearm_path (c : Ctx) (frame : Frame) (purpose : HandshakePurpose) (step : Step) :
    Path 4 c ((c.push (.send frame)).rearmFrameDeadline purpose step) := by
  have hsend : Path 1 c (c.push (.send frame)) := .push _ trivial (.refl c)
  exact hsend.trans (rearmFrameDeadline_path _ purpose step)

theorem stepAuthResp_path (c : Ctx) (run : Run) (frame : Frame) :
    Path (spent 0 4 (c.stepAuthResp run frame).1) c (c.stepAuthResp run frame).2 := by
  rw [stepAuthResp]
  dsimp only
  split
  · exact .free
  · exact sendAndRearm_path c _ _ _

theorem stepAuthInit_path (c : Ctx) (run : Run) (frame : Frame) :
    Path (spent 0 4 (c.stepAuthInit run frame).1) c (c.stepAuthInit run frame).2 := by
  rw [stepAuthInit]
  dsimp only
  split
  · exact .free
  · exact sendAndRearm_path c _ _ _

theorem afterApproval_path (c : Ctx) (run : Run) :
    Path (spent 0 4 (c.afterApproval run).1) c (c.afterApproval run).2 := by
  rw [afterApproval]
  dsimp only
  split
  · exact .free
  · split
    · split
      · exact .free
      · exact sendAndRearm_path c _ _ _
    · split
      · exact stepAuthInit_path c _ _
      · exact .weaken (Nat.le_succ 3) (rearmFrameDeadline_path c _ _)

theorem afterHellos_path (c : Ctx) (run : Run) (remote : HelloPayload) :
    Path (spent 0 4 (c.afterHellos run remote).1) c (c.afterHellos run remote).2 := by
  rw [afterHellos]
  split
  · exact .free
  · dsimp only
    split
    · exact .push (.requestSas _ _) trivial (.arm _ _ (.cancel _ (.refl c)))
    · exact afterApproval_path c _

theorem stepHello_path (c : Ctx) (run : Run) (frame : Frame) :
    Path (spent 1 5 (c.stepHello run frame).1) c (c.stepHello run frame).2 := by
  rw [stepHello.eq_def]
  dsimp only
  split
  · exact .free
  · exact (afterHellos_path _ _ _).after_push

theorem stepReveal_path (c : Ctx) (run : Run) (frame : Frame) :
    Path (spent 1 5 (c.stepReveal run frame).1) c (c.stepReveal run frame).2 := by
  rw [stepReveal.eq_def]
  dsimp only
  split
  · exact .free
  · exact (afterHellos_path c _ _).spend

omit [Primitives] [Ciborium] in
theorem finish_path (c : Ctx) (run : Run) (keys : SessionKeys) :
    Path (spent 0 4 (c.finish run keys).1) c (c.finish run keys).2 := by
  rw [finish]
  split
  · exact .free
  · exact .free

theorem stepRun_path (c : Ctx) (run : Run) (frame : Frame) :
    Path (spent 1 5 (c.stepRun run frame).1) c (c.stepRun run frame).2 := by
  rw [stepRun]
  split
  · exact stepHello_path c run frame
  · exact stepReveal_path c run frame
  · rw [stepSas]
    split_ifs
    · exact .free
    · exact .free
  · exact (stepAuthResp_path c run frame).spend
  · exact (stepAuthInit_path c run frame).spend
  · rw [stepConfirmResp]
    split
    · exact .free
    · exact (finish_path c run _).spend
  · rw [stepConfirmInit]
    dsimp only
    split
    · exact .free
    · exact (finish_path _ run _).after_push

theorem driveRun_path (c : Ctx) (frame : Frame) :
    Path (spent 1 5 (c.driveRun frame).1) c (c.driveRun frame).2 := by
  rw [driveRun]
  cases c.self.run with
  | none => exact .free
  | some run =>
      dsimp only
      have htake : Path 0 c (c.update fun self => { self with run := none }) :=
        .update _ (fun _ => ⟨rfl, rfl, id⟩) (.refl c)
      have hstep := stepRun_path (c.update fun self => { self with run := none }) run frame
      generalize (c.update fun self => { self with run := none }).stepRun run frame = stepped at hstep ⊢
      obtain ⟨result, d⟩ := stepped
      cases result with
      | error error => exact htake.trans (m := 1) hstep
      | ok stepped =>
          obtain ⟨run', candidate⟩ := stepped
          have hok : Path 5 c d := htake.trans (m := 5) hstep
          cases candidate with
          | none =>
              dsimp only
              exact .update _ (fun _ => ⟨rfl, rfl, id⟩) hok
          | some candidate => exact hok

theorem beginRekey_path (c : Ctx) : Path 7 c c.beginRekey := by
  rw [beginRekey]
  split_ifs
  · exact .free
  · split
    · exact .free
    next previous _ =>
        have hstart := startInitiatorRun_path c .rekey (some previous)
        generalize c.startInitiatorRun .rekey (some previous) = started at hstart ⊢
        obtain ⟨result, d⟩ := started
        cases result with
        | error error => exact .weaken (by decide : 6 ≤ 7) (hstart.trans (failRekey_path d error))
        | ok =>
            have htotal : Path 3 c (d.arm .handshakeTotal handshakeTotalTimeoutSecs) := .arm _ _ hstart
            exact .push (.notify .rekeyStarted) trivial
              (htotal.trans (rearmFrameDeadline_path _ .rekey .hello))

theorem onIncomingCommit_path (c : Ctx) (commit : CommitPayload) (emitRekeyStarted : Bool) :
    Path 7 c (c.onIncomingCommit commit emitRekeyStarted) := by
  rw [onIncomingCommit]
  dsimp only
  split_ifs
  · exact .weaken (by decide : 1 ≤ 7) (noteRekeyRejection_path c)
  · have hreset : Path 0 c (c.update fun self => { self with consecutiveRekeyRejections := 0 }) :=
      .update _ (fun _ => ⟨rfl, rfl, id⟩) (.refl c)
    have hstart := startResponderRun_path
      (c.update fun self => { self with consecutiveRekeyRejections := 0 }) commit emitRekeyStarted
    generalize Ctx.startResponderRun _ commit emitRekeyStarted = started at hstart ⊢
    obtain ⟨result, d⟩ := started
    cases result with
    | error error =>
        have hfail : Path 0 c d := hreset.trans (m := 0) hstart
        exact .weaken (by decide : 5 ≤ 7) (hfail.trans (m := 5) (failRekey_path d error))
    | ok => exact hreset.trans (m := 7) hstart

theorem resolveGlare_path (c : Ctx) (commit : CommitPayload) : Path 9 c (c.resolveGlare commit) := by
  rw [resolveGlare]
  split
  · exact .free
  · split_ifs
    · exact .weaken (by decide : 1 ≤ 9) (noteRekeyRejection_path c)
    · exact .free
    · refine Path.trans (n := 2) (m := 7) (.cancel _ (.cancel _ (.update _ ?_ (.refl c))))
        (onIncomingCommit_path _ commit false)
      exact fun _ => ⟨rfl, rfl, id⟩

theorem maybeTriggerRekey_path (c : Ctx) : Path 7 c c.maybeTriggerRekey := by
  rw [maybeTriggerRekey]
  split_ifs
  · exact beginRekey_path c
  · exact .free

theorem counted_path {c d : Ctx} (h : Path 1 c d) : Path 8 c d.countMessage.maybeTriggerRekey := by
  refine Path.trans (n := 1) (.update _ ?_ h) (maybeTriggerRekey_path _)
  exact fun _ => ⟨rfl, rfl, id⟩

/-- A handler goes on, or ends the connection after a few effects. -/
inductive Outcome (c : Ctx) : Ctx → Prop
  | goesOn {d : Ctx} (path : Path 12 c d) : Outcome c d
  | closes {d : Ctx} (path : Path 4 c d) (cause : CloseCause) (reason : Option CloseReason) :
      Outcome c (d.terminate cause reason)

omit [Primitives] in
theorem Outcome.of_path {n : Nat} {c d : Ctx} (le : n ≤ 12) (h : Path n c d) : Outcome c d :=
  .goesOn (.weaken le h)

omit [Primitives] in
theorem Outcome.of_terminate (c : Ctx) (cause : CloseCause) (reason : Option CloseReason) :
    Outcome c (c.terminate cause reason) :=
  .closes .free cause reason

omit [Primitives] in
theorem Outcome.after {c d e : Ctx} (h : Path 0 c d) (k : Outcome d e) : Outcome c e := by
  cases k with
  | goesOn path => exact .goesOn (h.trans (m := 12) path)
  | closes path cause reason => exact .closes (h.trans (m := 4) path) cause reason

omit [Primitives] in
theorem Outcome.failInitial {n : Nat} {c d : Ctx} (le : n ≤ 4) (h : Path n c d) (error : Error) :
    Outcome c (d.failInitial error) := by
  rw [Ctx.failInitial]
  exact .closes (.weaken le h) (initialFailure error).1 (some (initialFailure error).2)

theorem start_outcome (c : Ctx) : Outcome c c.start := by
  rw [start]
  split_ifs
  · exact .of_path (by decide) (.refl c)
  · have hbegun : Path 2 c ((c.update fun self => { self with phase := .handshaking }).arm .handshakeTotal
        handshakeTotalTimeoutSecs) := by
      refine .arm _ _ (.update _ ?_ (.refl c))
      exact fun _ => ⟨rfl, rfl, fun _ => (by decide : Phase.handshaking ≠ .closed)⟩
    dsimp only
    split_ifs
    · have hrun := startInitiatorRun_path ((c.update fun self => { self with phase := .handshaking }).arm
        .handshakeTotal handshakeTotalTimeoutSecs) .initial none
      generalize Ctx.startInitiatorRun _ .initial none = started at hrun ⊢
      obtain ⟨result, d⟩ := started
      cases result with
      | error error => exact .failInitial (by decide) (hbegun.trans hrun) error
      | ok => exact .of_path (by decide) ((hbegun.trans hrun).trans (rearmFrameDeadline_path d .initial .hello))
    · exact .of_path (by decide) (.arm .handshakeFrame handshakeFrameTimeoutSecs hbegun)

omit [Primitives] in
theorem onCloseFrame_outcome (c : Ctx) (frame : Frame) : Outcome c (c.onCloseFrame frame) := by
  rw [onCloseFrame]
  split
  · exact .of_terminate c _ _
  · split_ifs
    · exact .of_terminate c _ _
    · exact .of_path (by decide) (.refl c)
    · split
      · exact .of_path (by decide) (.refl c)
      · split_ifs
        · exact .of_terminate c _ _
        · refine .of_path (by decide) (.cancel .drain (.update _ ?_ (.refl c)))
          exact fun _ => ⟨rfl, rfl, id⟩
        · exact .of_path (by decide) (.refl c)

theorem acceptFirstCommit_path (c : Ctx) (frame : Frame) :
    Path (spent 0 7 (c.acceptFirstCommit frame).1) c (c.acceptFirstCommit frame).2 := by
  rw [acceptFirstCommit]
  split
  · exact .free
  · split_ifs
    · exact .free
    · exact startResponderRun_path c _ true

theorem onFrameHandshaking_outcome (c : Ctx) (frame : Frame) : Outcome c (c.onFrameHandshaking frame) := by
  rw [onFrameHandshaking]
  split_ifs
  · exact onCloseFrame_outcome c frame
  · have hcommit := acceptFirstCommit_path c frame
    generalize c.acceptFirstCommit frame = accepted at hcommit ⊢
    obtain ⟨result, d⟩ := accepted
    cases result with
    | error error => exact .failInitial (n := 0) (by decide) hcommit error
    | ok => exact .of_path (n := 7) (by decide) hcommit
  · have hdrive := driveRun_path c frame
    generalize c.driveRun frame = driven at hdrive ⊢
    obtain ⟨result, d⟩ := driven
    cases result with
    | error error => exact .failInitial (n := 1) (by decide) hdrive error
    | ok candidate =>
        have hok : Path 5 c d := hdrive
        cases candidate with
        | none => exact .of_path (by decide) hok
        | some candidate => exact .of_path (by decide) (hok.trans (completeInitial_path d candidate))

theorem onSas_outcome (c : Ctx) (approved : Bool) : Outcome c (c.onSas approved) := by
  rw [onSas]
  split
  · exact .of_path (by decide) (.refl c)
  next run _ =>
    split_ifs
    · exact .of_path (by decide) (.refl c)
    · dsimp only
      have htake : Path 1 c ((c.cancel .sasDecision).update fun self => { self with run := none }) :=
        .update _ (fun _ => ⟨rfl, rfl, id⟩) (.cancel _ (.refl c))
      have happroved := afterApproval_path
        ((c.cancel .sasDecision).update fun self => { self with run := none }) run
      generalize Ctx.afterApproval _ run = stepped at happroved ⊢
      obtain ⟨result, d⟩ := stepped
      cases result with
      | error error => exact .failInitial (by decide) (htake.trans (m := 0) happroved) error
      | ok stepped =>
          obtain ⟨run', candidate⟩ := stepped
          have hok : Path 5 c d := htake.trans (m := 4) happroved
          cases candidate with
          | none =>
              refine .of_path (by decide) (.update _ ?_ hok)
              exact fun _ => ⟨rfl, rfl, id⟩
          | some candidate => exact .of_path (by decide) (hok.trans (completeInitial_path d candidate))
    · exact .closes (.weaken (by decide : 1 ≤ 4) (.cancel .sasDecision (.refl c))) _ _

theorem onRekeyFrame_outcome (c : Ctx) (frame : Frame) : Outcome c (c.onRekeyFrame frame) := by
  rw [onRekeyFrame]
  split
  · split
    · refine .of_path (by decide) (Path.trans (n := 0) (.update _ ?_ (.refl c)) (onIncomingCommit_path _ _ true))
      exact fun _ => ⟨rfl, rfl, id⟩
    · split_ifs
      · refine .of_path (by decide) (.update _ ?_ (.refl c))
        exact fun _ => ⟨rfl, rfl, id⟩
      · exact .of_terminate c _ _
      · exact .of_path (by decide) (noteRekeyRejection_path c)
  · dsimp only
    split
    · exact .of_path (by decide) (resolveGlare_path c _)
    · have hdrive := driveRun_path c frame
      generalize c.driveRun frame = driven at hdrive ⊢
      obtain ⟨result, d⟩ := driven
      cases result with
      | error error => exact .of_path (by decide) (Path.trans (n := 1) hdrive (failRekey_path d error))
      | ok candidate =>
          have hok : Path 5 c d := hdrive
          cases candidate with
          | none => exact .of_path (by decide) hok
          | some candidate => exact .of_path (by decide) (hok.trans (completeRekey_path d candidate))

theorem onSend_outcome (c : Ctx) (content : List UInt8) : Outcome c (c.onSend content) := by
  rw [onSend]
  by_cases hlarge : maxContent < content.length
  · rw [if_pos hlarge]
    exact .of_path (by decide) (.push (.notify _) trivial (.refl c))
  · rw [if_neg hlarge]
    split
    · exact .of_path (by decide) (.push (.notify _) trivial (.refl c))
    next active _ =>
        have hsender (sender : DataSender) : Path 0 c
            (c.update fun self => { self with active := some { active with sender } }) :=
          .update _ (fun _ => ⟨rfl, rfl, id⟩) (.refl c)
        dsimp only
        split
        · exact .of_path (by decide) (counted_path (.push (.send _) trivial (hsender _)))
        · exact .of_path (by decide) (.push (.notify _) trivial (hsender _))
        · exact .closes (.weaken (Nat.zero_le 4) (hsender _)) _ _

theorem onData_outcome (c : Ctx) (frame : Frame) : Outcome c (c.onData frame) := by
  rw [onData]
  split
  · exact .of_path (by decide) (.refl c)
  next active _ =>
      have hreceiver (receiver : DataReceiver) : Path 0 c
          (c.update fun self => { self with active := some { active with receiver } }) :=
        .update _ (fun _ => ⟨rfl, rfl, id⟩) (.refl c)
      dsimp only
      split
      · exact .of_path (by decide) (counted_path (.push (.deliver _) trivial (hreceiver _)))
      · refine .after (hreceiver (active.receiver.decrypt frame).2) ?_
        generalize c.update _ = d
        cases d.self.draining with
        | none =>
            dsimp only
            split_ifs
            · exact .of_terminate d _ _
            · exact .of_path (by decide) (.push (.notify _) trivial (.refl d))
        | some draining =>
            have hdraining : Path 0 d (d.update fun self => { self with
                draining := some { draining with receiver := (draining.receiver.decrypt frame).2 } }) :=
              .update _ (fun _ => ⟨rfl, rfl, id⟩) (.refl d)
            dsimp only
            refine .after hdraining ?_
            split
            · exact .of_path (by decide) (.push (.deliver _) trivial (.refl _))
            · split_ifs
              · exact .of_terminate _ _ _
              · exact .of_path (by decide) (.push (.notify _) trivial (.refl _))

theorem onFrame_outcome (c : Ctx) (frame : Frame) : Outcome c (c.onFrame frame) := by
  rw [onFrame]
  split
  · exact .of_terminate c _ _
  · exact .of_terminate c _ _
  · exact onFrameHandshaking_outcome c frame
  · split
    · exact onData_outcome c frame
    · exact onCloseFrame_outcome c frame
    · exact onRekeyFrame_outcome c frame
    · exact onRekeyFrame_outcome c frame
    · exact .of_terminate c _ _

def release (c : Ctx) (id : DeadlineId) : Ctx :=
  c.update fun self => { self with deadlines := self.deadlines.eraseP (·.1 = id) }

theorem onTimeout_outcome (c : Ctx) (id : DeadlineId) : Outcome (c.release id) (c.onTimeout id) := by
  rw [onTimeout]
  split
  next hfind =>
      have hnone : ∀ d ∈ c.self.deadlines, ¬ decide (d.1 = id) = true := List.find?_eq_none.1 hfind
      have hsame : c.release id = c := by
        rw [release, update, List.eraseP_of_forall_not hnone]
      rw [hsame]
      exact .of_path (by decide) (.refl c)
  next kind hfind =>
      have hframe (d : Ctx) : Outcome d (if d.self.phase = .handshaking then
          d.terminate .timeout (some .resourceLimit)
          else if d.self.run.isSome then d.failRekey .transportTimeout else d) := by
        split_ifs
        · exact .of_terminate d _ _
        · exact .of_path (by decide) (failRekey_path d _)
        · exact .of_path (by decide) (.refl d)
      cases kind with
      | handshakeFrame => exact hframe (c.release id)
      | handshakeTotal => exact hframe (c.release id)
      | sasDecision => exact .of_terminate (c.release id) _ _
      | rekeyDue =>
          have hready : Path 0 (c.release id) ((c.release id).update fun self =>
              { self with rekeyBlocked := false, lateRekeyFrames := 0 }) :=
            .update _ (fun _ => ⟨rfl, rfl, fun hp => hp⟩) (.refl _)
          exact .of_path (by decide) (hready.trans (beginRekey_path _))
      | drain =>
          have hdrained : Path 0 (c.release id) ((c.release id).update fun self =>
              { self with draining := none }) :=
            .update _ (fun _ => ⟨rfl, rfl, fun hp => hp⟩) (.refl _)
          exact .of_path (by decide) hdrained

end Ctx

/-- The context in which an input is handled, with a timer that fires taken off. -/
def Engine.entered (self : Engine) : Input → Ctx
  | .timeout id => Ctx.release { self, out := [] } id
  | _ => { self, out := [] }

variable [Ciborium] [Primitives]

theorem Engine.handle_outcome {self : Engine} (h : self.phase ≠ .closed) (input : Input) :
    ∃ c, Ctx.Outcome (self.entered input) c ∧ self.handle input = (c.self, c.out) := by
  rw [handle, if_neg h]
  refine ⟨_, ?_, rfl⟩
  cases input with
  | start => exact Ctx.start_outcome _
  | frameReceived frame => exact Ctx.onFrame_outcome _ frame
  | sasDecision approved => exact Ctx.onSas_outcome _ approved
  | localSend content => exact Ctx.onSend_outcome _ content
  | localClose reason => exact .of_terminate _ _ _
  | requestRekey => exact .of_path (by decide) (Ctx.beginRekey_path _)
  | timeout id => exact Ctx.onTimeout_outcome _ id
  | transportClosed => exact .of_terminate _ _ _
  | malformed respond => exact .of_terminate _ _ _

end Ruxmsg

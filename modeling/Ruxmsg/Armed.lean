import Ruxmsg.Moves

namespace Ruxmsg

def Engine.Armed (e : Engine) (kind : DeadlineKind) : Prop := kind ∈ e.deadlines.map Prod.snd

/-- The waits for the peer that a deadline of their own bounds. -/
def FrameBounded (purpose : HandshakePurpose) (step : Step) : Prop :=
  purpose = .rekey ∨ step = .hello ∨ step = .reveal ∨ step = .confirmResp ∨ step = .confirmInit

theorem Engine.armed_congr {e e' : Engine} (h : e'.deadlines = e.deadlines) (kind : DeadlineKind) :
    e'.Armed kind ↔ e.Armed kind := by
  rw [Armed, Armed, h]

structure Engine.Like (e x : Engine) : Prop where
  phase_eq : e.phase = x.phase
  run_eq : e.run = x.run
  active_eq : e.active = x.active
  draining_eq : e.draining = x.draining
  messages_eq : e.messages = x.messages
  limit_eq : e.rekeyMessageLimit = x.rekeyMessageLimit
  blocked_eq : e.rekeyBlocked = x.rekeyBlocked

theorem Engine.like_of_timeless {e x : Engine} (h : e.timeless = x) : e.Like x := by
  subst h
  exact ⟨rfl, rfl, rfl, rfl, rfl, rfl, rfl⟩

namespace Ctx

theorem armed_push (c : Ctx) (effect : Effect) (kind : DeadlineKind) :
    (c.push effect).self.Armed kind ↔ c.self.Armed kind :=
  Iff.rfl

theorem armed_update (c : Ctx) (f : Engine → Engine) (kind : DeadlineKind)
    (hf : ∀ e : Engine, (f e).deadlines = e.deadlines) : (c.update f).self.Armed kind ↔ c.self.Armed kind :=
  Engine.armed_congr (hf c.self) kind

theorem armed_cancel (c : Ctx) (cancelled kind : DeadlineKind) :
    (c.cancel cancelled).self.Armed kind ↔ kind ≠ cancelled ∧ c.self.Armed kind := by
  simp only [Engine.Armed, cancel, List.mem_map, List.mem_filter]
  constructor
  · rintro ⟨entry, ⟨he, hne⟩, rfl⟩
    exact ⟨of_decide_eq_true hne, entry, he, rfl⟩
  · rintro ⟨hne, entry, he, rfl⟩
    exact ⟨entry, ⟨he, decide_eq_true hne⟩, rfl⟩

theorem armed_arm (c : Ctx) (armed kind : DeadlineKind) (after : Nat) :
    (c.arm armed after).self.Armed kind ↔ kind = armed ∨ c.self.Armed kind := by
  have hcancel := armed_cancel c armed kind
  have hpush : (c.arm armed after).self.Armed kind ↔ (c.cancel armed).self.Armed kind ∨ kind = armed := by
    simp [Engine.Armed, arm]
  rw [hpush, hcancel]
  by_cases heq : kind = armed
  · simp [heq]
  · simp [heq]

theorem armed_rearm (c : Ctx) (purpose : HandshakePurpose) (step : Step) (kind : DeadlineKind) :
    (c.rearmFrameDeadline purpose step).self.Armed kind ↔
      (kind = .handshakeFrame ∧ FrameBounded purpose step) ∨ (kind ≠ .handshakeFrame ∧ c.self.Armed kind) := by
  rw [rearmFrameDeadline.eq_def]
  cases purpose with
  | rekey =>
      simp only [if_true, armed_arm, armed_cancel, FrameBounded, true_or, and_true]
  | initial =>
      dsimp only
      split_ifs with hbounded
      · simp only [armed_arm, armed_cancel]
        simp only [decide_eq_true_eq] at hbounded
        simp only [FrameBounded, reduceCtorEq, false_or, hbounded, and_true]
      · simp only [decide_eq_true_eq] at hbounded
        simp only [armed_cancel, FrameBounded, reduceCtorEq, false_or, hbounded, and_false]

theorem rearm_timeless (c : Ctx) (purpose : HandshakePurpose) (step : Step) :
    (c.rearmFrameDeadline purpose step).self.timeless = c.self.timeless :=
  congrArg Ctx.self (view_rearmFrameDeadline c purpose step)

def Times (e : Engine) (run : Run) (e' : Engine) : Prop :=
  ∀ kind, e'.Armed kind ↔ match kind with
    | .handshakeFrame => FrameBounded run.purpose run.step
    | .sasDecision => run.step = .sas
    | kind => e.Armed kind

inductive Leaves (e : Engine) (purpose : HandshakePurpose) : Stepped × Ctx → Prop
  | failed {error : Error} {d : Ctx} (deadlines : d.self.deadlines = e.deadlines) :
      Leaves e purpose (.error error, d)
  | ended {run' : Run} {candidate : Candidate} {d : Ctx} (deadlines : d.self.deadlines = e.deadlines) :
      Leaves e purpose (.ok (run', some candidate), d)
  | goesOn {run' : Run} {d : Ctx} (purpose_eq : run'.purpose = purpose)
      (sas : run'.step = .sas → purpose = .initial) (times : Times e run' d.self) :
      Leaves e purpose (.ok (run', none), d)

theorem times_rearm {e : Engine} {d : Ctx} {run : Run} (hd : d.self.deadlines = e.deadlines)
    (hsas : ¬ e.Armed .sasDecision) (hstep : run.step ≠ .sas) :
    Times e run (d.rearmFrameDeadline run.purpose run.step).self := by
  intro kind
  rw [armed_rearm, Engine.armed_congr hd]
  cases kind with
  | handshakeFrame => simp
  | sasDecision => simp [hsas, hstep]
  | handshakeTotal | rekeyDue | drain => simp

theorem Leaves.of_rearm {e : Engine} {d : Ctx} (run : Run) (hd : d.self.deadlines = e.deadlines)
    (hsas : ¬ e.Armed .sasDecision) (hstep : run.step ≠ .sas) :
    Leaves e run.purpose (.ok (run, none), d.rearmFrameDeadline run.purpose run.step) :=
  .goesOn rfl (fun h => absurd h hstep) (times_rearm hd hsas hstep)

section Steps

variable [Ciborium] [Primitives] {e : Engine} (c : Ctx) (run : Run) (frame : Frame)

theorem stepAuthResp_leaves (hd : c.self.deadlines = e.deadlines) (hsas : ¬ e.Armed .sasDecision) :
    Leaves e run.purpose (c.stepAuthResp run frame) := by
  rw [stepAuthResp]
  dsimp only
  split
  · exact .failed hd
  next keys confirm _ =>
      exact Leaves.of_rearm { run with keys := some keys, step := .confirmResp }
        (d := c.push (.send confirm)) hd hsas (by decide : Step.confirmResp ≠ .sas)

theorem stepAuthInit_leaves (hd : c.self.deadlines = e.deadlines) (hsas : ¬ e.Armed .sasDecision) :
    Leaves e run.purpose (c.stepAuthInit run frame) := by
  rw [stepAuthInit]
  dsimp only
  split
  · exact .failed hd
  next keys response _ =>
      exact Leaves.of_rearm { run with keys := some keys, step := .confirmInit }
        (d := c.push (.send response)) hd hsas (by decide : Step.confirmInit ≠ .sas)

theorem afterApproval_leaves (hd : c.self.deadlines = e.deadlines) (hsas : ¬ e.Armed .sasDecision) :
    Leaves e run.purpose (c.afterApproval run) := by
  rw [afterApproval]
  dsimp only
  split
  · exact .failed hd
  · split
    · split
      · exact .failed hd
      next auth _ =>
          exact Leaves.of_rearm { run with step := .authResp } (d := c.push (.send auth)) hd hsas
            (by decide : Step.authResp ≠ .sas)
    · split
      next early _ =>
          exact stepAuthInit_leaves c { run with step := .authInit, early := none } early hd hsas
      · exact Leaves.of_rearm { run with step := .authInit } hd hsas
          (by decide : Step.authInit ≠ .sas)

theorem afterHellos_leaves (remote : HelloPayload) (hd : c.self.deadlines = e.deadlines)
    (hsas : ¬ e.Armed .sasDecision) : Leaves e run.purpose (c.afterHellos run remote) := by
  rw [afterHellos]
  split
  · exact .failed hd
  next transcript hash shared _ =>
      dsimp only
      split
      next hpurpose =>
          refine .goesOn rfl (fun _ => hpurpose) ?_
          intro kind
          change ((c.cancel .handshakeFrame).arm .sasDecision sasDecisionTimeoutSecs).self.Armed kind ↔ _
          rw [armed_arm, armed_cancel, Engine.armed_congr hd]
          cases kind with
          | handshakeFrame => simp [FrameBounded, hpurpose]
          | sasDecision | handshakeTotal | rekeyDue | drain => simp
      next hpurpose =>
          have happroved := afterApproval_leaves c
            { run with
              shared := some shared
              transcript := some transcript
              hash := some hash
              remoteIdentity := some remote.identityPublicKey } hd hsas
          simpa only using happroved

theorem stepHello_leaves (hd : c.self.deadlines = e.deadlines) (hsas : ¬ e.Armed .sasDecision) :
    Leaves e run.purpose (c.stepHello run frame) := by
  rw [stepHello.eq_def]
  dsimp only
  split
  · exact .failed hd
  next remote reveal _ =>
      exact afterHellos_leaves (c.push (.send reveal)) { run with localHelloFrame := none } remote hd hsas

theorem stepReveal_leaves (hd : c.self.deadlines = e.deadlines) (hsas : ¬ e.Armed .sasDecision) :
    Leaves e run.purpose (c.stepReveal run frame) := by
  rw [stepReveal.eq_def]
  dsimp only
  split
  · exact .failed hd
  next remote _ => exact afterHellos_leaves c run remote hd hsas

omit [Ciborium] [Primitives] in
theorem finish_leaves (keys : SessionKeys) (hd : c.self.deadlines = e.deadlines) :
    Leaves e run.purpose (c.finish run keys) := by
  rw [finish]
  split
  · exact .failed hd
  · exact .ended hd

omit [Ciborium] [Primitives] in
theorem stepSas_leaves (hd : c.self.deadlines = e.deadlines) (hstep : run.step = .sas)
    (hpurpose : run.purpose = .initial) (hsas : e.Armed .sasDecision) (hframe : ¬ e.Armed .handshakeFrame) :
    Leaves e run.purpose (c.stepSas run frame) := by
  rw [stepSas]
  split_ifs
  · refine .goesOn rfl (fun _ => hpurpose) ?_
    intro kind
    rw [Engine.armed_congr hd]
    cases kind with
    | handshakeFrame => simp [FrameBounded, hframe, hstep, hpurpose]
    | sasDecision => simp [hsas, hstep]
    | handshakeTotal | rekeyDue | drain => simp
  · exact .failed hd

/-- The deadlines after a frame has been put through a run, given that the SAS
decision is waited for exactly in its step. -/
theorem stepRun_leaves (hd : c.self.deadlines = e.deadlines)
    (hsas : e.Armed .sasDecision ↔ run.step = .sas)
    (hwait : run.step = .sas → run.purpose = .initial ∧ ¬ e.Armed .handshakeFrame) :
    Leaves e run.purpose (c.stepRun run frame) := by
  rw [stepRun]
  split
  next hstep => exact stepHello_leaves c run frame hd (by simp [hsas, hstep])
  next hstep => exact stepReveal_leaves c run frame hd (by simp [hsas, hstep])
  next hstep =>
      exact stepSas_leaves c run frame hd hstep (hwait hstep).1 (hsas.2 hstep) (hwait hstep).2
  next hstep => exact stepAuthResp_leaves c run frame hd (by simp [hsas, hstep])
  next hstep => exact stepAuthInit_leaves c run frame hd (by simp [hsas, hstep])
  · rw [stepConfirmResp]
    split
    · exact .failed hd
    · exact finish_leaves c run _ hd
  · rw [stepConfirmInit]
    dsimp only
    split
    · exact .failed hd
    next reply _ => exact finish_leaves (c.push (.send reply)) run _ hd

end Steps

end Ctx

end Ruxmsg

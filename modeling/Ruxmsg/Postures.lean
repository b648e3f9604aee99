import Ruxmsg.Armed

namespace Ruxmsg

structure Engine.Listens (e : Engine) : Prop where
  phase_eq : e.phase = .handshaking
  run_eq : e.run = none
  draining_eq : e.draining = none
  total : e.Armed .handshakeTotal
  frame : e.Armed .handshakeFrame
  sas : ¬ e.Armed .sasDecision
  drain : ¬ e.Armed .drain

structure Engine.Shakes (e : Engine) (run : Run) : Prop where
  phase_eq : e.phase = .handshaking
  run_eq : e.run = some run
  purpose_eq : run.purpose = .initial
  draining_eq : e.draining = none
  total : e.Armed .handshakeTotal
  frame : e.Armed .handshakeFrame ↔ FrameBounded run.purpose run.step
  sas : e.Armed .sasDecision ↔ run.step = .sas
  drain : ¬ e.Armed .drain

structure Engine.Between (e : Engine) : Prop where
  phase_eq : e.phase = .established
  run_eq : e.run = none
  active_some : e.active.isSome
  total : ¬ e.Armed .handshakeTotal
  frame : ¬ e.Armed .handshakeFrame
  sas : ¬ e.Armed .sasDecision
  drain : e.Armed .drain ↔ e.draining.isSome

structure Engine.Rests (e : Engine) : Prop where
  between : e.Between
  due : e.Armed .rekeyDue
  trigger : e.rekeyBlocked = false → e.messages < e.rekeyMessageLimit

structure Engine.Rekeys (e : Engine) (run : Run) : Prop where
  phase_eq : e.phase = .established
  run_eq : e.run = some run
  purpose_eq : run.purpose = .rekey
  step_ne : run.step ≠ .sas
  active_some : e.active.isSome
  total : e.Armed .handshakeTotal
  frame : e.Armed .handshakeFrame
  sas : ¬ e.Armed .sasDecision
  drain : e.Armed .drain ↔ e.draining.isSome

structure Engine.Still (e : Engine) : Prop where
  phase : e.phase = .idle ∨ e.phase = .closed
  deadlines_eq : e.deadlines = []
  run_eq : e.run = none
  draining_eq : e.draining = none

theorem Engine.Still.unarmed {e : Engine} (h : e.Still) (kind : DeadlineKind) : ¬ e.Armed kind := by
  rw [Armed, h.deadlines_eq]
  exact List.not_mem_nil

/-- The states a connection may wait in, each with its deadlines. -/
inductive Engine.Posture (e : Engine) : Prop
  | still (h : e.Still)
  | listens (h : e.Listens)
  | shakes (run : Run) (h : e.Shakes run)
  | rests (h : e.Rests)
  | rekeys (run : Run) (h : e.Rekeys run)

def Engine.Continues (e : Engine) : Prop := e.Rests ∨ ∃ run, e.Rekeys run

theorem Engine.Continues.posture {e : Engine} (h : e.Continues) : e.Posture := by
  rcases h with h | ⟨run, h⟩
  · exact .rests h
  · exact .rekeys run h

theorem Engine.Posture.continues {e : Engine} (h : e.Posture) (hphase : e.phase = .established) : e.Continues := by
  cases h with
  | still h =>
      rcases h.phase with hidle | hclosed
      · cases hphase.symm.trans hidle
      · cases hphase.symm.trans hclosed
  | listens h => cases hphase.symm.trans h.phase_eq
  | shakes run h => cases hphase.symm.trans h.phase_eq
  | rests h => exact .inl h
  | rekeys run h => exact .inr ⟨run, h⟩

theorem Engine.Posture.handshaking {e : Engine} (h : e.Posture) (hphase : e.phase = .handshaking) :
    e.Listens ∨ ∃ run, e.Shakes run := by
  cases h with
  | still h =>
      rcases h.phase with hidle | hclosed
      · cases hphase.symm.trans hidle
      · cases hphase.symm.trans hclosed
  | listens h => exact .inl h
  | shakes run h => exact .inr ⟨run, h⟩
  | rests h => cases hphase.symm.trans h.between.phase_eq
  | rekeys run h => cases hphase.symm.trans h.phase_eq

theorem Engine.Posture.still_of_idle {e : Engine} (h : e.Posture) (hphase : e.phase = .idle) : e.Still := by
  cases h with
  | still h => exact h
  | listens h => cases hphase.symm.trans h.phase_eq
  | shakes run h => cases hphase.symm.trans h.phase_eq
  | rests h => cases hphase.symm.trans h.between.phase_eq
  | rekeys run h => cases hphase.symm.trans h.phase_eq

theorem Engine.Posture.continues_of_draining {e : Engine} (h : e.Posture) (hd : e.draining.isSome) :
    e.Continues := by
  have hnot : ¬ e.draining = none := Option.isSome_iff_ne_none.1 hd
  cases h with
  | still h => exact absurd h.draining_eq hnot
  | listens h => exact absurd h.draining_eq hnot
  | shakes run h => exact absurd h.draining_eq hnot
  | rests h => exact .inl h
  | rekeys run h => exact .inr ⟨run, h⟩

structure Engine.Stands (e e' : Engine) : Prop where
  phase_eq : e'.phase = e.phase
  run_eq : e'.run = e.run
  active_some : e'.active.isSome = e.active.isSome
  draining_some : e'.draining.isSome = e.draining.isSome

section Stands

variable {e e' : Engine} {run : Run}

theorem Engine.Stands.draining_none (hs : e.Stands e') (h : e.draining = none) : e'.draining = none := by
  rw [← Option.not_isSome_iff_eq_none, hs.draining_some, h]
  exact Bool.false_ne_true

theorem Engine.Between.congr (h : e.Between) (hs : e.Stands e')
    (ha : ∀ kind, kind ≠ .rekeyDue → (e'.Armed kind ↔ e.Armed kind)) : e'.Between where
  phase_eq := hs.phase_eq.trans h.phase_eq
  run_eq := hs.run_eq.trans h.run_eq
  active_some := hs.active_some.trans h.active_some
  total := mt (ha _ (by decide)).1 h.total
  frame := mt (ha _ (by decide)).1 h.frame
  sas := mt (ha _ (by decide)).1 h.sas
  drain := by
    rw [ha _ (by decide), hs.draining_some]
    exact h.drain

theorem Engine.Rekeys.congr (h : e.Rekeys run) (hs : e.Stands e')
    (ha : ∀ kind, kind ≠ .rekeyDue → (e'.Armed kind ↔ e.Armed kind)) : e'.Rekeys run where
  phase_eq := hs.phase_eq.trans h.phase_eq
  run_eq := hs.run_eq.trans h.run_eq
  purpose_eq := h.purpose_eq
  step_ne := h.step_ne
  active_some := hs.active_some.trans h.active_some
  total := (ha _ (by decide)).2 h.total
  frame := (ha _ (by decide)).2 h.frame
  sas := mt (ha _ (by decide)).1 h.sas
  drain := by
    rw [ha _ (by decide), hs.draining_some]
    exact h.drain

theorem Engine.Listens.congr (h : e.Listens) (hs : e.Stands e')
    (ha : ∀ kind, kind ≠ .rekeyDue → (e'.Armed kind ↔ e.Armed kind)) : e'.Listens where
  phase_eq := hs.phase_eq.trans h.phase_eq
  run_eq := hs.run_eq.trans h.run_eq
  draining_eq := hs.draining_none h.draining_eq
  total := (ha _ (by decide)).2 h.total
  frame := (ha _ (by decide)).2 h.frame
  sas := mt (ha _ (by decide)).1 h.sas
  drain := mt (ha _ (by decide)).1 h.drain

theorem Engine.Shakes.congr (h : e.Shakes run) (hs : e.Stands e')
    (ha : ∀ kind, kind ≠ .rekeyDue → (e'.Armed kind ↔ e.Armed kind)) : e'.Shakes run where
  phase_eq := hs.phase_eq.trans h.phase_eq
  run_eq := hs.run_eq.trans h.run_eq
  purpose_eq := h.purpose_eq
  draining_eq := hs.draining_none h.draining_eq
  total := (ha _ (by decide)).2 h.total
  frame := (ha _ (by decide)).trans h.frame
  sas := (ha _ (by decide)).trans h.sas
  drain := mt (ha _ (by decide)).1 h.drain

theorem Engine.Continues.congr (h : e.Continues) (hs : e.Stands e') (hd : e'.deadlines = e.deadlines)
    (hmessages : e'.messages = e.messages) (hlimit : e'.rekeyMessageLimit = e.rekeyMessageLimit)
    (hblocked : e'.rekeyBlocked = e.rekeyBlocked) : e'.Continues := by
  have harmed := Engine.armed_congr hd
  obtain h | ⟨run, h⟩ := h
  · left
    refine ⟨h.between.congr hs fun kind _ => harmed kind, (harmed _).2 h.due, ?_⟩
    rw [hblocked, hmessages, hlimit]
    exact h.trigger
  · exact .inr ⟨run, h.congr hs fun kind _ => harmed kind⟩

end Stands

namespace Ctx

variable {c : Ctx}

theorem armed_failRekey (c : Ctx) (error : Error) (kind : DeadlineKind) :
    (c.failRekey error).self.Armed kind ↔
      kind = .rekeyDue ∨ kind ≠ .handshakeTotal ∧ kind ≠ .handshakeFrame ∧ c.self.Armed kind := by
  rw [failRekey]
  rw [armed_push, armed_arm, armed_update, armed_cancel, armed_cancel, armed_update]
  · exact fun _ => rfl
  · exact fun _ => rfl

theorem failRekey_rests (error : Error) (hphase : c.self.phase = .established) (hactive : c.self.active.isSome)
    (hsas : ¬ c.self.Armed .sasDecision) (hdrain : c.self.Armed .drain ↔ c.self.draining.isSome) :
    (c.failRekey error).self.Rests := by
  have hlike : (c.failRekey error).self.Like c.self.timeless.abandoned :=
    Engine.like_of_timeless (congrArg Ctx.self (view_failRekey c error))
  have harmed := armed_failRekey c error
  generalize c.failRekey error = d at hlike harmed ⊢
  refine ⟨⟨hlike.phase_eq.trans hphase, hlike.run_eq, ?_, ?_, ?_, ?_, ?_⟩, ?_, ?_⟩
  · rw [hlike.active_eq]
    exact hactive
  · simp [harmed]
  · simp [harmed]
  · simp [harmed, hsas]
  · have hdraining : d.self.draining = c.self.draining := hlike.draining_eq
    rw [hdraining, harmed]
    simpa using hdrain
  · simp [harmed]
  · rw [hlike.blocked_eq]
    intro hblocked
    cases hblocked

theorem armed_completeInitial [Primitives] (c : Ctx) (candidate : Candidate) (kind : DeadlineKind) :
    (c.completeInitial candidate).self.Armed kind ↔
      kind = .rekeyDue ∨ kind ≠ .handshakeTotal ∧ kind ≠ .sasDecision ∧ kind ≠ .handshakeFrame ∧
        c.self.Armed kind := by
  rw [completeInitial]
  rw [armed_push, armed_arm, armed_update, armed_cancel, armed_cancel, armed_cancel]
  exact fun _ => rfl

theorem completeInitial_rests [Primitives] (candidate : Candidate) (hrun : c.self.run = none)
    (hdraining : c.self.draining = none) (hdrain : ¬ c.self.Armed .drain)
    (hlimit : 0 < c.self.rekeyMessageLimit) : (c.completeInitial candidate).self.Rests := by
  have hlike : (c.completeInitial candidate).self.Like (c.self.timeless.established candidate) :=
    Engine.like_of_timeless (congrArg Ctx.self (view_completeInitial c candidate))
  have harmed := armed_completeInitial c candidate
  generalize c.completeInitial candidate = d at hlike harmed ⊢
  refine ⟨⟨hlike.phase_eq, hlike.run_eq.trans hrun, ?_, ?_, ?_, ?_, ?_⟩, ?_, ?_⟩
  · rw [hlike.active_eq]
    rfl
  · simp [harmed]
  · simp [harmed]
  · simp [harmed]
  · have hnone : d.self.draining = none := hlike.draining_eq.trans hdraining
    simp [harmed, hnone, hdrain]
  · simp [harmed]
  · intro _
    rw [hlike.messages_eq, hlike.limit_eq]
    exact hlimit

/-- The branch of `completeRekey` in which the candidate replaces the active session. -/
def promote [Primitives] (c : Ctx) (candidate : Candidate) : Ctx :=
  let c := (c.cancel .handshakeFrame).cancel .handshakeTotal
  let replacement := Session.new candidate.keys candidate.role candidate.peer
  let c := c.update fun self => { self with draining := self.active, active := some replacement }
  let c := c.arm .drain rekeyDrainTimeoutSecs
  let c := c.arm .rekeyDue rekeyIntervalSecs
  let c := c.update fun self =>
    { self with
      messages := 0
      rekeyBlocked := false
      lateRekeyFrames := 0
      consecutiveRekeyRejections := 0 }
  c.push (.notify .rekeyCompleted)

theorem armed_promote [Primitives] (c : Ctx) (candidate : Candidate) (kind : DeadlineKind) :
    (c.promote candidate).self.Armed kind ↔
      kind = .rekeyDue ∨ kind = .drain ∨ kind ≠ .handshakeTotal ∧ kind ≠ .handshakeFrame ∧ c.self.Armed kind := by
  rw [promote]
  rw [armed_push, armed_update, armed_arm, armed_arm, armed_update, armed_cancel, armed_cancel]
  · exact fun _ => rfl
  · exact fun _ => rfl

theorem completeRekey_of_accepts [Primitives] (c : Ctx) (candidate : Candidate)
    (h : c.self.acceptsCandidate candidate) : c.completeRekey candidate = c.promote candidate := by
  obtain ⟨active, ha, hp, hi⟩ := h
  rw [completeRekey, promote]
  simp only [ha, Option.any_some, hp, hi, ne_eq, not_false_eq_true, and_self, decide_true,
    not_true_eq_false, if_false]

theorem completeRekey_rests [Primitives] (candidate : Candidate) (hphase : c.self.phase = .established)
    (hrun : c.self.run = none) (hactive : c.self.active.isSome) (hsas : ¬ c.self.Armed .sasDecision)
    (hdrain : c.self.Armed .drain ↔ c.self.draining.isSome) (hlimit : 0 < c.self.rekeyMessageLimit) :
    (c.completeRekey candidate).self.Rests := by
  by_cases haccepts : c.self.acceptsCandidate candidate
  · have hlike : (c.completeRekey candidate).self.Like (c.self.timeless.promoted candidate) :=
      Engine.like_of_timeless (congrArg Ctx.self (view_completeRekey c candidate haccepts))
    have harmed := armed_promote c candidate
    rw [completeRekey_of_accepts c candidate haccepts] at hlike ⊢
    generalize c.promote candidate = d at hlike harmed ⊢
    have hdraining : d.self.draining = c.self.active := hlike.draining_eq
    refine ⟨⟨hlike.phase_eq.trans hphase, hlike.run_eq.trans hrun, ?_, ?_, ?_, ?_, ?_⟩, ?_, ?_⟩
    · rw [hlike.active_eq]
      rfl
    · simp [harmed]
    · simp [harmed]
    · simp [harmed, hsas]
    · simp [harmed, hdraining, hactive]
    · simp [harmed]
    · intro _
      rw [hlike.messages_eq, hlike.limit_eq]
      exact hlimit
  · rw [completeRekey_of_not_accepts c candidate haccepts]
    exact failRekey_rests _ hphase hactive hsas hdrain

section Starting

variable [Ciborium] [Primitives]

theorem startInitiatorRun_deadlines (c : Ctx) (purpose : HandshakePurpose) (previous : Option SessionId) :
    (c.startInitiatorRun purpose previous).2.self.deadlines = c.self.deadlines := by
  rw [startInitiatorRun]
  dsimp only [freshKeys]
  split
  · rfl
  · split
    · rfl
    · rfl

omit [Ciborium] [Primitives] in
theorem rekeys_of_armed {e d : Engine} {run : Run} (h : e.Between) (hphase : d.phase = e.phase)
    (hrun : d.run = some run) (hpurpose : run.purpose = .rekey) (hstep : run.step ≠ .sas)
    (hactive : d.active = e.active) (hdraining : d.draining = e.draining)
    (harmed : ∀ kind, d.Armed kind ↔ kind = .handshakeFrame ∨ kind = .handshakeTotal ∨ e.Armed kind) :
    d.Rekeys run := by
  refine ⟨hphase.trans h.phase_eq, hrun, hpurpose, hstep, ?_, ?_, ?_, ?_, ?_⟩
  · rw [hactive]
    exact h.active_some
  · simp [harmed]
  · simp [harmed]
  · simp [harmed, h.sas]
  · rw [hdraining]
    simp [harmed, h.drain]

omit [Ciborium] [Primitives] in
theorem armed_rearm_bounded (c : Ctx) {purpose : HandshakePurpose} {step : Step}
    (h : FrameBounded purpose step) (kind : DeadlineKind) :
    (c.rearmFrameDeadline purpose step).self.Armed kind ↔ kind = .handshakeFrame ∨ c.self.Armed kind := by
  rw [armed_rearm]
  by_cases hkind : kind = .handshakeFrame
  · simp [hkind, h]
  · simp [hkind]

theorem beginRekey_continues {c : Ctx} (h : c.self.Between) : c.beginRekey.self.Continues := by
  obtain ⟨active, hactive⟩ := Option.isSome_iff_exists.1 h.active_some
  have hid : c.self.activeSessionId = some active.id := by
    rw [Engine.activeSessionId, hactive]
    rfl
  have hfree : ¬ (c.self.phase ≠ .established ∨ c.self.run.isSome) := by simp [h.phase_eq, h.run_eq]
  have hdeadlines := startInitiatorRun_deadlines c .rekey (some active.id)
  have hcases := startInitiatorRun_cases c .rekey (some active.id)
  rw [beginRekey]
  rw [if_neg hfree, hid]
  dsimp only
  generalize c.startInitiatorRun .rekey (some active.id) = started at hdeadlines hcases ⊢
  obtain ⟨result, d⟩ := started
  have harmed : ∀ kind, d.self.Armed kind ↔ c.self.Armed kind := Engine.armed_congr hdeadlines
  obtain ⟨error, hresult, hview, -⟩ | ⟨helloFrame, frame, -, -, hresult, hview⟩ := hcases
  · obtain rfl : result = .error error := hresult
    have hlike := Engine.like_of_timeless (congrArg Ctx.self hview)
    left
    refine failRekey_rests error (hlike.phase_eq.trans h.phase_eq) ?_ (mt (harmed _).1 h.sas) ?_
    · rw [hlike.active_eq]
      exact h.active_some
    · rw [hlike.draining_eq]
      exact (harmed _).trans h.drain
  · obtain rfl : result = .ok () := hresult
    have hframe : FrameBounded .rekey .hello := .inl rfl
    have hself := (rearm_timeless (d.arm .handshakeTotal handshakeTotalTimeoutSecs) .rekey .hello).trans
      (congrArg Ctx.self hview)
    have hlike := Engine.like_of_timeless hself
    right
    refine ⟨_, rekeys_of_armed h hlike.phase_eq hlike.run_eq rfl (by decide : Step.hello ≠ .sas)
      hlike.active_eq hlike.draining_eq ?_⟩
    intro kind
    rw [armed_push, armed_rearm_bounded _ hframe, armed_arm, harmed]

theorem startResponderRun_failed (c : Ctx) (commit : CommitPayload) (emitRekeyStarted : Bool) (error : Error)
    (h : (c.startResponderRun commit emitRekeyStarted).1 = .error error) :
    (c.startResponderRun commit emitRekeyStarted).2.self.deadlines = c.self.deadlines := by
  rw [startResponderRun] at h ⊢
  dsimp only [freshKeys] at h ⊢
  split at h
  · rfl
  · cases h

theorem armed_startResponderRun (c : Ctx) (commit : CommitPayload) (emitRekeyStarted : Bool)
    (h : (c.startResponderRun commit emitRekeyStarted).1 = .ok ()) (kind : DeadlineKind) :
    (c.startResponderRun commit emitRekeyStarted).2.self.Armed kind ↔
      kind = .handshakeFrame ∨ (commit.purpose = .rekey ∧ kind = .handshakeTotal) ∨ c.self.Armed kind := by
  have hframe (purpose : HandshakePurpose) : FrameBounded purpose .reveal := .inr (.inr (.inl rfl))
  rw [startResponderRun] at h ⊢
  dsimp only [freshKeys] at h ⊢
  split at h
  · cases h
  · dsimp only
    rw [armed_rearm_bounded _ (hframe _)]
    apply or_congr_right
    split_ifs with hpurpose
    · rw [armed_push, armed_arm]
      simp only [hpurpose, true_and]
      exact Iff.rfl
    · rw [armed_arm]
      simp only [hpurpose, true_and]
      exact Iff.rfl
    · simp only [hpurpose, false_and, false_or]
      exact Iff.rfl

theorem onIncomingCommit_continues {c : Ctx} (h : c.self.Between) {commit : CommitPayload}
    (hsuite : commit.cipherSuite = 1) (hpurpose : commit.purpose = .rekey)
    (hsome : commit.previousSessionId.isSome) (hprevious : commit.previousSessionId = c.self.activeSessionId)
    (emitRekeyStarted : Bool) : (c.onIncomingCommit commit emitRekeyStarted).self.Continues := by
  have hgood : ¬ (commit.cipherSuite ≠ 1 ∨ commit.purpose ≠ .rekey ∨
      ¬ decide (commit.previousSessionId.isSome ∧ commit.previousSessionId = c.self.activeSessionId) = true) := by
    simp [hsuite, hpurpose, hsome, ← hprevious]
  rw [onIncomingCommit]
  dsimp only
  rw [if_neg hgood]
  have hfailed := startResponderRun_failed
    (c.update fun self => { self with consecutiveRekeyRejections := 0 }) commit emitRekeyStarted
  have harmed := armed_startResponderRun
    (c.update fun self => { self with consecutiveRekeyRejections := 0 }) commit emitRekeyStarted
  have hcases := startResponderRun_cases
    (c.update fun self => { self with consecutiveRekeyRejections := 0 }) commit emitRekeyStarted hsuite
  generalize Ctx.startResponderRun _ commit emitRekeyStarted = started at hfailed harmed hcases ⊢
  obtain ⟨result, d⟩ := started
  obtain ⟨error, hresult, hview, -⟩ | ⟨helloFrame, -, hresult, hview⟩ := hcases
  · obtain rfl : result = .error error := hresult
    have hlike := Engine.like_of_timeless (congrArg Ctx.self hview)
    have hsame : ∀ kind, d.self.Armed kind ↔ c.self.Armed kind := Engine.armed_congr (hfailed error rfl)
    left
    refine failRekey_rests error (hlike.phase_eq.trans h.phase_eq) ?_ (mt (hsame _).1 h.sas) ?_
    · rw [hlike.active_eq]
      exact h.active_some
    · rw [hlike.draining_eq]
      exact (hsame _).trans h.drain
  · obtain rfl : result = .ok () := hresult
    have hlike := Engine.like_of_timeless (congrArg Ctx.self hview)
    right
    refine ⟨_, rekeys_of_armed h hlike.phase_eq hlike.run_eq hpurpose (by decide : Step.reveal ≠ .sas)
      hlike.active_eq hlike.draining_eq ?_⟩
    intro kind
    have hkind := harmed rfl kind
    simp only [hpurpose, true_and] at hkind
    exact hkind

theorem maybeTriggerRekey_continues {c : Ctx} (h : c.self.Between) (hdue : c.self.Armed .rekeyDue) :
    c.maybeTriggerRekey.self.Continues := by
  rw [maybeTriggerRekey]
  split_ifs with hready
  · exact beginRekey_continues h
  · left
    refine ⟨h, hdue, ?_⟩
    intro hfree
    by_contra hlimit
    apply hready
    exact ⟨Nat.le_of_not_lt hlimit, by simp [hfree], by simp [h.run_eq]⟩

end Starting

end Ctx

end Ruxmsg

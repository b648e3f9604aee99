import Ruxmsg.Postures
import Ruxmsg.Driver

namespace Ruxmsg

open Library.Machine Library.Timers

variable [Ciborium] [Primitives]

namespace Ctx

section Driving

/-- A frame put through the run in progress, as the deadlines see it. -/
theorem driveRun_leaves {c : Ctx} {run : Run} (hrun : c.self.run = some run) (hf : run.Fits)
    (hsas : c.self.Armed .sasDecision ↔ run.step = .sas)
    (hwait : run.step = .sas → run.purpose = .initial ∧ ¬ c.self.Armed .handshakeFrame) (frame : Frame) :
    (∃ error d, c.driveRun frame = (.error error, d) ∧ d.self.Like { c.self with run := none } ∧
      ∀ kind, d.self.Armed kind ↔ c.self.Armed kind) ∨
    (∃ candidate d, c.driveRun frame = (.ok (some candidate), d) ∧ d.self.Like { c.self with run := none } ∧
      ∀ kind, d.self.Armed kind ↔ c.self.Armed kind) ∨
    (∃ run' d, c.driveRun frame = (.ok none, d) ∧ d.self.Like { c.self with run := some run' } ∧
      run'.purpose = run.purpose ∧ (run'.step = .sas → run.purpose = .initial) ∧ Times c.self run' d.self) := by
  have hleaves := stepRun_leaves (e := c.self) (c.update fun self => { self with run := none }) run frame
    rfl hsas hwait
  obtain ⟨es, -, hview⟩ := stepRun_yields (c.update fun self => { self with run := none }) run frame hf
  have hself := congrArg Ctx.self hview
  rw [driveRun]
  rw [hrun]
  dsimp only
  generalize (c.update fun self => { self with run := none }).stepRun run frame = stepped at hleaves hself ⊢
  have hlike : stepped.2.self.Like { c.self with run := none } := by
    obtain ⟨h1, h2, h3, h4, h5, h6, h7⟩ := Engine.like_of_timeless hself
    exact ⟨h1, h2, h3, h4, h5, h6, h7⟩
  cases hleaves with
  | failed deadlines => exact .inl ⟨_, _, rfl, hlike, Engine.armed_congr deadlines⟩
  | ended deadlines => exact .inr (.inl ⟨_, _, rfl, hlike, Engine.armed_congr deadlines⟩)
  | @goesOn run' d purpose_eq sas times =>
      refine .inr (.inr ⟨run', _, rfl, ?_, purpose_eq, sas, times⟩)
      exact ⟨hlike.phase_eq, rfl, hlike.active_eq, hlike.draining_eq, hlike.messages_eq, hlike.limit_eq,
        hlike.blocked_eq⟩

end Driving

section Established

omit [Ciborium] [Primitives] in
theorem rekeys_of_times {e d : Engine} {run run' : Run} (h : e.Rekeys run) (hlike : d.Like { e with run := some run' })
    (hpurpose : run'.purpose = run.purpose) (hstep : run'.step = .sas → run.purpose = .initial)
    (htimes : Times e run' d) : d.Rekeys run' := by
  have hrekey : run'.purpose = .rekey := hpurpose.trans h.purpose_eq
  have hne : run'.step ≠ .sas := by
    intro hsas
    cases h.purpose_eq.symm.trans (hstep hsas)
  refine ⟨hlike.phase_eq.trans h.phase_eq, hlike.run_eq, hrekey, hne, ?_, ?_, ?_, ?_, ?_⟩
  · rw [hlike.active_eq]
    exact h.active_some
  · exact (htimes .handshakeTotal).2 h.total
  · exact (htimes .handshakeFrame).2 (.inl hrekey)
  · exact mt (htimes .sasDecision).1 hne
  · rw [hlike.draining_eq]
    exact (htimes .drain).trans h.drain

omit [Ciborium] [Primitives] in
theorem shakes_of_times {e d : Engine} {run' : Run} (hphase : e.phase = .handshaking) (hdraining : e.draining = none)
    (htotal : e.Armed .handshakeTotal) (hdrain : ¬ e.Armed .drain)
    (hlike : d.Like { e with run := some run' }) (hpurpose : run'.purpose = .initial)
    (htimes : Times e run' d) : d.Shakes run' where
  phase_eq := hlike.phase_eq.trans hphase
  run_eq := hlike.run_eq
  purpose_eq := hpurpose
  draining_eq := hlike.draining_eq.trans hdraining
  total := (htimes .handshakeTotal).2 htotal
  frame := htimes .handshakeFrame
  sas := htimes .sasDecision
  drain := mt (htimes .drain).1 hdrain

omit [Primitives] in
theorem terminate_still (c : Ctx) (cause : CloseCause) (reason : Option CloseReason) :
    (c.terminate cause reason).self.Still := by
  rw [terminate_self]
  exact ⟨.inr rfl, rfl, rfl, rfl⟩

omit [Ciborium] [Primitives] in
theorem noteRekeyRejection_continues {c : Ctx} (h : c.self.Continues) : c.noteRekeyRejection.self.Continues := by
  have hnoted : Engine.Continues { c.self with
      consecutiveRekeyRejections := c.self.consecutiveRekeyRejections + 1 } :=
    h.congr ⟨rfl, rfl, rfl, rfl⟩ rfl rfl rfl rfl
  rw [noteRekeyRejection]
  dsimp only
  split_ifs
  · exact hnoted
  · exact hnoted
  · exact h

theorem resolveGlare_continues {c : Ctx} {run : Run} (hf : c.self.Fits) (h : c.self.Rekeys run) {frame : Frame}
    (htype : frame.messageType = .rekey) {commit : CommitPayload} (hd : CommitPayload.decode frame = .ok commit) :
    (c.resolveGlare commit).self.Continues := by
  obtain ⟨hsuite, hfits, hct⟩ := CommitPayload.decode_eq_ok hd
  have hpurpose : commit.purpose = .rekey := by
    cases hc : commit.purpose with
    | rekey => rfl
    | initial =>
        rw [hc, htype] at hct
        cases hct
  have hsome : commit.previousSessionId.isSome := by
    rw [hpurpose] at hfits
    exact hfits
  have hrekeys : c.self.Continues := .inr ⟨run, h⟩
  rw [resolveGlare]
  split
  · exact hrekeys
  · split_ifs with hother
    · exact noteRekeyRejection_continues hrekeys
    · exact hrekeys
    · have hprevious : commit.previousSessionId = c.self.activeSessionId := by
        rw [not_not, h.run_eq, Option.bind_some] at hother
        exact hother.trans (hf.run_previous run h.run_eq h.purpose_eq)
      have harmed (kind : DeadlineKind) : (((c.update fun self => { self with run := none }).cancel
          .handshakeFrame).cancel .handshakeTotal).self.Armed kind ↔
            kind ≠ .handshakeTotal ∧ kind ≠ .handshakeFrame ∧ c.self.Armed kind := by
        rw [armed_cancel, armed_cancel]
        exact Iff.rfl
      refine onIncomingCommit_continues (c := ((c.update fun self => { self with run := none }).cancel
        .handshakeFrame).cancel .handshakeTotal) ⟨h.phase_eq, rfl, h.active_some, ?_, ?_, ?_, ?_⟩ hsuite hpurpose
        hsome hprevious false
      · simp [harmed]
      · simp [harmed]
      · simp [harmed, h.sas]
      · have hdrain : (DeadlineKind.drain ≠ .handshakeTotal ∧ DeadlineKind.drain ≠ .handshakeFrame ∧
            c.self.Armed .drain) ↔ c.self.draining.isSome := by
          simpa using h.drain
        exact (harmed .drain).trans hdrain

theorem onRekeyFrame_posture {c : Ctx} (hf : c.self.Fits) (h : c.self.Continues)
    (hlimit : 0 < c.self.rekeyMessageLimit) (frame : Frame) : (c.onRekeyFrame frame).self.Posture := by
  rw [onRekeyFrame]
  obtain h | ⟨run, h⟩ := h
  · rw [h.between.run_eq]
    dsimp only
    split
    next commit hcommit =>
        obtain ⟨-, hsuite, hpurpose, hsome, hprevious⟩ := incomingRekey_eq_some c.self hcommit
        apply Engine.Continues.posture
        refine onIncomingCommit_continues (c := c.update fun self => { self with lateRekeyFrames := 0 }) ?_
          hsuite hpurpose hsome hprevious true
        exact h.between.congr ⟨rfl, rfl, rfl, rfl⟩ fun _ _ => Iff.rfl
    · split_ifs
      · apply Engine.Continues.posture
        exact Engine.Continues.congr (.inl h) ⟨rfl, rfl, rfl, rfl⟩ rfl rfl rfl rfl
      · exact .still (terminate_still c _ _)
      · exact (noteRekeyRejection_continues (.inl h)).posture
  · rw [h.run_eq]
    dsimp only
    split
    next commit hglare =>
        split_ifs at hglare with hhello
        · apply Engine.Continues.posture
          refine resolveGlare_continues hf h hhello.2.2 ?_
          cases hd : CommitPayload.decode frame with
          | error error =>
              rw [hd] at hglare
              cases hglare
          | ok commit' =>
              rw [hd] at hglare
              rw [Option.some.inj hglare]
    · have hsas : c.self.Armed .sasDecision ↔ run.step = .sas := iff_of_false h.sas h.step_ne
      obtain ⟨error, d, hdrive, hlike, harmed⟩ | ⟨candidate, d, hdrive, hlike, harmed⟩ |
        ⟨run', d, hdrive, hlike, hpurpose, hstep, htimes⟩ :=
        driveRun_leaves h.run_eq (hf.run_fits run h.run_eq) hsas (fun hs => absurd hs h.step_ne) frame
      · rw [hdrive]
        refine .rests (failRekey_rests error (hlike.phase_eq.trans h.phase_eq) ?_ (mt (harmed _).1 h.sas) ?_)
        · rw [hlike.active_eq]
          exact h.active_some
        · rw [hlike.draining_eq]
          exact (harmed _).trans h.drain
      · rw [hdrive]
        refine .rests (completeRekey_rests candidate (hlike.phase_eq.trans h.phase_eq) hlike.run_eq ?_
          (mt (harmed _).1 h.sas) ?_ ?_)
        · rw [hlike.active_eq]
          exact h.active_some
        · rw [hlike.draining_eq]
          exact (harmed _).trans h.drain
        · rw [hlike.limit_eq]
          exact hlimit
      · rw [hdrive]
        exact .rekeys run' (rekeys_of_times h hlike hpurpose hstep htimes)

omit [Ciborium] [Primitives] in
theorem drained_continues {e e' : Engine} (h : e.Continues) (hlike : e'.Like { e with draining := none })
    (harmed : ∀ kind, e'.Armed kind ↔ kind ≠ .drain ∧ e.Armed kind) : e'.Continues := by
  have hnone : ¬ e'.draining.isSome := by simp [hlike.draining_eq]
  obtain h | ⟨run, h⟩ := h
  · left
    refine ⟨⟨hlike.phase_eq.trans h.between.phase_eq, hlike.run_eq.trans h.between.run_eq, ?_, ?_, ?_, ?_, ?_⟩,
      ?_, ?_⟩
    · rw [hlike.active_eq]
      exact h.between.active_some
    · simp [harmed, h.between.total]
    · simp [harmed, h.between.frame]
    · simp [harmed, h.between.sas]
    · simp [harmed, hnone]
    · simp [harmed, h.due]
    · rw [hlike.blocked_eq, hlike.messages_eq, hlike.limit_eq]
      exact h.trigger
  · right
    refine ⟨run, hlike.phase_eq.trans h.phase_eq, hlike.run_eq.trans h.run_eq, h.purpose_eq, h.step_ne, ?_, ?_, ?_,
      ?_, ?_⟩
    · rw [hlike.active_eq]
      exact h.active_some
    · simp [harmed, h.total]
    · simp [harmed, h.frame]
    · simp [harmed, h.sas]
    · simp [harmed, hnone]

omit [Primitives] in
theorem onCloseFrame_posture {c : Ctx} (h : c.self.Posture) (frame : Frame) :
    (c.onCloseFrame frame).self.Posture := by
  rw [onCloseFrame]
  split
  · exact .still (terminate_still c _ _)
  · split_ifs with hphase
    · exact .still (terminate_still c _ _)
    · exact h
    · split
      · exact h
      · split_ifs
        · exact .still (terminate_still c _ _)
        next hdrainee =>
            have hdraining : c.self.draining.isSome := by
              rw [← Option.isSome_map (f := Session.id)]
              exact Option.isSome_of_mem hdrainee.symm
            apply Engine.Continues.posture
            refine drained_continues (h.continues_of_draining hdraining) ⟨rfl, rfl, rfl, rfl, rfl, rfl, rfl⟩ ?_
            exact fun kind => armed_cancel (c.update fun self => { self with draining := none }) .drain kind
        · exact h

/-- A message that has been counted may be the last one before a rekey. -/
theorem counted_continues {c : Ctx} (h : c.self.Continues) : c.countMessage.maybeTriggerRekey.self.Continues := by
  obtain h | ⟨run, h⟩ := h
  · refine maybeTriggerRekey_continues (c := c.countMessage) ?_ h.due
    exact h.between.congr ⟨rfl, rfl, rfl, rfl⟩ fun _ _ => Iff.rfl
  · have hbusy : ¬ (c.countMessage.self.rekeyMessageLimit ≤ c.countMessage.self.messages ∧
        ¬ c.countMessage.self.rekeyBlocked ∧ c.countMessage.self.run.isNone) := by
      have hrun : c.countMessage.self.run = some run := h.run_eq
      simp [hrun]
    rw [maybeTriggerRekey]
    rw [if_neg hbusy]
    exact .inr ⟨run, h.congr ⟨rfl, rfl, rfl, rfl⟩ fun _ _ => Iff.rfl⟩

theorem onSend_posture {c : Ctx} (h : c.self.Posture) (content : List UInt8) :
    (c.onSend content).self.Posture := by
  rw [onSend]
  by_cases hlarge : maxContent < content.length
  · rw [if_pos hlarge]
    exact h
  · rw [if_neg hlarge]
    split
    · exact h
    next active hactive =>
        split_ifs at hactive with hphase
        have hsender (sender : DataSender) :
            (c.update fun self => { self with active := some { active with sender } }).self.Continues := by
          refine (h.continues hphase).congr ⟨rfl, rfl, ?_, rfl⟩ rfl rfl rfl rfl
          rw [hactive]
          rfl
        dsimp only
        split
        · refine (counted_continues ?_).posture
          exact hsender _
        · exact (hsender _).posture
        · exact .still (terminate_still _ _ _)

theorem onData_posture {c : Ctx} (h : c.self.Continues) (frame : Frame) : (c.onData frame).self.Posture := by
  rw [onData]
  split
  · exact h.posture
  next active hactive =>
      have hreceiver (receiver : DataReceiver) :
          (c.update fun self => { self with active := some { active with receiver } }).self.Continues := by
        refine h.congr ⟨rfl, rfl, ?_, rfl⟩ rfl rfl rfl rfl
        rw [hactive]
        rfl
      dsimp only
      split
      · refine (counted_continues ?_).posture
        exact hreceiver _
      · have hd := hreceiver (active.receiver.decrypt frame).2
        generalize c.update _ = d at hd ⊢
        cases hdraining : d.self.draining with
        | none =>
            dsimp only
            split_ifs
            · exact .still (terminate_still d _ _)
            · exact hd.posture
        | some draining =>
            have hdrainee : (d.update fun self => { self with
                draining := some { draining with receiver := (draining.receiver.decrypt frame).2 } }).self.Continues := by
              refine hd.congr ⟨rfl, rfl, rfl, ?_⟩ rfl rfl rfl rfl
              rw [hdraining]
              rfl
            dsimp only
            split
            · exact hdrainee.posture
            · split_ifs
              · exact .still (terminate_still _ _ _)
              · exact hdrainee.posture

end Established

section Handshaking

omit [Primitives] in
theorem failInitial_still (c : Ctx) (error : Error) : (c.failInitial error).self.Still := by
  rw [failInitial]
  exact terminate_still c _ _

theorem start_posture {c : Ctx} (h : c.self.Posture) : c.start.self.Posture := by
  rw [start]
  by_cases hphase : c.self.phase ≠ .idle
  · rw [if_pos hphase]
    exact h
  · rw [if_neg hphase]
    rw [not_not] at hphase
    have hstill := h.still_of_idle hphase
    have hnone := hstill.unarmed
    have hbegun (kind : DeadlineKind) : ((c.update fun self => { self with phase := .handshaking }).arm
        .handshakeTotal handshakeTotalTimeoutSecs).self.Armed kind ↔ kind = .handshakeTotal := by
      rw [armed_arm]
      exact or_iff_left (hnone kind)
    dsimp only
    split_ifs
    · have hdeadlines := startInitiatorRun_deadlines ((c.update fun self => { self with
        phase := .handshaking }).arm .handshakeTotal handshakeTotalTimeoutSecs) .initial none
      have hcases := startInitiatorRun_cases ((c.update fun self => { self with
        phase := .handshaking }).arm .handshakeTotal handshakeTotalTimeoutSecs) .initial none
      generalize Ctx.startInitiatorRun _ .initial none = started at hdeadlines hcases ⊢
      obtain ⟨result, d⟩ := started
      obtain ⟨error, hresult, -, -⟩ | ⟨helloFrame, frame, -, -, hresult, hview⟩ := hcases
      · obtain rfl : result = .error error := hresult
        exact .still (failInitial_still d error)
      · obtain rfl : result = .ok () := hresult
        have hlike := Engine.like_of_timeless
          ((rearm_timeless d .initial .hello).trans (congrArg Ctx.self hview))
        have hframe : FrameBounded .initial .hello := .inr (.inl rfl)
        have harmed (kind : DeadlineKind) : (d.rearmFrameDeadline .initial .hello).self.Armed kind ↔
            kind = .handshakeFrame ∨ kind = .handshakeTotal := by
          rw [armed_rearm_bounded _ hframe, Engine.armed_congr hdeadlines, hbegun]
        refine .shakes _ ⟨hlike.phase_eq, hlike.run_eq, rfl, hlike.draining_eq.trans hstill.draining_eq, ?_, ?_, ?_,
          ?_⟩
        · simp [harmed]
        · exact iff_of_true ((harmed _).2 (.inl rfl)) hframe
        · refine iff_of_false (by simp [harmed]) ?_
          exact (by decide : Step.hello ≠ .sas)
        · simp [harmed]
    · have harmed (kind : DeadlineKind) : (((c.update fun self => { self with phase := .handshaking }).arm
          .handshakeTotal handshakeTotalTimeoutSecs).arm .handshakeFrame
            handshakeFrameTimeoutSecs).self.Armed kind ↔ kind = .handshakeFrame ∨ kind = .handshakeTotal := by
        rw [armed_arm, hbegun]
      refine .listens ⟨rfl, hstill.run_eq, hstill.draining_eq, ?_, ?_, ?_, ?_⟩
      · exact (harmed _).2 (.inr rfl)
      · exact (harmed _).2 (.inl rfl)
      · exact mt (harmed _).1 (by decide)
      · exact mt (harmed _).1 (by decide)

theorem acceptFirstCommit_shakes {c : Ctx} (h : c.self.Listens) (frame : Frame) :
    (∃ error d, c.acceptFirstCommit frame = (.error error, d)) ∨
      ∃ run d, c.acceptFirstCommit frame = (.ok (), d) ∧ d.self.Shakes run := by
  rw [acceptFirstCommit]
  split
  · exact .inl ⟨_, _, rfl⟩
  next commit _ =>
      split_ifs with hbad
      · exact .inl ⟨_, _, rfl⟩
      · simp only [not_or, not_not] at hbad
        obtain ⟨hsuite, hpurpose, -⟩ := hbad
        have harmed := armed_startResponderRun c commit true
        have hcases := startResponderRun_cases c commit true hsuite
        generalize c.startResponderRun commit true = started at harmed hcases ⊢
        obtain ⟨result, d⟩ := started
        obtain ⟨error, hresult, -, -⟩ | ⟨helloFrame, -, hresult, hview⟩ := hcases
        · exact .inl ⟨error, d, Prod.ext hresult rfl⟩
        · obtain rfl : result = .ok () := hresult
          have hlike := Engine.like_of_timeless (congrArg Ctx.self hview)
          have hkind (kind : DeadlineKind) : d.self.Armed kind ↔ kind = .handshakeFrame ∨ c.self.Armed kind := by
            have hkind := harmed rfl kind
            simpa only [hpurpose, reduceCtorEq, false_and, false_or] using hkind
          refine .inr ⟨_, d, rfl, hlike.phase_eq.trans h.phase_eq, hlike.run_eq, hpurpose,
            hlike.draining_eq.trans h.draining_eq, ?_, ?_, ?_, ?_⟩
          · exact (hkind _).2 (.inr h.total)
          · exact iff_of_true ((hkind _).2 (.inl rfl)) (.inr (.inr (.inl rfl)))
          · refine iff_of_false (by simp [hkind, h.sas]) ?_
            exact (by decide : Step.reveal ≠ .sas)
          · simp [hkind, h.drain]

theorem onFrameHandshaking_posture {c : Ctx} (hf : c.self.Fits) (h : c.self.Posture)
    (hphase : c.self.phase = .handshaking) (hlimit : 0 < c.self.rekeyMessageLimit) (frame : Frame) :
    (c.onFrameHandshaking frame).self.Posture := by
  rw [onFrameHandshaking]
  by_cases hclose : frame.messageType = .close
  · rw [if_pos hclose]
    exact onCloseFrame_posture h frame
  · rw [if_neg hclose]
    rcases h.handshaking hphase with h | ⟨run, h⟩
    · simp only [h.run_eq, Option.isNone_none, if_true]
      obtain ⟨error, d, haccept⟩ | ⟨run, d, haccept, hshakes⟩ := acceptFirstCommit_shakes h frame
      · rw [haccept]
        exact .still (failInitial_still d error)
      · rw [haccept]
        exact .shakes run hshakes
    · have hwait : run.step = .sas → run.purpose = .initial ∧ ¬ c.self.Armed .handshakeFrame := by
        intro hstep
        refine ⟨h.purpose_eq, ?_⟩
        rw [h.frame, h.purpose_eq, hstep]
        simp [FrameBounded]
      simp only [h.run_eq, Option.isNone_some, Bool.false_eq_true, if_false]
      obtain ⟨error, d, hdrive, hlike, harmed⟩ | ⟨candidate, d, hdrive, hlike, harmed⟩ |
        ⟨run', d, hdrive, hlike, hpurpose, hstep, htimes⟩ :=
        driveRun_leaves h.run_eq (hf.run_fits run h.run_eq) h.sas hwait frame
      · rw [hdrive]
        exact .still (failInitial_still d error)
      · rw [hdrive]
        refine .rests (completeInitial_rests candidate hlike.run_eq (hlike.draining_eq.trans h.draining_eq)
          (mt (harmed _).1 h.drain) ?_)
        rw [hlike.limit_eq]
        exact hlimit
      · rw [hdrive]
        exact .shakes run' (shakes_of_times h.phase_eq h.draining_eq h.total h.drain hlike
          (hpurpose.trans h.purpose_eq) htimes)

theorem onSas_posture {c : Ctx} (h : c.self.Posture) (hlimit : 0 < c.self.rekeyMessageLimit) (approved : Bool) :
    (c.onSas approved).self.Posture := by
  rw [onSas]
  split
  · exact h
  next run hrun =>
      by_cases hother : c.self.phase ≠ .handshaking ∨ run.step ≠ .sas
      · rw [if_pos hother]
        exact h
      · rw [if_neg hother]
        rw [not_or, not_not, not_not] at hother
        dsimp only
        by_cases happroved : ¬ approved
        · rw [if_pos happroved]
          exact .still (terminate_still _ _ _)
        · rw [if_neg happroved]
          obtain ⟨run', h⟩ : ∃ run, c.self.Shakes run := by
            rcases h.handshaking hother.1 with h | h
            · exact absurd (hrun.symm.trans h.run_eq) (by simp)
            · exact h
          obtain rfl : run' = run := Option.some.inj (h.run_eq.symm.trans hrun)
          have harmed (kind : DeadlineKind) : (c.cancel .sasDecision).self.Armed kind ↔
              kind ≠ .sasDecision ∧ c.self.Armed kind := armed_cancel c .sasDecision kind
          have hleaves := afterApproval_leaves (e := (c.cancel .sasDecision).self)
            ((c.cancel .sasDecision).update fun self => { self with run := none }) run' rfl (by simp [harmed])
          obtain ⟨es, -, hview⟩ := afterApproval_yields
            ((c.cancel .sasDecision).update fun self => { self with run := none }) run'
          have hself := congrArg Ctx.self hview
          generalize Ctx.afterApproval _ run' = stepped at hleaves hself ⊢
          have hlike := Engine.like_of_timeless hself
          cases hleaves with
          | @failed error d _ => exact .still (failInitial_still d error)
          | @ended run'' candidate d deadlines =>
              have hdrain : ¬ d.self.Armed .drain := by
                rw [Engine.armed_congr deadlines]
                simp [harmed, h.drain]
              refine .rests (completeInitial_rests candidate hlike.run_eq
                (hlike.draining_eq.trans h.draining_eq) hdrain ?_)
              rw [hlike.limit_eq]
              exact hlimit
          | @goesOn run'' d purpose_eq sas times =>
              refine .shakes run'' (shakes_of_times (e := (c.cancel .sasDecision).self) h.phase_eq h.draining_eq
                ?_ ?_ ?_ (purpose_eq.trans h.purpose_eq) times)
              · simp [harmed, h.total]
              · simp [harmed, h.drain]
              · exact ⟨hlike.phase_eq, rfl, hlike.active_eq, hlike.draining_eq, hlike.messages_eq, hlike.limit_eq,
                  hlike.blocked_eq⟩

end Handshaking

section Firing

omit [Ciborium] [Primitives] in
theorem armed_release {c : Ctx} (hs : ∃ t, c.self.Shows t) {id : DeadlineId} {entry : DeadlineId × DeadlineKind}
    (hfind : c.self.deadlines.find? (·.1 = id) = some entry) (kind : DeadlineKind) :
    (c.release id).self.Armed kind ↔ kind ≠ entry.2 ∧ c.self.Armed kind := by
  obtain ⟨t, hs⟩ := hs
  have hid : entry.1 = id := by simpa using List.find?_some hfind
  have hmem : entry ∈ t.entries := by
    rw [← hs.deadlines_eq]
    exact List.mem_of_find?_eq_some hfind
  have hkeep := t.mem_kinds_keep hmem kind
  rw [← t.eraseP_entries, hid, ← hs.deadlines_eq] at hkeep
  exact hkeep

omit [Primitives] in
/-- A run that waited for too long is given up, as the connection is when it is the first. -/
theorem late_posture {c d : Ctx} {kind : DeadlineKind} (h : c.self.Posture) (hlike : d.self.Like c.self)
    (hkind : c.self.Armed kind) (hrun : kind = .handshakeFrame ∨ kind = .handshakeTotal)
    (harmed : ∀ kind', d.self.Armed kind' ↔ kind' ≠ kind ∧ c.self.Armed kind') :
    (if d.self.phase = .handshaking then d.terminate .timeout (some .resourceLimit)
      else if d.self.run.isSome then d.failRekey .transportTimeout else d).self.Posture := by
  split_ifs with hphase hsome
  · exact .still (terminate_still d _ _)
  · cases h with
    | rekeys run h =>
        refine .rests (failRekey_rests _ (hlike.phase_eq.trans h.phase_eq) ?_ ?_ ?_)
        · rw [hlike.active_eq]
          exact h.active_some
        · simp [harmed, h.sas]
        · rw [hlike.draining_eq, harmed]
          refine (and_iff_right ?_).trans h.drain
          rcases hrun with rfl | rfl <;> decide
    | still h => simp [hlike.run_eq, h.run_eq] at hsome
    | listens h => exact absurd (hlike.phase_eq.trans h.phase_eq) hphase
    | shakes run h => exact absurd (hlike.phase_eq.trans h.phase_eq) hphase
    | rests h => simp [hlike.run_eq, h.between.run_eq] at hsome
  · cases h with
    | rekeys run h => simp [hlike.run_eq, h.run_eq] at hsome
    | still h => exact absurd hkind (h.unarmed kind)
    | listens h => exact absurd (hlike.phase_eq.trans h.phase_eq) hphase
    | shakes run h => exact absurd (hlike.phase_eq.trans h.phase_eq) hphase
    | rests h =>
        rcases hrun with rfl | rfl
        · exact absurd hkind h.between.frame
        · exact absurd hkind h.between.total

omit [Ciborium] [Primitives] in
theorem continues_of_drain {e : Engine} (h : e.Posture) (hd : e.Armed .drain) : e.Continues := by
  cases h with
  | still h => exact absurd hd (h.unarmed .drain)
  | listens h => exact absurd hd h.drain
  | shakes run h => exact absurd hd h.drain
  | rests h => exact .inl h
  | rekeys run h => exact .inr ⟨run, h⟩

theorem beginRekey_busy {c : Ctx} (h : c.self.phase ≠ .established ∨ c.self.run.isSome) : c.beginRekey = c := by
  rw [beginRekey, if_pos h]

theorem due_posture {c d : Ctx} (h : c.self.Posture) (hs : c.self.Stands d.self) (hkind : c.self.Armed .rekeyDue)
    (harmed : ∀ kind, kind ≠ .rekeyDue → (d.self.Armed kind ↔ c.self.Armed kind)) :
    d.beginRekey.self.Posture := by
  cases h with
  | still h => exact absurd hkind (h.unarmed .rekeyDue)
  | listens h =>
      have hphase : d.self.phase ≠ .established := by simp [hs.phase_eq, h.phase_eq]
      rw [beginRekey_busy (.inl hphase)]
      exact .listens (h.congr hs harmed)
  | shakes run h =>
      have hphase : d.self.phase ≠ .established := by simp [hs.phase_eq, h.phase_eq]
      rw [beginRekey_busy (.inl hphase)]
      exact .shakes run (h.congr hs harmed)
  | rests h => exact (beginRekey_continues (h.between.congr hs harmed)).posture
  | rekeys run h =>
      have hrun : d.self.run.isSome := by simp [hs.run_eq, h.run_eq]
      rw [beginRekey_busy (.inr hrun)]
      exact .rekeys run (h.congr hs harmed)

theorem onTimeout_posture {c : Ctx} (h : c.self.Posture) (hs : ∃ t, c.self.Shows t) (id : DeadlineId) :
    (c.onTimeout id).self.Posture := by
  rw [onTimeout]
  split
  · exact h
  next fired kind hfind =>
      have harmed : ∀ kind', (c.release id).self.Armed kind' ↔ kind' ≠ kind ∧ c.self.Armed kind' :=
        armed_release hs hfind
      have hkind : c.self.Armed kind := List.mem_map_of_mem (List.mem_of_find?_eq_some hfind)
      have hlike : (c.release id).self.Like c.self := ⟨rfl, rfl, rfl, rfl, rfl, rfl, rfl⟩
      cases kind with
      | handshakeFrame => exact late_posture h hlike hkind (.inl rfl) harmed
      | handshakeTotal => exact late_posture h hlike hkind (.inr rfl) harmed
      | sasDecision => exact .still (terminate_still (c.release id) _ _)
      | rekeyDue =>
          refine due_posture h ⟨rfl, rfl, rfl, rfl⟩ hkind ?_
          intro kind hne
          exact (harmed kind).trans (and_iff_right hne)
      | drain =>
          apply Engine.Continues.posture
          exact drained_continues (continues_of_drain h hkind) ⟨rfl, rfl, rfl, rfl, rfl, rfl, rfl⟩ harmed

end Firing

theorem onFrame_posture {c : Ctx} (hf : c.self.Fits) (h : c.self.Posture)
    (hlimit : 0 < c.self.rekeyMessageLimit) (frame : Frame) : (c.onFrame frame).self.Posture := by
  rw [onFrame]
  split
  · exact .still (terminate_still c _ _)
  · exact .still (terminate_still c _ _)
  next hphase => exact onFrameHandshaking_posture hf h hphase hlimit frame
  next hphase =>
      have hcontinues := h.continues hphase
      split
      · exact onData_posture hcontinues frame
      · exact onCloseFrame_posture h frame
      · exact onRekeyFrame_posture hf hcontinues hlimit frame
      · exact onRekeyFrame_posture hf hcontinues hlimit frame
      · exact .still (terminate_still c _ _)

theorem requestRekey_posture {c : Ctx} (h : c.self.Posture) : c.beginRekey.self.Posture := by
  by_cases hbusy : c.self.phase ≠ .established ∨ c.self.run.isSome
  · rw [beginRekey_busy hbusy]
    exact h
  · rw [not_or, not_not] at hbusy
    obtain h | ⟨run, h⟩ := h.continues hbusy.1
    · exact (beginRekey_continues h.between).posture
    · exact absurd (by simp [h.run_eq] : c.self.run.isSome) hbusy.2

end Ctx

theorem Begins.limit_eq {e e' : Engine} {es : List Effect} (h : Begins e es e') :
    e'.rekeyMessageLimit = e.rekeyMessageLimit := by
  cases h with
  | skipped => rfl
  | began => rfl
  | failed => rfl

theorem Moves.limit_eq {e e' : Engine} {i : Input} {es : List Effect} (h : Moves e i es e') :
    e'.rekeyMessageLimit = e.rekeyMessageLimit := by
  cases h with
  | began _ begins => exact begins.limit_eq
  | sent _ _ _ begins => exact begins.limit_eq
  | delivered _ _ _ _ begins => exact begins.limit_eq
  | _ => rfl

theorem handle_limit {e : Engine} (hf : e.Fits) (input : Input) :
    (e.handle input).1.rekeyMessageLimit = e.rekeyMessageLimit :=
  (handle_moves hf input).limit_eq

theorem handle_posture {e : Engine} (hf : e.Fits) (ht : e.Timed) (hlimit : 0 < e.rekeyMessageLimit)
    (h : e.Posture) (input : Input) : (e.handle input).1.Posture := by
  by_cases hclosed : e.phase = .closed
  · rw [handle_closed hclosed]
    exact h
  · rw [Engine.handle, if_neg hclosed]
    cases input with
    | start => exact Ctx.start_posture h
    | frameReceived frame => exact Ctx.onFrame_posture (c := { self := e, out := [] }) hf h hlimit frame
    | sasDecision approved => exact Ctx.onSas_posture (c := { self := e, out := [] }) h hlimit approved
    | localSend content => exact Ctx.onSend_posture (c := { self := e, out := [] }) h content
    | localClose reason => exact .still (Ctx.terminate_still { self := e, out := [] } .localClose (some reason))
    | requestRekey => exact Ctx.requestRekey_posture (c := { self := e, out := [] }) h
    | timeout id => exact Ctx.onTimeout_posture (c := { self := e, out := [] }) h ht.shows id
    | transportClosed => exact .still (Ctx.terminate_still { self := e, out := [] } .transportLost none)
    | malformed respond => exact .still (Ctx.terminate_still { self := e, out := [] } .protocolError _)

section Reachable

variable (role : HelloRole) (identity : IdentityKeypair) (entropy : Entropy) (limit : Nat)

theorem reachable_posture (inputs : List Input) :
    (final Engine.handle (Engine.configured role identity entropy limit) inputs).Posture := by
  have hinvariant := final_invariant Engine.handle
    (fun e => e.Fits ∧ e.Timed ∧ 0 < e.rekeyMessageLimit ∧ e.Posture) ?_
    (s := Engine.configured role identity entropy limit) ?_ inputs
  · exact hinvariant.2.2.2
  · rintro e input ⟨hf, ht, hlimit, h⟩
    refine ⟨handle_fits hf input, handle_timed ht input, ?_, handle_posture hf ht hlimit h input⟩
    rw [handle_limit hf input]
    exact hlimit
  · refine ⟨Engine.configured_fits role identity entropy limit, reachable_timed role identity entropy limit [],
      ?_, .still ⟨.inl rfl, rfl, rfl, rfl⟩⟩
    exact lt_of_lt_of_le Nat.zero_lt_one (le_max_right limit 1)

omit [Ciborium] [Primitives] in
/-- The deadlines of each posture, read off the phase, the run and the sessions. -/
theorem Engine.Posture.deadlines {e : Engine} (h : e.Posture) :
    (e.Armed .handshakeTotal ↔
      e.phase = .handshaking ∨ ∃ run, e.run = some run ∧ run.purpose = .rekey) ∧
    (e.Armed .sasDecision ↔ e.phase = .handshaking ∧ ∃ run, e.run = some run ∧ run.step = .sas) ∧
    (e.Armed .handshakeFrame ↔
      (∃ run, e.run = some run ∧ run.purpose = .rekey) ∨
        (e.phase = .handshaking ∧ (e.run = none ∨ ∃ run, e.run = some run ∧
          (run.step = .hello ∨ run.step = .reveal ∨ run.step = .confirmResp ∨ run.step = .confirmInit)))) ∧
    (e.Armed .drain ↔ e.draining.isSome) ∧
    (e.phase = .established → e.run = none → e.Armed .rekeyDue) := by
  cases h with
  | still h =>
      have hphase : e.phase ≠ .handshaking ∧ e.phase ≠ .established := by
        rcases h.phase with hp | hp
        · simp [hp]
        · simp [hp]
      simp [h.unarmed, h.run_eq, h.draining_eq, hphase.1, hphase.2]
  | listens h => simp [h.phase_eq, h.run_eq, h.draining_eq, h.total, h.frame, h.sas, h.drain]
  | shakes run h =>
      simp [h.phase_eq, h.run_eq, h.draining_eq, h.total, h.frame, h.sas, h.drain, h.purpose_eq, FrameBounded]
  | rests h =>
      have hb := h.between
      simp [hb.phase_eq, hb.run_eq, hb.total, hb.frame, hb.sas, hb.drain, h.due]
  | rekeys run h =>
      simp [h.phase_eq, h.run_eq, h.total, h.frame, h.sas, h.drain, h.purpose_eq]

/-- The armed deadlines match the state exactly. -/
theorem deadlines_match_state (inputs : List Input) :
    let e := final Engine.handle (Engine.configured role identity entropy limit) inputs
    (e.Armed .handshakeTotal ↔
      e.phase = .handshaking ∨ ∃ run, e.run = some run ∧ run.purpose = .rekey) ∧
    (e.Armed .sasDecision ↔ e.phase = .handshaking ∧ ∃ run, e.run = some run ∧ run.step = .sas) ∧
    (e.Armed .handshakeFrame ↔
      (∃ run, e.run = some run ∧ run.purpose = .rekey) ∨
        (e.phase = .handshaking ∧ (e.run = none ∨ ∃ run, e.run = some run ∧
          (run.step = .hello ∨ run.step = .reveal ∨ run.step = .confirmResp ∨ run.step = .confirmInit)))) ∧
    (e.Armed .drain ↔ e.draining.isSome) ∧
    (e.phase = .established → e.run = none → e.Armed .rekeyDue) :=
  (reachable_posture role identity entropy limit inputs).deadlines

end Reachable

end Ruxmsg

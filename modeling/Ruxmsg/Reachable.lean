import Ruxmsg.Moves
import Ruxmsg.Library.Machine

namespace Ruxmsg

open Library.Machine

variable [Ciborium] [Primitives]

/-- The fields of a run that are settled when it begins. -/
structure Run.Continues (run run' : Run) : Prop where
  purpose : run'.purpose = run.purpose
  role : run'.role = run.role
  previous : run'.previous = run.previous
  ephemeral : run'.ephemeral = run.ephemeral
  localHello : run'.localHello = run.localHello
  commit : run'.commit = run.commit

omit [Ciborium] [Primitives] in
theorem Run.Continues.refl (run : Run) : run.Continues run := ⟨rfl, rfl, rfl, rfl, rfl, rfl⟩

omit [Ciborium] [Primitives] in
theorem Run.Continues.trans {a b c : Run} (h : a.Continues b) (k : b.Continues c) : a.Continues c :=
  ⟨k.purpose.trans h.purpose, k.role.trans h.role, k.previous.trans h.previous,
    k.ephemeral.trans h.ephemeral, k.localHello.trans h.localHello, k.commit.trans h.commit⟩

theorem Steps.continues {e : Engine} {run run' : Run} {frame : Frame} {es : List Effect}
    {candidate : Option Candidate} (h : Steps e run frame es (.ok (run', candidate))) :
    run.Continues run' := by
  cases h <;> exact ⟨rfl, rfl, rfl, rfl, rfl, rfl⟩

theorem Approves.continues {e : Engine} {run run' : Run} {es : List Effect}
    {candidate : Option Candidate} (h : Approves e run es (.ok (run', candidate))) :
    run.Continues run' := by
  cases h <;> exact ⟨rfl, rfl, rfl, rfl, rfl, rfl⟩

theorem Steps.fits {e : Engine} {run run' : Run} {frame : Frame} {es : List Effect}
    (hf : run.Fits) (h : Steps e run frame es (.ok (run', none))) : run'.Fits := by
  cases h with
  | helloSas hs | revealSas hs => exact ⟨by simp, by simp, by simp, hf.early_role⟩
  | helloAuth hs | revealAuth hs | authResp hs | authInit hs =>
      refine ⟨by simp, by simp, ?_, hf.early_role⟩
      intro he
      exact absurd (hf.early_step he) (by rw [hs]; decide)
  | early hs hr => exact ⟨by simp [hs], by simp [hs], by simp [hs], by simp [hr]⟩

theorem Approves.fits {e : Engine} {run run' : Run} {es : List Effect} (hf : run.Fits)
    (h : Approves e run es (.ok (run', none))) : run'.Fits := by
  cases h with
  | initiator hr ht hh he =>
      refine ⟨by simp, by simp, ?_, hf.early_role⟩
      intro h
      cases hr.symm.trans (hf.early_role h)
  | responder hr ht hh he => exact ⟨by simp, by simp, by simp [he], by simp [he]⟩
  | early => exact ⟨by simp, by simp, by simp, by simp⟩

omit [Ciborium] in
theorem Engine.initiatorRun_fits (e : Engine) (purpose : HandshakePurpose)
    (previous : Option SessionId) (helloFrame : Frame) :
    (e.initiatorRun purpose previous helloFrame).Fits :=
  ⟨by simp [initiatorRun], by simp [initiatorRun], by simp [initiatorRun], by simp [initiatorRun]⟩

omit [Ciborium] in
theorem Engine.responderRun_fits (e : Engine) (commit : CommitPayload) :
    (e.responderRun commit).Fits :=
  ⟨by simp [responderRun], by simp [responderRun], by simp [responderRun], by simp [responderRun]⟩

omit [Ciborium] [Primitives] in
theorem Engine.Fits.purpose_initial {e : Engine} (hf : e.Fits) {run : Run} (hrun : e.run = some run)
    (hp : e.phase = .handshaking) : run.purpose = .initial := by
  obtain ⟨-, h⟩ | ⟨h, -⟩ := hf.run_purpose run hrun
  · exact h
  · cases hp.symm.trans h

omit [Ciborium] [Primitives] in
theorem Engine.Fits.purpose_rekey {e : Engine} (hf : e.Fits) {run : Run} (hrun : e.run = some run)
    (hp : e.phase = .established) : run.purpose = .rekey := by
  obtain ⟨h, -⟩ | ⟨-, h⟩ := hf.run_purpose run hrun
  · cases hp.symm.trans h
  · exact h

omit [Ciborium] [Primitives] in
/-- A change that keeps the phase, the ids and the run, but for a step of it. -/
theorem Engine.Fits.of_run {e e' : Engine} (hf : e.Fits)
    (hrun : ∀ run', e'.run = some run' → ∃ run, e.run = some run ∧ run.Continues run' ∧ run'.Fits)
    (hp : e'.phase = e.phase) (hid : e'.activeSessionId = e.activeSessionId)
    (hd : e'.draining.isSome → e.draining.isSome) : e'.Fits := by
  have hsome : e'.active.isSome = e.active.isSome := by
    simpa [Engine.activeSessionId] using congrArg Option.isSome hid
  refine ⟨?_, ?_, ?_, ?_, ?_⟩
  · intro run' h
    obtain ⟨-, -, -, h⟩ := hrun run' h
    exact h
  · intro run' h
    obtain ⟨run, hr, hc, -⟩ := hrun run' h
    rw [hp, hc.purpose]
    exact hf.run_purpose run hr
  · intro run' h hk
    obtain ⟨run, hr, hc, -⟩ := hrun run' h
    rw [hid, hc.previous]
    exact hf.run_previous run hr (hc.purpose ▸ hk)
  · rw [hsome, hp]
    exact hf.active_iff
  · intro h
    rw [hp]
    exact hf.draining_phase (hd h)

omit [Ciborium] [Primitives] in
theorem Engine.fits_of_some {e : Engine} {run : Run} (hrun : e.run = some run) (hf : run.Fits)
    (hpurpose : (e.phase = .handshaking ∧ run.purpose = .initial) ∨
      (e.phase = .established ∧ run.purpose = .rekey))
    (hprev : run.purpose = .rekey → run.previous = e.activeSessionId)
    (ha : e.active.isSome ↔ e.phase = .established)
    (hd : e.draining.isSome → e.phase = .established) : e.Fits := by
  refine ⟨?_, ?_, ?_, ha, hd⟩ <;>
  · intro run' h
    obtain rfl := Option.some.inj (hrun.symm.trans h)
    assumption

omit [Ciborium] [Primitives] in
theorem Engine.fits_of_none {e : Engine} (hrun : e.run = none)
    (ha : e.active.isSome ↔ e.phase = .established)
    (hd : e.draining.isSome → e.phase = .established) : e.Fits := by
  refine ⟨?_, ?_, ?_, ha, hd⟩ <;>
  · intro run' h
    rw [hrun] at h
    cases h

theorem Begins.fits {e e' : Engine} {es : List Effect} (hf : e.Fits) (h : Begins e es e') :
    e'.Fits := by
  cases h with
  | skipped => exact hf
  | began hp hr ha hh hc =>
      refine Engine.fits_of_some rfl (e.initiatorRun_fits ..) (.inr ⟨hp, rfl⟩) ?_ hf.active_iff
        hf.draining_phase
      intro
      simp [Engine.initiatorRun, Engine.activeSessionId, Engine.drawn, ha]
  | failed error hp hr => exact Engine.fits_of_none rfl hf.active_iff hf.draining_phase

omit [Ciborium] [Primitives] in
theorem Engine.Fits.of_sessions {e e' : Engine} (hf : e.Fits) (hrun : e'.run = e.run)
    (hp : e'.phase = e.phase) (hid : e'.activeSessionId = e.activeSessionId)
    (hd : e'.draining.isSome → e.draining.isSome) : e'.Fits := by
  refine hf.of_run ?_ hp hid hd
  intro run h
  rw [hrun] at h
  exact ⟨run, h, .refl run, hf.run_fits run h⟩

theorem Moves.fits {e e' : Engine} {i : Input} {es : List Effect} (hf : e.Fits)
    (h : Moves e i es e') : e'.Fits := by
  have hidle : ∀ p, e.phase ≠ .established → p ≠ .established →
      ((e.active.isSome ↔ p = Phase.established) ∧ (e.draining.isSome → p = .established)) := by
    intro p he hp
    have ha : ¬ e.active.isSome := fun h => he (hf.active_iff.1 h)
    have hd : ¬ e.draining.isSome := fun h => he (hf.draining_phase h)
    simp [ha, hd, hp]
  have hset : ∀ {active active' : Session}, e.active = some active → active'.id = active.id →
      Engine.activeSessionId { e.timeless with active := some active' } = e.activeSessionId := by
    intro active active' ha hid
    simp [Engine.activeSessionId, ha, hid]
  cases h with
  | noted => exact hf.of_sessions rfl rfl rfl id
  | closed => exact Engine.fits_of_none rfl (by simp [Engine.ended]) (by simp [Engine.ended])
  | started hp =>
      obtain ⟨ha, hd⟩ := hidle .handshaking (by simp [hp]) (by decide)
      refine ⟨?_, ?_, ?_, ha, hd⟩
      · exact hf.run_fits
      · intro run h
        exfalso
        obtain ⟨h, -⟩ | ⟨h, -⟩ := hf.run_purpose run h <;>
        · rw [hp] at h
          cases h
      · exact hf.run_previous
  | committed hp hh hc =>
      obtain ⟨ha, hd⟩ := hidle .handshaking (by simp [hp]) (by decide)
      refine Engine.fits_of_some rfl (e.initiatorRun_fits ..) (.inl ⟨rfl, rfl⟩) ?_ ha hd
      intro h
      cases h
  | accepted hp hr hacc hpurpose hprev =>
      refine Engine.fits_of_some rfl (e.responderRun_fits _) (.inl ⟨hp, hpurpose⟩) ?_ hf.active_iff
        hf.draining_phase
      intro h
      cases hpurpose.symm.trans h
  | stepped hp hr hs =>
      refine hf.of_run ?_ rfl rfl id
      intro run' h
      obtain rfl := Option.some.inj h
      exact ⟨_, hr, hs.continues, hs.fits (hf.run_fits _ hr)⟩
  | approved hp hr hstep happ =>
      refine hf.of_run ?_ rfl rfl id
      intro run' h
      obtain rfl := Option.some.inj h
      exact ⟨_, hr, happ.continues, happ.fits (hf.run_fits _ hr)⟩
  | established => exact Engine.fits_of_none rfl (by simp [Engine.established]) (by simp [Engine.established])
  | promoted hp => exact Engine.fits_of_none rfl (by simp [Engine.promoted, Engine.timeless, hp]) (by intro; exact hp)
  | abandoned hp => exact Engine.fits_of_none rfl hf.active_iff hf.draining_phase
  | refused hp => exact Engine.fits_of_none rfl hf.active_iff hf.draining_phase
  | began _ hb =>
      refine Begins.fits ?_ hb
      exact hf.of_sessions rfl rfl rfl id
  | answered hp hr hacc hpurpose hsome hprev =>
      exact Engine.fits_of_some rfl (e.responderRun_fits _) (.inr ⟨hp, hpurpose⟩) (fun _ => hprev)
        hf.active_iff hf.draining_phase
  | yielded hp _ _ _ _ _ _ _ hpurpose _ hprev =>
      exact Engine.fits_of_some rfl (e.responderRun_fits _) (.inr ⟨hp, hpurpose⟩) (fun _ => hprev)
        hf.active_iff hf.draining_phase
  | sent _ ha _ hb =>
      refine Begins.fits ?_ hb
      exact hf.of_sessions rfl rfl (hset ha rfl) id
  | unsent _ ha => exact hf.of_sessions rfl rfl (hset ha rfl) id
  | delivered _ _ ha _ hb =>
      refine Begins.fits ?_ hb
      exact hf.of_sessions rfl rfl (hset ha rfl) id
  | drained _ _ ha _ hd => exact hf.of_sessions rfl rfl (hset ha rfl) (by simp [hd])
  | rejected _ _ ha => exact hf.of_sessions rfl rfl (hset ha rfl) (by simp)
  | ended => exact hf.of_sessions rfl rfl rfl (by simp)

def Engine.configured (role : HelloRole) (identity : IdentityKeypair) (entropy : Entropy)
    (limit : Nat) : Engine :=
  (Engine.new role identity entropy).setRekeyMessageLimit limit

omit [Ciborium] [Primitives] in
theorem Engine.configured_fits (role : HelloRole) (identity : IdentityKeypair) (entropy : Entropy)
    (limit : Nat) : (Engine.configured role identity entropy limit).Fits :=
  Engine.fits_of_none rfl (by simp [configured, new, setRekeyMessageLimit])
    (by simp [configured, new, setRekeyMessageLimit])

omit [Ciborium] [Primitives] in
theorem Engine.fits_timeless {e : Engine} : e.timeless.Fits ↔ e.Fits :=
  ⟨fun h => ⟨h.1, h.2, h.3, h.4, h.5⟩, fun h => ⟨h.1, h.2, h.3, h.4, h.5⟩⟩

theorem handle_fits {e : Engine} (hf : e.Fits) (i : Input) : (e.handle i).1.Fits :=
  Engine.fits_timeless.1 ((handle_moves hf i).fits hf)

/-- The fitting of run and sessions holds in every reachable state. -/
theorem reachable_fits (role : HelloRole) (identity : IdentityKeypair) (entropy : Entropy)
    (limit : Nat) (inputs : List Input) :
    (final Engine.handle (Engine.configured role identity entropy limit) inputs).Fits :=
  final_invariant Engine.handle Engine.Fits (fun _ i hf => handle_fits hf i)
    (Engine.configured_fits role identity entropy limit) inputs

end Ruxmsg

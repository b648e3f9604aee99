import Ruxmsg.Deadlines
import Ruxmsg.Forward
import Ruxmsg.Promotion

namespace Ruxmsg

open Library.Machine

variable [Ciborium] [Primitives]

theorem Begins.not_completed {e e' : Engine} {es : List Effect} (h : Begins e es e') :
    .notify .rekeyCompleted ∉ es := by
  cases h with
  | skipped => simp
  | began => simp
  | failed => simp

theorem Moves.completed {e e' : Engine} {i : Input} {es : List Effect} (h : Moves e i es e')
    (hm : .notify .rekeyCompleted ∈ es) : e'.messages = 0 ∧ e'.rekeyBlocked = false := by
  cases h with
  | promoted => exact ⟨rfl, rfl⟩
  | noted quiet =>
      obtain ⟨event, he, heq⟩ := List.mem_map.1 hm
      rw [Effect.notify.inj heq] at he
      cases quiet _ he
  | closed prior =>
      rcases List.mem_append.1 hm with hm | hm
      · exact absurd hm (not_notify_of_ofStep prior.effects)
      · cases notify_mem_closing hm
  | stepped _ _ steps => exact absurd hm (not_notify_of_ofStep steps.effects)
  | approved _ _ _ approves => exact absurd hm (not_notify_of_ofStep approves.effects)
  | established _ _ steps =>
      rcases List.mem_append.1 hm with hm | hm
      · exact absurd hm (not_notify_of_ofStep steps.effects)
      · simp at hm
  | abandoned _ abandons =>
      rcases List.mem_append.1 hm with hm | hm
      · exact absurd hm (not_notify_of_ofStep abandons.effects)
      · simp at hm
  | began _ begins => exact absurd hm begins.not_completed
  | sent _ _ _ begins =>
      rcases List.mem_cons.1 hm with hm | hm
      · cases hm
      · exact absurd hm begins.not_completed
  | delivered _ _ _ _ begins =>
      rcases List.mem_cons.1 hm with hm | hm
      · cases hm
      · exact absurd hm begins.not_completed
  | _ => simp at hm

theorem handle_completed {e : Engine} (hf : e.Fits) {i : Input}
    (hm : .notify .rekeyCompleted ∈ (e.handle i).2) :
    (e.handle i).1.messages = 0 ∧ (e.handle i).1.rekeyBlocked = false :=
  (handle_moves hf i).completed ((mem_visible rfl _).2 hm)

def CommitsTo (frame : Frame) (id : SessionId) : Prop :=
  ∃ commit, CommitPayload.decode frame = .ok commit ∧ commit.purpose = .rekey ∧
    commit.previousSessionId = some id

theorem beginRekey_commits (rfc : Ciborium.Rfc8949) {c : Ctx} (h : c.self.Between) :
    ∃ active frame, c.self.active = some active ∧ .send frame ∈ c.beginRekey.out ∧ CommitsTo frame active.id ∧
      c.beginRekey.self.rekeyBlocked = c.self.rekeyBlocked := by
  obtain ⟨active, hactive⟩ := Option.isSome_iff_exists.1 h.active_some
  have hid : c.self.activeSessionId = some active.id := by
    rw [Engine.activeSessionId, hactive]
    rfl
  have hfree : ¬ (c.self.phase ≠ .established ∨ c.self.run.isSome) := by simp [h.phase_eq, h.run_eq]
  obtain ⟨error, -, -, hno⟩ | ⟨helloFrame, frame, -, hcommit, hresult, hview⟩ :=
    Ctx.startInitiatorRun_cases c .rekey (some active.id)
  · obtain ⟨helloFrame, hh⟩ := c.view.self.hello_isOk rfc .initiator .rekey (some active.id) rfl
    obtain ⟨frame, hc⟩ := commitOf_isOk rfc .rekey (some active.id) rfl helloFrame
    exact absurd hc (hno helloFrame frame hh)
  · refine ⟨active, frame, hactive, ?_⟩
    have hbegun : c.beginRekey.view = ⟨{ c.view.self.drawn with
        run := some (c.view.self.initiatorRun .rekey (some active.id) helloFrame) },
          c.view.out ++ [.send frame] ++ [.notify .rekeyStarted]⟩ := by
      rw [Ctx.beginRekey, if_neg hfree, hid]
      dsimp only
      rw [← Prod.mk.eta (p := c.startInitiatorRun .rekey (some active.id)), hresult]
      dsimp only
      rw [Ctx.view_push _ _ rfl, Ctx.view_rearmFrameDeadline, Ctx.view_arm, hview]
      rfl
    have hout := congrArg Ctx.out hbegun
    refine ⟨?_, ⟨_, CommitPayload.decode_encode rfc hcommit, rfl, rfl⟩, ?_⟩
    · rw [← mem_visible rfl c.beginRekey.out]
      change _ ∈ c.beginRekey.view.out
      rw [hout]
      simp
    · exact (Engine.like_of_timeless (congrArg Ctx.self hbegun)).blocked_eq

omit [Ciborium] [Primitives] in
theorem find_deadline {e : Engine} (ht : e.Timed) {entry : DeadlineId × DeadlineKind} (he : entry ∈ e.deadlines) :
    e.deadlines.find? (·.1 = entry.1) = some entry := by
  obtain ⟨t, hs⟩ := ht.shows
  rw [hs.deadlines_eq] at he ⊢
  have hnodup := t.ids_nodup
  rw [Library.Timers.Table.ids] at hnodup
  cases hfind : t.entries.find? (·.1 = entry.1) with
  | none => exact absurd (decide_eq_true rfl) (List.find?_eq_none.1 hfind entry he)
  | some found =>
      have hid : found.1 = entry.1 := by simpa using List.find?_some hfind
      rw [List.inj_on_of_nodup_map hnodup (List.mem_of_find?_eq_some hfind) he hid]

/-- The deadline of the next rekey begins it, unless there is one already. -/
theorem due_commits (rfc : Ciborium.Rfc8949) {e : Engine} (ht : e.Timed) (h : e.Rests) {id : DeadlineId}
    (hid : (id, .rekeyDue) ∈ e.deadlines) :
    ∃ active frame, e.active = some active ∧ .send frame ∈ (e.handle (.timeout id)).2 ∧
      CommitsTo frame active.id ∧ (e.handle (.timeout id)).1.rekeyBlocked = false := by
  have hopen : e.phase ≠ .closed := by simp [h.between.phase_eq]
  have hfind := find_deadline ht hid
  have harmed := Ctx.armed_release (c := { self := e, out := [] }) ht.shows hfind
  have hbetween : Engine.Between ((Ctx.release { self := e, out := [] } id).update fun self =>
      { self with rekeyBlocked := false, lateRekeyFrames := 0 }).self := by
    refine h.between.congr ⟨rfl, rfl, rfl, rfl⟩ ?_
    intro kind hne
    exact (harmed kind).trans (and_iff_right hne)
  obtain ⟨active, frame, hactive, hsend, hcommits, hblocked⟩ := beginRekey_commits rfc hbetween
  have hhandle : e.handle (.timeout id) =
      (((Ctx.release { self := e, out := [] } id).update fun self =>
          { self with rekeyBlocked := false, lateRekeyFrames := 0 }).beginRekey.self,
        ((Ctx.release { self := e, out := [] } id).update fun self =>
          { self with rekeyBlocked := false, lateRekeyFrames := 0 }).beginRekey.out) := by
    rw [Engine.handle, if_neg hopen]
    dsimp only
    rw [Ctx.onTimeout, hfind]
    rfl
  rw [hhandle]
  exact ⟨active, frame, hactive, hsend, hcommits, hblocked⟩

/-- Rekey triggers are never lost. -/
theorem rekey_triggers_kept (rfc : Ciborium.Rfc8949) (role : HelloRole) (identity : IdentityKeypair)
    (entropy : Entropy) (limit : Nat) (inputs : List Input) :
    let e := final Engine.handle (Engine.configured role identity entropy limit) inputs
    (e.phase = .established → e.run = none →
      ((e.rekeyBlocked = false ∧ e.messages < e.rekeyMessageLimit) ∨
        (e.rekeyBlocked = true ∧ e.Armed .rekeyDue)) ∧
      ∀ id, (id, .rekeyDue) ∈ e.deadlines →
        ∃ active frame, e.active = some active ∧ .send frame ∈ (e.handle (.timeout id)).2 ∧
          CommitsTo frame active.id ∧ (e.handle (.timeout id)).1.rekeyBlocked = false) ∧
    ∀ i, .notify .rekeyCompleted ∈ (e.handle i).2 →
      (e.handle i).1.messages = 0 ∧ (e.handle i).1.rekeyBlocked = false := by
  intro e
  have hf := reachable_fits role identity entropy limit inputs
  have ht := reachable_timed role identity entropy limit inputs
  refine ⟨?_, fun i => handle_completed hf⟩
  intro hphase hrun
  obtain h | ⟨run, h⟩ := (reachable_posture role identity entropy limit inputs).continues hphase
  · refine ⟨?_, fun id hid => due_commits rfc ht h hid⟩
    cases hblocked : e.rekeyBlocked with
    | false => exact .inl ⟨rfl, h.trigger hblocked⟩
    | true => exact .inr ⟨rfl, h.due⟩
  · exact absurd (hrun.symm.trans h.run_eq) (by simp)

end Ruxmsg

namespace Ruxmsg

open Library.Machine Sample

/-- After an honest handshake the deadline of the first rekey sends its COMMIT. -/
theorem rekey_triggers_kept_sample :
    ∃ id active frame, (final Engine.handle dialer handshake.leftInputs).active = some active ∧
      .send frame ∈ ((final Engine.handle dialer handshake.leftInputs).handle (.timeout id)).2 ∧
      CommitsTo frame active.id := by
  have hrun : (final Engine.handle dialer handshake.leftInputs).run.isNone = true := by decide +kernel
  have hphase : (final Engine.handle dialer handshake.leftInputs).phase = .established := by decide +kernel
  have harmed : ((final Engine.handle dialer handshake.leftInputs).deadlines.any (·.2 = .rekeyDue)) = true := by
    decide +kernel
  obtain ⟨⟨id, kind⟩, hid, hkind⟩ := List.any_eq_true.1 harmed
  obtain rfl : kind = .rekeyDue := of_decide_eq_true hkind
  have hkept := (rekey_triggers_kept Ciborium.reference_rfc8949 .initiator leftIdentity (entropy 100)
    rekeyMessageLimit handshake.leftInputs).1 hphase (Option.isNone_iff_eq_none.1 hrun)
  obtain ⟨active, frame, ha, hs, hc, -⟩ := hkept.2 id hid
  exact ⟨id, active, frame, ha, hs, hc⟩

end Ruxmsg

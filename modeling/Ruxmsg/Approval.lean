import Ruxmsg.Pinned
import Ruxmsg.Reference

namespace Ruxmsg

open Library.Machine

variable [Ciborium] [Primitives]

omit [Primitives] in
/-- What an engine must not do before its user has compared the SAS words. -/
def Effect.Withheld : Effect → Prop
  | .send frame => (∃ auth, HandshakePayload.decode frame = .ok auth) ∨
      frame.messageType = .sessionConfirm ∨ frame.messageType = .data
  | .deliver _ => True
  | .notify (.established _) => True
  | _ => False

omit [Ciborium] [Primitives] in
/-- The engine waits for the SAS decision of its initial handshake. -/
def Engine.Waits (e : Engine) : Prop :=
  e.phase = .handshaking ∧ ∃ run, e.run = some run ∧ run.step = .sas

omit [Ciborium] [Primitives] in
structure Engine.Unapproved (e : Engine) : Prop where
  phase : e.phase ≠ .established
  step : ∀ run, e.run = some run → run.step = .hello ∨ run.step = .reveal ∨ run.step = .sas

omit [Ciborium] [Primitives] in
theorem Engine.Unapproved.active {e : Engine} (hf : e.Fits) (h : e.Unapproved) : e.active = none := by
  by_contra ha
  exact h.phase (hf.active_iff.1 (Option.isSome_iff_ne_none.2 ha))

omit [Ciborium] [Primitives] in
theorem messageTypeForPurpose_ne_sessionConfirm (purpose : HandshakePurpose) :
    messageTypeForPurpose purpose ≠ .sessionConfirm := by
  cases purpose <;> decide

section Frames

variable (rfc : Ciborium.Rfc8949)

include rfc

omit [Primitives] in
theorem HelloPayload.not_withheld {p : HelloPayload} {frame : Frame} (h : p.encode = .ok frame) :
    ¬ (Effect.send frame).Withheld := by
  have hc := carries_of_encode rfc h
  rintro (⟨auth, ha⟩ | ht | ht)
  · exact not_auth hc auth ha
  · rw [hc.type] at ht
    exact messageTypeForPurpose_ne_sessionConfirm _ ht
  · rw [hc.type] at ht
    exact messageTypeForPurpose_ne_data _ ht

omit [Primitives] in
theorem CommitPayload.not_withheld {p : CommitPayload} {frame : Frame} (h : p.encode = .ok frame) :
    ¬ (Effect.send frame).Withheld := by
  have hc := carries_of_encode rfc h
  rintro (⟨auth, ha⟩ | ht | ht)
  · exact not_auth hc auth ha
  · rw [hc.type] at ht
    exact messageTypeForPurpose_ne_sessionConfirm _ ht
  · rw [hc.type] at ht
    exact messageTypeForPurpose_ne_data _ ht

end Frames

omit [Primitives] in
theorem closing_not_withheld {e : Engine} {cause : CloseCause} {notifyPeer : Option CloseReason} :
    ∀ effect ∈ e.closing cause notifyPeer, ¬ effect.Withheld := by
  intro effect hm hw
  cases effect with
  | send frame =>
      have ht := send_mem_closing hm
      obtain ⟨auth, ha⟩ | h | h := hw
      · simp only [HandshakePayload.decode, bind_eq_ok, ensure_eq_ok] at ha
        obtain ⟨_, hh, -⟩ := ha
        rw [ht] at hh
        cases hh
      · rw [ht] at h
        cases h
      · rw [ht] at h
        cases h
  | notify event =>
      obtain rfl := notify_mem_closing hm
      exact hw
  | deliver content =>
      simp only [Engine.closing, List.mem_append, List.mem_cons, reduceCtorEq, List.not_mem_nil,
        or_false] at hm
      split at hm
      next => split at hm <;> simp at hm
      next => cases hm
  | _ => exact hw

/-- A step of an initial run up to the SAS wait withholds what it must, and
stays there. -/
theorem Steps.unapproved (rfc : Ciborium.Rfc8949) {e : Engine} {run : Run} {frame : Frame}
    {es : List Effect} {result : Ctx.Stepped} (hs : run.Sound e) (hp : run.purpose = .initial)
    (hstep : run.step = .hello ∨ run.step = .reveal ∨ run.step = .sas)
    (h : Steps e run frame es result) :
    (∀ effect ∈ es, ¬ effect.Withheld) ∧ ∀ run' candidate, result = .ok (run', candidate) →
      candidate = none ∧ run'.step = .sas := by
  have hkept : ∀ {f : Frame}, run.localHelloFrame = some f → ¬ (Effect.send f).Withheld :=
    fun hk => HelloPayload.not_withheld rfc (hs.kept _ hk)
  have hrekey : run.purpose ≠ .rekey := by simp [hp]
  cases h with
  | helloSas _ _ hk =>
      refine ⟨?_, ?_⟩
      · intro effect hm
        simp only [List.mem_cons, List.not_mem_nil, or_false] at hm
        obtain rfl | rfl := hm
        · exact hkept hk
        · exact id
      · rintro _ _ ⟨⟩
        exact ⟨rfl, rfl⟩
  | helloAuth _ _ _ _ h => exact absurd h hrekey
  | helloFailed _ _ _ hk =>
      refine ⟨?_, by simp⟩
      intro effect hm
      obtain rfl := List.mem_singleton.1 hm
      exact hkept hk
  | revealSas =>
      refine ⟨?_, ?_⟩
      · intro effect hm
        obtain rfl := List.mem_singleton.1 hm
        exact id
      · rintro _ _ ⟨⟩
        exact ⟨rfl, rfl⟩
  | revealAuth _ _ _ _ _ h => exact absurd h hrekey
  | early h =>
      refine ⟨by simp, ?_⟩
      rintro _ _ ⟨⟩
      exact ⟨rfl, h⟩
  | failed => exact ⟨by simp, by simp⟩
  | authResp h | authInit h | confirmResp h | confirmInit h | confirmFailed _ h =>
      rw [h] at hstep
      simp at hstep

theorem Moves.unapproved (rfc : Ciborium.Rfc8949) {e e' : Engine} {i : Input} {es : List Effect}
    (hf : e.Fits) (hpin : e.Pinned) (hu : e.Unapproved) (h : Moves e i es e')
    (hi : ¬ (i = .sasDecision true ∧ e.Waits)) :
    (∀ effect ∈ es, ¬ effect.Withheld) ∧ e'.Unapproved := by
  have hphase : ¬ e.phase = .established := hu.phase
  have hbegins : ∀ {e e' : Engine} {es : List Effect}, Begins e es e' → e.phase ≠ .established →
      es = [] ∧ e' = e := by
    intro e e' es h hne
    cases h with
    | skipped => exact ⟨rfl, rfl⟩
    | began hp => exact absurd hp hne
    | failed _ hp => exact absurd hp hne
  have hstep : ∀ {run frame es result}, e.run = some run → Steps e run frame es result →
      (∀ effect ∈ es, ¬ effect.Withheld) ∧ ∀ run' candidate, result = .ok (run', candidate) →
        candidate = none ∧ run'.step = .sas := by
    intro run frame es result hr hs
    have hp : run.purpose = .initial := by
      obtain ⟨-, h⟩ | ⟨h, -⟩ := hf.run_purpose run hr
      · exact h
      · exact absurd h hphase
    exact hs.unapproved rfc (hpin.run_sound run hr) hp (hu.step run hr)
  cases h with
  | noted quiet =>
      refine ⟨?_, hphase, hu.step⟩
      intro effect hm hw
      obtain ⟨event, he, rfl⟩ := List.mem_map.1 hm
      cases quiet event he <;> exact hw
  | closed prior =>
      refine ⟨?_, Phase.noConfusion, ?_⟩
      · intro effect hm
        obtain hm | hm := List.mem_append.1 hm
        · cases prior with
          | none => cases hm
          | stepped _ _ hr hs => exact (hstep hr hs).1 effect hm
        · exact closing_not_withheld effect hm
      · intro _ h
        cases h
  | started => exact ⟨by simp, Phase.noConfusion, hu.step⟩
  | committed _ hh hc =>
      refine ⟨?_, Phase.noConfusion, ?_⟩
      · intro effect hm
        obtain rfl := List.mem_singleton.1 hm
        exact CommitPayload.not_withheld rfc hc
      · intro run hr
        obtain rfl := Option.some.inj hr
        exact .inl rfl
  | accepted _ _ hacc =>
      refine ⟨?_, hphase, ?_⟩
      · intro effect hm
        obtain rfl := List.mem_singleton.1 hm
        exact HelloPayload.not_withheld rfc hacc.hello
      · intro run hr
        obtain rfl := Option.some.inj hr
        exact .inr (.inl rfl)
  | stepped _ hr hs =>
      obtain ⟨h1, h2⟩ := hstep hr hs
      refine ⟨h1, hphase, ?_⟩
      intro run' hr'
      obtain rfl := Option.some.inj hr'
      exact .inr (.inr (h2 _ _ rfl).2)
  | approved hp hr hs => exact absurd ⟨rfl, hp, _, hr, hs⟩ hi
  | established _ hr hs =>
      obtain ⟨-, h2⟩ := hstep hr hs
      cases (h2 _ _ rfl).1
  | began _ h =>
      obtain ⟨rfl, rfl⟩ := hbegins h hphase
      exact ⟨by simp, hphase, hu.step⟩
  | ended => exact ⟨by simp, hphase, hu.step⟩
  | promoted hp | abandoned hp | refused hp | answered hp | yielded hp | sent hp | unsent hp
  | delivered hp | drained hp | rejected hp => exact absurd hp hphase

omit [Ciborium] [Primitives] in
def Requested (calls : List Call) : Prop :=
  ∃ call ∈ calls, ∃ words peer, .requestSas words peer ∈ call.out

omit [Ciborium] [Primitives] in
/-- After having been asked, and while the engine waited, the user approved. -/
def Approved (calls : List Call) : Prop :=
  ∃ before call after, calls = before ++ call :: after ∧ Requested before ∧
    call.input = .sasDecision true ∧ call.pre.Waits

theorem Moves.waits {e e' : Engine} {i : Input} {es : List Effect} (hf : e.Fits)
    (h : Moves e i es e') (hw : e'.Waits) :
    (∃ words peer, .requestSas words peer ∈ es) ∨ e.Waits := by
  obtain ⟨hphase, run', hrun', hstep'⟩ := hw
  have hbegins : ∀ {e e' : Engine} {es : List Effect}, Begins e es e' → e'.phase = .handshaking →
      e' = e := by
    intro e e' es h hp
    cases h with
    | skipped => rfl
    | began hp' => cases hp.symm.trans hp'
    | failed _ hp' => cases hp.symm.trans hp'
  cases h with
  | noted => exact .inr ⟨hphase, run', hrun', hstep'⟩
  | closed => cases hphase
  | started hp =>
      have := hf.run_purpose run' hrun'
      rw [hp] at this
      simp at this
  | committed =>
      obtain rfl := Option.some.inj hrun'
      cases hstep'
  | accepted =>
      obtain rfl := Option.some.inj hrun'
      cases hstep'
  | stepped _ hr hs =>
      obtain rfl := Option.some.inj hrun'
      cases hs with
      | helloSas => exact .inl ⟨_, _, List.mem_cons_of_mem _ List.mem_cons_self⟩
      | revealSas => exact .inl ⟨_, _, List.mem_cons_self⟩
      | early h => exact .inr ⟨hphase, _, hr, h⟩
      | _ => cases hstep'
  | approved _ _ _ happ =>
      obtain rfl := Option.some.inj hrun'
      cases happ <;> cases hstep'
  | established => cases hphase
  | promoted hp | abandoned hp | refused hp | answered hp | yielded hp | unsent hp
  | drained hp | rejected hp => cases hphase.symm.trans hp
  | began _ h =>
      obtain rfl := hbegins h hphase
      exact .inr ⟨hphase, run', hrun', hstep'⟩
  | sent hp _ _ h => cases hphase.symm.trans (h.keeps.2.1.trans hp)
  | delivered hp _ _ _ h => cases hphase.symm.trans (h.keeps.2.1.trans hp)
  | ended => exact .inr ⟨hphase, run', hrun', hstep'⟩

section Gating

variable (role : HelloRole) (identity : IdentityKeypair) (entropy : Entropy) (limit : Nat)

omit [Ciborium] [Primitives] in
theorem Approved.append {calls : List Call} (h : Approved calls) (call : Call) :
    Approved (calls ++ [call]) := by
  obtain ⟨before, c, after, rfl, hr, hi, hw⟩ := h
  exact ⟨before, c, after ++ [call], by simp, hr, hi, hw⟩

/-- Up to the approval; the induction is on the calls. -/
theorem unapproved_calls (rfc : Ciborium.Rfc8949) (inputs : List Input) :
    let start := Engine.configured role identity entropy limit
    let calls : List Call := trace Engine.handle start inputs
    let e := final Engine.handle start inputs
    e.Fits ∧ e.Pinned ∧ (e.Waits → Requested calls) ∧
      (¬ Approved calls → e.Unapproved ∧ ∀ call ∈ calls,
        (∀ effect ∈ call.out, ¬ effect.Withheld) ∧ call.post.active = none) := by
  refine trace_induction Engine.handle (fun (calls : List Call) e => e.Fits ∧ e.Pinned ∧
    (e.Waits → Requested calls) ∧ (¬ Approved calls → e.Unapproved ∧ ∀ call ∈ calls,
      (∀ effect ∈ call.out, ¬ effect.Withheld) ∧ call.post.active = none)) _ ?_ ?_ inputs
  · refine ⟨Engine.configured_fits .., Engine.configured_pinned .., ?_, ?_⟩
    · rintro ⟨h, -⟩
      cases h
    · intro _
      refine ⟨⟨Phase.noConfusion, ?_⟩, by simp⟩
      intro _ h
      cases h
  · rintro calls e i ⟨hf, hpin, hreq, hcalls⟩
    have hmoves := handle_moves hf i
    refine ⟨handle_fits hf i, handle_pinned hf hpin i, ?_, ?_⟩
    · intro hw
      obtain ⟨words, peer, hm⟩ | hw := hmoves.waits hf hw
      · exact ⟨_, List.mem_append_right _ List.mem_cons_self, words, peer, (mem_visible rfl _).1 hm⟩
      · obtain ⟨call, hcall, h⟩ := hreq hw
        exact ⟨call, List.mem_append_left _ hcall, h⟩
    · intro hno
      obtain ⟨hu, hquiet⟩ := hcalls fun h => hno (h.append _)
      have hi : ¬ (i = .sasDecision true ∧ e.Waits) := by
        rintro ⟨rfl, hw⟩
        exact hno ⟨calls, _, [], rfl, hreq hw, rfl, hw⟩
      obtain ⟨hes, hu'⟩ := hmoves.unapproved rfc hf hpin hu hi
      refine ⟨⟨hu'.phase, hu'.step⟩, ?_⟩
      intro call hcall
      obtain hcall | hcall := List.mem_append.1 hcall
      · exact hquiet call hcall
      · rw [List.mem_singleton.1 hcall]
        have hu : (e.handle i).1.Unapproved := ⟨hu'.phase, hu'.step⟩
        refine ⟨?_, hu.active (handle_fits hf i)⟩
        intro effect hm hw
        have hv : effect.visible = true := by
          cases effect <;> first | rfl | exact hw.elim
        exact hes effect ((mem_visible hv _).2 hm) hw

omit [Ciborium] [Primitives] in
theorem Engine.Fits.closed_active {e : Engine} (hf : e.Fits) (hc : e.phase = .closed) :
    e.active = none := by
  by_contra ha
  have := hf.active_iff.1 (Option.isSome_iff_ne_none.2 ha)
  rw [hc] at this
  cases this

theorem closed_calls {e : Engine} (hf : e.Fits) (hc : e.phase = .closed) (later : List Input) :
    ∀ call ∈ trace Engine.handle e later, call.out = [] ∧ call.post.active = none := by
  have hstill : ∀ i, e.handle i = (e, []) := by
    intro i
    rw [Engine.handle, if_pos hc]
  have hnone := hf.closed_active hc
  induction later with
  | nil => simp [trace]
  | cons i later ih =>
      intro call hcall
      rw [trace, hstill i] at hcall
      obtain rfl | hcall := List.mem_cons.1 hcall
      · rw [record_out, record_post, hstill i]
        exact ⟨rfl, hnone⟩
      · exact ih call hcall

/-- A refusal, or the end of the wait, closes the engine. -/
theorem Engine.Waits.refused {e : Engine} (hw : e.Waits) {i : Input}
    (hi : i = .sasDecision false ∨ e.Fires .sasDecision i) : (e.handle i).1.phase = .closed := by
  obtain ⟨hp, run, hrun, hstep⟩ := hw
  have hopen : e.phase ≠ .closed := by simp [hp]
  rw [Engine.handle]
  rw [if_neg hopen]
  obtain rfl | ⟨id, deadline, rfl, hfound, hkind⟩ := hi
  · dsimp only [Ctx.onSas]
    rw [hrun]
    dsimp only
    rw [if_neg (by simp [hp, hstep]), if_pos (by simp)]
    exact Ctx.terminate_phase _ _ _
  · obtain ⟨d, kind⟩ := deadline
    dsimp only at hkind
    subst hkind
    dsimp only [Ctx.onTimeout]
    rw [hfound]
    exact Ctx.terminate_phase _ _ _

theorem Engine.not_waits_handle {e : Engine} (hw : ¬ e.Waits) (approved : Bool) :
    e.handle (.sasDecision approved) = (e, []) := by
  rw [Engine.handle]
  split
  next => rfl
  next =>
      dsimp only [Ctx.onSas]
      cases hrun : e.run with
      | none => rfl
      | some run =>
          have : e.phase ≠ .handshaking ∨ run.step ≠ .sas := by
            by_contra h
            simp only [not_or, not_not] at h
            exact hw ⟨h.1, run, hrun, h.2⟩
          dsimp only
          rw [if_pos this]

/-- The SAS gate: nothing that needs the user's approval happens before it;
a refusal or the end of the wait rules it out for good; and a decision given
before it was asked for has no effect. -/
theorem sas_gating (rfc : Ciborium.Rfc8949) (inputs : List Input) :
    let start := Engine.configured role identity entropy limit
    let calls : List Call := trace Engine.handle start inputs
    let e := final Engine.handle start inputs
    (¬ Approved calls → e.active = none ∧ ∀ call ∈ calls,
      (∀ effect ∈ call.out, ¬ effect.Withheld) ∧ call.post.active = none) ∧
    (∀ i later, e.Waits → (i = .sasDecision false ∨ e.Fires .sasDecision i) →
      ∀ call ∈ trace Engine.handle e (i :: later),
        (∀ effect ∈ call.out, ¬ effect.Withheld) ∧ call.post.active = none) ∧
    (∀ approved, ¬ Requested calls → e.handle (.sasDecision approved) = (e, [])) := by
  intro start calls e
  obtain ⟨hf, hpin, hreq, hcalls⟩ := unapproved_calls role identity entropy limit rfc inputs
  refine ⟨?_, ?_, ?_⟩
  · intro hno
    obtain ⟨hu, hquiet⟩ := hcalls hno
    exact ⟨hu.active hf, hquiet⟩
  · intro i later hw hi call hcall
    have hclosed := hw.refused hi
    rw [trace] at hcall
    obtain rfl | hcall := List.mem_cons.1 hcall
    · have hu : e.Unapproved := by
        obtain ⟨hp, run, hrun, hstep⟩ := hw
        refine ⟨by simp [e, hp], ?_⟩
        intro run' hrun'
        obtain rfl := Option.some.inj (hrun.symm.trans hrun')
        exact .inr (.inr hstep)
      have hne : ¬ (i = .sasDecision true ∧ e.Waits) := by
        rintro ⟨rfl, -⟩
        obtain h | ⟨_, _, h, _⟩ := hi <;> cases h
      obtain ⟨hes, -⟩ := (handle_moves hf i).unapproved rfc hf hpin hu hne
      refine ⟨?_, (handle_fits hf i).closed_active hclosed⟩
      intro effect hm hwith
      have hv : effect.visible = true := by
        cases effect <;> first | rfl | exact hwith.elim
      exact hes effect ((mem_visible hv _).2 hm) hwith
    · obtain ⟨hout, hnone⟩ := closed_calls (handle_fits hf i) hclosed later call hcall
      rw [hout]
      exact ⟨by simp, hnone⟩
  · intro approved hno
    exact Engine.not_waits_handle (fun hw => hno (hreq hw)) approved

end Gating

end Ruxmsg

namespace Ruxmsg

open Library.Machine Sample

/-- The dialing side has been asked, and its user refuses before approving. -/
theorem sas_gating_sample :
    (final Engine.handle dialer (handshake.leftInputs.take 2)).Waits ∧
    ∀ call ∈ trace Engine.handle (final Engine.handle dialer (handshake.leftInputs.take 2))
      [.sasDecision false, .sasDecision true],
      (∀ effect ∈ call.out, ¬ effect.Withheld) ∧ call.post.active = none := by
  have hstep : ((final Engine.handle dialer (handshake.leftInputs.take 2)).run.any
      fun run => run.step = .sas) = true := by
    decide +kernel
  have hw : (final Engine.handle dialer (handshake.leftInputs.take 2)).Waits := by
    obtain ⟨run, hrun, hs⟩ := (Option.any_eq_true _ _).1 hstep
    exact ⟨by decide +kernel, run, hrun, of_decide_eq_true hs⟩
  exact ⟨hw, (sas_gating .initiator leftIdentity (entropy 100) rekeyMessageLimit
    Ciborium.reference_rfc8949 (handshake.leftInputs.take 2)).2.1 _ [.sasDecision true] hw (.inl rfl)⟩

end Ruxmsg

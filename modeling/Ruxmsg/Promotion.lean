import Ruxmsg.Reachable
import Ruxmsg.Reference

namespace Ruxmsg

open Library.Machine

variable [Ciborium] [Primitives]

abbrev Call := Record Engine Input (List Effect)

omit [Ciborium] [Primitives] in
/-- A step only sends frames or asks for the SAS decision. -/
def Effect.OfStep : Effect → Prop
  | .send _ | .requestSas _ _ => True
  | _ => False

theorem Steps.effects {e : Engine} {run : Run} {frame : Frame} {es : List Effect}
    {result : Ctx.Stepped} (h : Steps e run frame es result) : ∀ effect ∈ es, effect.OfStep := by
  cases h <;> simp [Effect.OfStep]

theorem Approves.effects {e : Engine} {run : Run} {es : List Effect} {result : Ctx.Stepped}
    (h : Approves e run es result) : ∀ effect ∈ es, effect.OfStep := by
  cases h <;> simp [Effect.OfStep]

omit [Ciborium] [Primitives] in
theorem mem_visible {effect : Effect} (hv : effect.visible = true) (es : List Effect) :
    effect ∈ es.filter Effect.visible ↔ effect ∈ es := by
  simp [List.mem_filter, hv]

omit [Ciborium] [Primitives] in
def ExactlyOne (a b c : Prop) : Prop := (a ∧ ¬b ∧ ¬c) ∨ (¬a ∧ b ∧ ¬c) ∨ (¬a ∧ ¬b ∧ c)

omit [Ciborium] [Primitives] in
/-- The old active session, as it was, is drained from now on. -/
def Promotes (call : Call) : Prop :=
  .notify .rekeyCompleted ∈ call.out ∧ call.post.draining = call.pre.active

omit [Ciborium] [Primitives] in
def Terminates (call : Call) : Prop := call.post.phase = .closed

omit [Ciborium] [Primitives] in
def KeepsSessions (call : Call) : Prop :=
  call.post.active = call.pre.active ∧ call.post.draining = call.pre.draining

omit [Ciborium] [Primitives] in
def Engine.RekeyInput (e : Engine) (i : Input) : Prop :=
  (∃ frame, i = .frameReceived frame ∧
    (frame.messageType = .rekey ∨ frame.messageType = .sessionConfirm)) ∨
  e.Fires .handshakeFrame i ∨ e.Fires .handshakeTotal i

theorem Prior.effects {e : Engine} {i : Input} {es : List Effect} (h : Prior e i es) :
    ∀ effect ∈ es, effect.OfStep := by
  cases h with
  | none => simp
  | stepped error hp hr hs => exact hs.effects

theorem Abandons.effects {e : Engine} {i : Input} {es : List Effect} (h : Abandons e i es) :
    ∀ effect ∈ es, effect.OfStep := by
  cases h with
  | stepped error hr hs => exact hs.effects
  | refused hr hs => exact hs.effects
  | timeout => simp

omit [Ciborium] [Primitives] in
theorem not_notify_of_ofStep {es : List Effect} (h : ∀ effect ∈ es, effect.OfStep) {event : Event} :
    .notify event ∉ es := fun hm => h _ hm

omit [Primitives] in
theorem notify_mem_closing {e : Engine} {cause : CloseCause} {notifyPeer : Option CloseReason}
    {event : Event} (h : .notify event ∈ e.closing cause notifyPeer) : event = .closed cause := by
  simp only [Engine.closing, List.mem_append, List.mem_cons, Effect.notify.injEq, reduceCtorEq,
    List.not_mem_nil, or_false] at h
  obtain h | h := h
  · split at h
    next => split at h <;> simp at h
    next => simp at h
  · exact h

omit [Ciborium] [Primitives] in
theorem Engine.RekeyInput.type {e : Engine} {frame : Frame} (h : e.RekeyInput (.frameReceived frame)) :
    frame.messageType = .rekey ∨ frame.messageType = .sessionConfirm := by
  obtain ⟨f, hf, ht⟩ | ⟨_, _, hf, _⟩ | ⟨_, _, hf, _⟩ := h
  · cases hf
    exact ht
  · cases hf
  · cases hf

omit [Ciborium] [Primitives] in
theorem Engine.RekeyInput.not_send {e : Engine} {content : List UInt8} :
    ¬ e.RekeyInput (.localSend content) := by
  rintro (⟨f, hf, ht⟩ | ⟨_, _, hf, _⟩ | ⟨_, _, hf, _⟩) <;> cases hf

omit [Ciborium] [Primitives] in
theorem Engine.RekeyInput.not_data {e : Engine} {frame : Frame} (h : e.RekeyInput (.frameReceived frame))
    (ht : frame.messageType = .data) : False := by
  obtain h | h := h.type <;>
  · rw [ht] at h
    cases h

omit [Ciborium] [Primitives] in
theorem Engine.RekeyInput.not_fires {e : Engine} {i : Input} (h : e.RekeyInput i) {kind : DeadlineKind}
    (hk : kind ≠ .handshakeFrame ∧ kind ≠ .handshakeTotal) : ¬ e.Fires kind i := by
  rintro ⟨id, d, rfl, hd, rfl⟩
  obtain ⟨f, hf, -⟩ | ⟨id', d', hi, hd', hk'⟩ | ⟨id', d', hi, hd', hk'⟩ := h
  · cases hf
  · cases hi
    obtain rfl := Option.some.inj (hd.symm.trans hd')
    exact hk.1 hk'
  · cases hi
    obtain rfl := Option.some.inj (hd.symm.trans hd')
    exact hk.2 hk'

/-- What a rekey input does to the sessions of an established engine. -/
theorem Moves.rekey_cases {e e' : Engine} {i : Input} {es : List Effect} (h : Moves e i es e')
    (hp : e.phase = .established) (hi : e.RekeyInput i) :
    (.notify .rekeyCompleted ∈ es ∧ e'.draining = e.active ∧ e'.active ≠ e.active ∧
      e'.phase = .established) ∨
    (.notify .rekeyCompleted ∉ es ∧ e'.phase = .closed ∧ e'.active = none ∧
      ∃ frame, i = .frameReceived frame ∧ frame.messageType = .sessionConfirm ∧ e.run = none ∧
        e.lateRekeyFrames = 0) ∨
    (.notify .rekeyCompleted ∉ es ∧ e'.phase = .established ∧ e'.active = e.active ∧
      e'.draining = e.draining) := by
  have hphase : ∀ p, p ≠ .established → e.phase ≠ p := by
    rintro p hne rfl
    exact hne hp
  cases h with
  | noted quiet =>
      refine .inr (.inr ⟨?_, hp, rfl, rfl⟩)
      intro hm
      obtain ⟨event, he, heq⟩ := List.mem_map.1 hm
      cases heq
      cases quiet _ he
  | @closed _ _ cause notifyPeer _ prior may =>
      refine .inr (.inl ⟨?_, rfl, rfl, ?_⟩)
      · intro hm
        obtain hm | hm := List.mem_append.1 hm
        · exact not_notify_of_ofStep prior.effects hm
        · cases notify_mem_closing hm
      · obtain ⟨frame, rfl, ht⟩ | ⟨id, d, rfl, hd, hk⟩ | ⟨id, d, rfl, hd, hk⟩ := hi
        · obtain ⟨hne, hc⟩ := may hp
          have ht := ht.resolve_left hne
          exact ⟨frame, rfl, ht, hc ht⟩
        · have hs := may hp d hd
          rw [hk] at hs
          cases hs
        · have hs := may hp d hd
          rw [hk] at hs
          cases hs
  | started h => exact absurd h (hphase _ (by decide))
  | committed h => exact absurd h (hphase _ (by decide))
  | accepted h => exact absurd h (hphase _ (by decide))
  | stepped _ _ hs => exact .inr (.inr ⟨not_notify_of_ofStep hs.effects, hp, rfl, rfl⟩)
  | approved h => exact absurd h (hphase _ (by decide))
  | established h => exact absurd h (hphase _ (by decide))
  | promoted _ hr hs hacc =>
      obtain ⟨active, ha, -, hne⟩ := hacc
      refine .inl ⟨by simp, rfl, ?_, hp⟩
      rw [ha]
      intro heq
      have := congrArg Session.id (Option.some.inj heq)
      exact hne this.symm
  | abandoned _ habandon =>
      refine .inr (.inr ⟨?_, hp, rfl, rfl⟩)
      intro hm
      obtain hm | hm := List.mem_append.1 hm
      · exact not_notify_of_ofStep habandon.effects hm
      · simp at hm
  | refused => exact .inr (.inr ⟨by simp, hp, rfl, rfl⟩)
  | began input =>
      obtain rfl | hfire := input
      · obtain ⟨f, hf, -⟩ | ⟨_, _, hf, _⟩ | ⟨_, _, hf, _⟩ := hi <;> cases hf
      · exact absurd hfire (hi.not_fires (by decide))
  | answered => exact .inr (.inr ⟨by simp, hp, rfl, rfl⟩)
  | yielded => exact .inr (.inr ⟨by simp, hp, rfl, rfl⟩)
  | sent => exact absurd hi Engine.RekeyInput.not_send
  | unsent => exact absurd hi Engine.RekeyInput.not_send
  | delivered _ ht => exact (hi.not_data ht).elim
  | drained _ ht => exact (hi.not_data ht).elim
  | rejected _ ht => exact (hi.not_data ht).elim
  | ended input =>
      obtain ⟨frame, rfl, ht⟩ | hfire := input
      · obtain h | h := hi.type <;>
        · rw [ht] at h
          cases h
      · exact absurd hfire (hi.not_fires (by decide))

/-- A rekey input of an established engine promotes, ends the session, or
changes neither session; only a promotion is reported as one, and only a
confirmation that nothing waits for ends the session. -/
theorem rekey_promotes_or_keeps (role : HelloRole) (identity : IdentityKeypair) (entropy : Entropy)
    (limit : Nat) (inputs : List Input) (i : Input) :
    let e := final Engine.handle (Engine.configured role identity entropy limit) inputs
    let call : Call := record Engine.handle e i
    e.phase = .established → e.RekeyInput i →
      ExactlyOne (Promotes call) (Terminates call) (KeepsSessions call) ∧
      (.notify .rekeyCompleted ∈ call.out → Promotes call) ∧
      (Terminates call → ∃ frame, i = .frameReceived frame ∧ frame.messageType = .sessionConfirm ∧
        e.run = none ∧ e.lateRekeyFrames = 0) ∧
      (∀ frame, i = .frameReceived frame → frame.messageType = .rekey →
        call.post.phase = .established) := by
  intro e call hp hi
  have hf : e.Fits := reachable_fits role identity entropy limit inputs
  obtain ⟨active, ha⟩ : ∃ active, e.active = some active :=
    Option.isSome_iff_exists.1 (hf.active_iff.2 hp)
  have hmoves := (handle_moves hf i).rekey_cases hp hi
  rw [mem_visible rfl] at hmoves
  obtain ⟨hc, hd, hne, hphase⟩ | ⟨hc, hphase, hnone, hcause⟩ | ⟨hc, hphase, hsame, hdrain⟩ := hmoves
  · have hopen : ¬ Terminates call := by
      intro h
      cases h.symm.trans hphase
    refine ⟨.inl ⟨⟨hc, hd⟩, hopen, fun h => hne h.1⟩, fun _ => ⟨hc, hd⟩, fun h => absurd h hopen, ?_⟩
    intro _ _ _
    exact hphase
  · refine ⟨.inr (.inl ⟨fun h => hc h.1, hphase, ?_⟩), fun h => absurd h hc, fun _ => hcause, ?_⟩
    · rintro ⟨h, -⟩
      have := ha.symm.trans (h.symm.trans hnone)
      cases this
    · rintro frame rfl ht
      obtain ⟨frame', hf', ht', -⟩ := hcause
      cases hf'
      rw [ht] at ht'
      cases ht'
  · have hopen : ¬ Terminates call := by
      intro h
      cases h.symm.trans hphase
    refine ⟨.inr (.inr ⟨fun h => hc h.1, hopen, hsame, hdrain⟩), fun h => absurd h hc, fun h => absurd h hopen, ?_⟩
    intro _ _ _
    exact hphase

end Ruxmsg

namespace Ruxmsg

open Library.Machine Sample

def confirming : Call := record Engine.handle (final Engine.handle dialer (renewed.leftInputs.take 9))
  (renewed.leftInputs.getD 9 .start)

theorem rekey_promotes_or_keeps_sample :
    Promotes confirming ∧ ¬ Terminates confirming ∧ ¬ KeepsSessions confirming := by
  obtain ⟨hphase, hframe, hcompleted⟩ : confirming.pre.phase = .established ∧
      ((received confirming.input).any fun frame => frame.messageType = .sessionConfirm) = true ∧
      .notify .rekeyCompleted ∈ confirming.out := by
    decide +kernel
  obtain ⟨frame, hreceived, htype⟩ := (Option.any_eq_true _ _).1 hframe
  have hinput : confirming.pre.RekeyInput confirming.input :=
    .inl ⟨frame, received_eq_some hreceived, .inr (of_decide_eq_true htype)⟩
  obtain ⟨hone, hpromotes, -⟩ := rekey_promotes_or_keeps .initiator leftIdentity (entropy 100) rekeyMessageLimit
    (renewed.leftInputs.take 9) (renewed.leftInputs.getD 9 .start) hphase hinput
  have hpromoted : Promotes confirming := hpromotes hcompleted
  rcases hone with ⟨-, hopen, hchanged⟩ | ⟨hnot, -⟩ | ⟨hnot, -⟩
  · exact ⟨hpromoted, hopen, hchanged⟩
  · exact absurd hpromoted hnot
  · exact absurd hpromoted hnot

end Ruxmsg

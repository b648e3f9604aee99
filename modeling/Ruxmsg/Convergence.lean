import Ruxmsg.Approval
import Ruxmsg.Exchange
import Ruxmsg.Library.Duplex
import Ruxmsg.Reference

namespace Ruxmsg

open Library.Machine Library.Duplex

variable [Ciborium] [Primitives]

/-- Two engines and reliable channels both ways. -/
abbrev Connection := Link Engine Input Effect Frame

def peers : Party Engine Input Effect Frame :=
  { step := Engine.handle
    message := Effect.frame?
    receive := .frameReceived }

def transportRole : Side → HelloRole
  | .left => .initiator
  | .right => .responder

section Start

variable (identity : Side → IdentityKeypair) (entropy : Side → Entropy) (limit : Side → Nat)

def sideEngine (s : Side) : Engine :=
  Engine.configured (transportRole s) (identity s) (entropy s) (limit s)

def Connection.started : Connection :=
  ((Link.init (sideEngine identity entropy limit)).call peers .left .start).call peers .right .start

end Start

def Connection.effects (d : Connection) (s : Side) : List Effect := (d.calls s).flatMap Record.out

/-- The ephemerals of both current runs make a contributory secret, and no run
derives the id of the active session. -/
structure Connection.Fresh (d : Connection) : Prop where
  ephemerals : ∀ r r', (d.node .left).run = some r → (d.node .right).run = some r' →
    FreshPair r.ephemeral r'.ephemeral
  sessionIds : ∀ s run keys, (d.node s).run = some run → run.keys = some keys →
    (d.node s).activeSessionId ≠ some keys.sessionId

instance (a b : EphemeralKeypair) : Decidable (FreshPair a b) := inferInstanceAs (Decidable (_ ∧ _))

instance : DecidablePred Connection.Fresh := fun d =>
  decidable_of_iff ((∀ r ∈ (d.node .left).run, ∀ r' ∈ (d.node .right).run,
      FreshPair r.ephemeral r'.ephemeral) ∧
    ∀ s ∈ [Side.left, .right], ∀ run ∈ (d.node s).run, ∀ keys ∈ run.keys,
      (d.node s).activeSessionId ≠ some keys.sessionId)
    ⟨fun h => ⟨fun r r' hr hr' => h.1 r hr r' hr',
        fun s run keys hr hk => h.2 s (by cases s <;> simp) run hr keys hk⟩,
      fun h => ⟨fun r hr r' hr' => h.ephemerals r r' hr hr',
        fun s _ run hr keys hk => h.sessionIds s run keys hr hk⟩⟩

/-- Every request for the SAS decision has been answered. -/
def Decided (calls : List Call) : Prop :=
  ∀ before call after words peer, calls = before ++ call :: after →
    .requestSas words peer ∈ call.out → ∃ answer ∈ after, answer.input = .sasDecision true

omit [Ciborium] [Primitives] in
theorem decided_cons {call : Call} {calls : List Call} : Decided (call :: calls) ↔
    (call.out.filterMap Effect.words? = [] ∨ ∃ answer ∈ calls, answer.input = .sasDecision true) ∧
      Decided calls := by
  constructor
  · intro h
    refine ⟨?_, ?_⟩
    · by_cases hnone : call.out.filterMap Effect.words? = []
      · exact .inl hnone
      · obtain ⟨asked, hasked⟩ := List.exists_mem_of_ne_nil _ hnone
        obtain ⟨effect, hm, heffect⟩ := List.mem_filterMap.1 hasked
        cases effect with
        | requestSas words peer => exact .inr (h [] call calls words peer rfl hm)
        | _ => cases heffect
    · intro before other after words peer hcalls hm
      subst hcalls
      exact h (call :: before) other after words peer rfl hm
  · rintro ⟨hfirst, h⟩ before other after words peer hcalls hm
    cases before with
    | nil =>
        obtain ⟨rfl, rfl⟩ := List.cons.inj hcalls
        obtain hnone | hanswer := hfirst
        · cases List.filterMap_eq_nil_iff.1 hnone _ hm
        · exact hanswer
    | cons first before =>
        obtain ⟨rfl, rfl⟩ := List.cons.inj hcalls
        exact h before other after words peer rfl hm

omit [Ciborium] [Primitives] in
theorem decided_nil : Decided [] := by
  intro before call after words peer hcalls hm
  cases List.nil_eq_append_iff.1 hcalls |>.2

def decidableDecided : (calls : List Call) → Decidable (Decided calls)
  | [] => .isTrue decided_nil
  | _ :: calls =>
      haveI := decidableDecided calls
      decidable_of_iff _ decided_cons.symm

instance : DecidablePred Decided := decidableDecided

section Sides

def Connection.view (d : Connection) (s : Side) : View := (d.node s).view (d.effects s)

/-- Two honest sides that agree, by the frames of handshakes in flight to each. -/
structure Connection.Joint (d : Connection) (flight : Side → List Frame) : Prop where
  fits : ∀ s, (d.node s).Fits
  pinned : ∀ s, (d.node s).Pinned
  distinct : ∀ s, (d.node s).identity.identity ≠ (d.node s.other).identity.identity
  together : ∀ s, Together (d.view s) (d.view s.other) (flight s) (flight s.other)
  fine : ∀ s, ∀ effect ∈ d.effects s, effect.Fine

variable {d : Connection} {flight : Side → List Frame} {s : Side} {i : Input} {rest : List Frame}

theorem Connection.Joint.sides (hprim : Primitives.Correct) (h : d.Joint flight) (hfresh : d.Fresh)
    (s : Side) : Sides (d.node s) (d.node s.other) := by
  have hleft : Sides (d.node .left) (d.node .right) :=
    ⟨h.fits _, h.fits _, h.pinned _, h.pinned _, h.distinct .left, hfresh.ephemerals,
      hfresh.sessionIds .left, hfresh.sessionIds .right⟩
  cases s with
  | left => exact hleft
  | right => exact hleft.symm hprim

omit [Ciborium] [Primitives] in
theorem filterMap_visible {α : Type} (f : Effect → Option α)
    (hf : ∀ effect : Effect, effect.visible = false → f effect = none) (es : List Effect) :
    (es.filter Effect.visible).filterMap f = es.filterMap f := by
  rw [List.filterMap_filter]
  refine List.filterMap_congr fun effect _ => ?_
  cases hv : effect.visible with
  | true => rfl
  | false => exact (hf effect hv).symm

omit [Ciborium] [Primitives] in
theorem Engine.view_visible (e : Engine) (out es : List Effect) :
    e.timeless.view (out ++ es.filter Effect.visible) = e.view (out ++ es) := by
  have hwords : (es.filter Effect.visible).filterMap Effect.words? = es.filterMap Effect.words? := by
    refine filterMap_visible _ (fun effect hv => ?_) es
    cases effect <;> first | rfl | cases hv
  have hcount : (es.filter Effect.visible).count (.notify .rekeyCompleted) =
      es.count (.notify .rekeyCompleted) := List.count_filter rfl
  simp only [Engine.view, List.count_append, List.filterMap_append, hwords, hcount]
  rfl

omit [Ciborium] [Primitives] in
theorem frames_visible (es : List Effect) :
    (es.filter Effect.visible).filterMap Effect.frame? = es.filterMap Effect.frame? := by
  refine filterMap_visible _ (fun effect hv => ?_) es
  cases effect <;> first | rfl | cases hv

omit [Ciborium] [Primitives] in
@[simp] theorem Connection.effects_take (d : Connection) (s t : Side) (rest : List Frame) :
    Connection.effects (d.take s rest) t = d.effects t := rfl

theorem Connection.effects_call (d : Connection) (s : Side) (i : Input) :
    Connection.effects (d.call peers s i) s = d.effects s ++ ((d.node s).handle i).2 := by
  simp [Connection.effects, peers]

theorem Connection.effects_call_other (d : Connection) (s : Side) (i : Input) :
    Connection.effects (d.call peers s i) s.other = d.effects s.other := by
  simp [Connection.effects]

omit [Ciborium] [Primitives] in
theorem fine_of_visible {es : List Effect} (h : ∀ effect ∈ es.filter Effect.visible, effect.Fine) :
    ∀ effect ∈ es, effect.Fine := by
  intro effect hm
  cases hv : effect.visible with
  | true => exact h effect ((mem_visible hv _).2 hm)
  | false => cases effect <;> trivial

/-- A call of one side that leads to a joint state of both. -/
theorem Connection.Joint.call {flight' : Side → List Frame} (h : d.Joint flight)
    (arrived : List Frame → List Frame)
    (hother : flight' s.other = arrived (((d.node s).handle i).2.filterMap Effect.frame?))
    (hacts : Acts (d.node s) (d.effects s) i fun x sent =>
      Together x (d.view s.other) (flight' s) (arrived sent)) :
    Connection.Joint ((d.take s rest).call peers s i) flight' := by
  obtain ⟨es, e₁, hb, hfine, hT⟩ := hacts
  have hview : Connection.view ((d.take s rest).call peers s i) s = e₁.view (d.effects s ++ es) := by
    rw [Connection.view, Connection.effects_call, ← hb.post, ← hb.out, Engine.view_visible]
    simp [peers, Connection.effects]
  have hview' : Connection.view ((d.take s rest).call peers s i) s.other = d.view s.other := by
    rw [Connection.view, Connection.effects_call_other]
    simp [Connection.view, Connection.effects]
  have htogether : Together (Connection.view ((d.take s rest).call peers s i) s)
      (Connection.view ((d.take s rest).call peers s i) s.other) (flight' s) (flight' s.other) := by
    rw [hview, hview', hother]
    rw [← hb.out, frames_visible] at hT
    rw [← hb.out]
    exact hT
  refine ⟨?_, ?_, ?_, ?_, ?_⟩ <;> intro t <;> obtain rfl | rfl := Side.eq_or_other s t
  · simpa [peers] using handle_fits (h.fits t) i
  · simpa using h.fits s.other
  · simpa [peers] using handle_pinned (h.fits t) (h.pinned t) i
  · simpa using h.pinned s.other
  · simpa [peers, handle_identity (h.fits t) i] using h.distinct t
  · simpa [peers, handle_identity (h.fits s) i] using h.distinct s.other
  · exact htogether
  · simpa using htogether.symm
  · rw [Connection.effects_call]
    intro effect hm
    obtain hm | hm := List.mem_append.1 hm
    · exact h.fine t effect hm
    · exact fine_of_visible (hb.out ▸ hfine) effect hm
  · rw [Connection.effects_call_other]
    exact h.fine s.other

end Sides

section Requests

theorem Engine.Waits.approved {e : Engine} (hw : e.Waits) :
    ¬ (e.handle (.sasDecision true)).1.Waits := by
  obtain ⟨hp, run, hrun, hstep⟩ := hw
  rw [Engine.handle]
  rw [if_neg (by simp [hp])]
  dsimp only [Ctx.onSas]
  rw [hrun]
  dsimp only
  rw [if_neg (by simp [hp, hstep]), if_neg (by simp)]
  generalize ((⟨e, []⟩ : Ctx).cancel .sasDecision).update (fun self => { self with run := none }) = c
  obtain ⟨es, happ, -⟩ := Ctx.afterApproval_yields c run
  generalize c.afterApproval run = result at happ
  obtain ⟨result, c'⟩ := result
  rintro ⟨hp', run', hrun', hstep'⟩
  cases happ with
  | initiator =>
      obtain rfl := Option.some.inj hrun'
      cases hstep'
  | responder =>
      obtain rfl := Option.some.inj hrun'
      cases hstep'
  | early =>
      obtain rfl := Option.some.inj hrun'
      cases hstep'
  | failed => cases hp'

theorem undecided_append {e : Engine} {calls : List Call} (hf : e.Fits) (i : Input)
    (h : e.Waits → ¬ Decided calls) (hw : (e.handle i).1.Waits) :
    ¬ Decided (calls ++ [record Engine.handle e i]) := by
  intro hd
  obtain ⟨words, peer, hm⟩ | hwaits := (handle_moves hf i).waits hf hw
  · obtain ⟨answer, hanswer, -⟩ := hd calls _ [] words peer rfl ((mem_visible rfl _).1 hm)
    cases hanswer
  · refine h hwaits fun before call after words peer hcalls hm => ?_
    subst hcalls
    obtain ⟨answer, hanswer, hi⟩ := hd before call (after ++ [record Engine.handle e i]) words peer
      (by simp) hm
    obtain hanswer | hanswer := List.mem_append.1 hanswer
    · exact ⟨answer, hanswer, hi⟩
    · rw [List.mem_singleton.1 hanswer] at hi
      obtain rfl : i = .sasDecision true := hi
      exact absurd hw hwaits.approved

omit [Ciborium] [Primitives] in
def Engine.rekeying (e : Engine) : Nat := if e.run.any (·.purpose = .rekey) then 1 else 0

omit [Ciborium] [Primitives] in
theorem Engine.rekeying_none {e : Engine} (h : e.run = none) : e.rekeying = 0 := by
  simp [rekeying, h]

omit [Ciborium] [Primitives] in
theorem Engine.rekeying_some {e : Engine} {run : Run} (h : e.run = some run) :
    e.rekeying = if run.purpose = .rekey then 1 else 0 := by
  simp [rekeying, h]

theorem Steps.count_events {e : Engine} {run : Run} {frame : Frame} {es : List Effect}
    {result : Ctx.Stepped} (h : Steps e run frame es result) (event : Event) :
    es.count (.notify event) = 0 := by
  refine List.count_eq_zero.2 fun hm => ?_
  cases h <;> simp at hm

theorem Approves.count_events {e : Engine} {run : Run} {es : List Effect} {result : Ctx.Stepped}
    (h : Approves e run es result) (event : Event) : es.count (.notify event) = 0 := by
  refine List.count_eq_zero.2 fun hm => ?_
  cases h <;> simp at hm

theorem Begins.count_rekeys {e e' : Engine} {es : List Effect} (hfine : ∀ effect ∈ es, effect.Fine)
    (h : Begins e es e') : e.rekeying + es.count (.notify .rekeyStarted) =
      e'.rekeying + es.count (.notify .rekeyCompleted) := by
  cases h with
  | skipped => rfl
  | began hp hr =>
      rw [Engine.rekeying_none hr]
      rfl
  | failed => exact (hfine _ List.mem_cons_self).elim

theorem Moves.count_rekeys {e e' : Engine} {i : Input} {es : List Effect} (hf : e.Fits)
    (hfine : ∀ effect ∈ es, effect.Fine) (h : Moves e i es e') :
    e.rekeying + es.count (.notify .rekeyStarted) =
      e'.rekeying + es.count (.notify .rekeyCompleted) := by
  cases h with
  | @noted _ events _ _ _ hq =>
      have hcount (event : Event) (hne : ¬ event.Quiet) :
          (events.map Effect.notify).count (.notify event) = 0 := by
        refine List.count_eq_zero.2 fun hm => hne ?_
        obtain ⟨event', hm, h⟩ := List.mem_map.1 hm
        cases h
        exact hq _ hm
      rw [hcount _ (by rintro ⟨⟩), hcount _ (by rintro ⟨⟩)]
      rfl
  | closed => exact (Engine.closing_not_fine hfine).elim
  | started hp =>
      rfl
  | committed hp =>
      have hr : e.run = none := by
        by_contra h
        obtain ⟨run, hr⟩ := Option.ne_none_iff_exists'.1 h
        have := hf.run_purpose run hr
        rw [hp] at this
        simp at this
      rw [Engine.rekeying_none hr]
      rfl
  | accepted _ hr _ hpurpose =>
      rw [Engine.rekeying_none hr, Engine.rekeying_some rfl]
      simp [Engine.responderRun, hpurpose]
  | stepped _ hr hs =>
      rw [hs.count_events, hs.count_events, Engine.rekeying_some hr, Engine.rekeying_some rfl,
        hs.continues.purpose]
  | approved _ hr _ happ =>
      rw [happ.count_events, happ.count_events, Engine.rekeying_some hr, Engine.rekeying_some rfl,
        happ.continues.purpose]
  | established hp hr hs =>
      rw [List.count_append, List.count_append, hs.count_events, hs.count_events,
        Engine.rekeying_some hr, hf.purpose_initial hr hp]
      rfl
  | promoted hp hr hs =>
      rw [List.count_append, List.count_append, hs.count_events, hs.count_events,
        Engine.rekeying_some hr, hf.purpose_rekey hr hp]
      rfl
  | abandoned => exact (hfine _ (List.mem_append_right _ List.mem_cons_self)).elim
  | refused => exact (hfine _ List.mem_cons_self).elim
  | began _ h =>
      have := h.count_rekeys hfine
      exact this
  | answered _ hr _ hpurpose =>
      rw [Engine.rekeying_none hr, Engine.rekeying_some rfl]
      simp [Engine.responderRun, hpurpose]
  | yielded hp hr _ _ _ _ _ _ hpurpose =>
      rw [Engine.rekeying_some hr, Engine.rekeying_some rfl, hf.purpose_rekey hr hp]
      simp [Engine.responderRun, hpurpose]
  | sent _ _ _ h =>
      have := h.count_rekeys fun effect hm => hfine effect (List.mem_cons_of_mem _ hm)
      rw [List.count_cons_of_ne (by simp), List.count_cons_of_ne (by simp)]
      exact this
  | unsent => rfl
  | delivered _ _ _ _ h =>
      have := h.count_rekeys fun effect hm => hfine effect (List.mem_cons_of_mem _ hm)
      rw [List.count_cons_of_ne (by simp), List.count_cons_of_ne (by simp)]
      exact this
  | drained => rfl
  | rejected => exact (hfine _ List.mem_cons_self).elim
  | ended => rfl

theorem count_rekeys_call {e : Engine} {out : List Effect} (hf : e.Fits) (i : Input)
    (hfine : ∀ effect ∈ (e.handle i).2, effect.Fine)
    (h : out.count (.notify .rekeyStarted) = e.rekeying + out.count (.notify .rekeyCompleted)) :
    (out ++ (e.handle i).2).count (.notify .rekeyStarted) =
      (e.handle i).1.rekeying + (out ++ (e.handle i).2).count (.notify .rekeyCompleted) := by
  have hmoves := (handle_moves hf i).count_rekeys hf
    fun effect hm => hfine effect (List.mem_of_mem_filter hm)
  rw [List.count_filter rfl, List.count_filter rfl] at hmoves
  have hkept : (e.handle i).1.timeless.rekeying = (e.handle i).1.rekeying := rfl
  rw [List.count_append, List.count_append]
  omega

end Requests

section Quiescence

variable {e e' : Engine} {out out' : List Effect} {toX toY : List Frame}

theorem Exchange.opened (hf : e.Fits) (h : Exchange (e.view out) (e'.view out') toX toY) :
    e.phase ≠ .closed ∧ e'.phase ≠ .closed := by
  have hrun {e : Engine} {run : Run} (hf : e.Fits) (hr : e.run = some run) : e.phase ≠ .closed := by
    obtain ⟨hp, -⟩ | ⟨hp, -⟩ := hf.run_purpose run hr <;> simp [hp]
  have hlevel (hl : Level (e.view out) (e'.view out')) (h : e.phase ≠ .closed) :
      e.phase ≠ .closed ∧ e'.phase ≠ .closed := ⟨h, fun hc => h (hl.phase.symm.trans hc)⟩
  cases h with
  | quiet hl hp => exact hlevel hl fun hc => Phase.noConfusion (hp.symm.trans hc)
  | offered hl hoffers => exact hlevel hl (hrun hf hoffers.run_eq)
  | crossed hl hoffers => exact hlevel hl (hrun hf hoffers.run_eq)
  | answered hl hoffers => exact hlevel hl (hrun hf hoffers.run_eq)
  | revealed hl hruns => exact hlevel hl (hrun hf hruns.run_eq)
  | met hagreed => exact hlevel hagreed.level (hrun hf hagreed.runs.run_eq)
  | signed hagreed => exact hlevel hagreed.level (hrun hf hagreed.runs.run_eq)
  | confirmed hagreed => exact hlevel hagreed.level (hrun hf hagreed.runs.run_eq)
  | closing hruns _ _ hp =>
      exact ⟨hrun hf hruns.run_eq, fun hc => Phase.noConfusion (hp.symm.trans hc)⟩

/-- With nothing in flight and nobody waiting, no handshake is under way. -/
theorem Exchange.quiescent (hf : e.Fits) (hf' : e'.Fits) (hw : ¬ e.Waits) (hw' : ¬ e'.Waits)
    (hX : toX = []) (hY : toY = []) (h : Exchange (e.view out) (e'.view out') toX toY) :
    Level (e.view out) (e'.view out') ∧ e.phase = .established ∧ e.run = none ∧ e'.run = none ∧
      SameWords (e.view out) (e'.view out') := by
  have hwaits {e : Engine} {run : Run} (hf : e.Fits) (hr : e.run = some run) (hs : run.step = .sas)
      (hp : run.purpose = .initial) : e.Waits := ⟨hf.handshaking hr hp, run, hr, hs⟩
  cases h with
  | quiet hl hp hr hr' hwords => exact ⟨hl, hp, hr, hr', hwords⟩
  | offered => cases hY
  | crossed => cases hY
  | answered => simp at hX
  | revealed => cases hY
  | met hagreed hsigns hawaits =>
      cases hawaits with
      | sas hs hp => exact absurd (hwaits hf' hagreed.runs'.run_eq hs hp) hw'
      | early hs hp => exact absurd (hwaits hf' hagreed.runs'.run_eq hs hp) hw'
      | ready =>
          subst hY
          cases hsigns with
          | waits hs hp => exact absurd (hwaits hf hagreed.runs.run_eq hs hp) hw
  | signed => cases hX
  | confirmed => cases hY
  | closing => cases hX

end Quiescence

section Convergence

/-- What the two users and the channels do: they deliver, approve and ask for rekeys. -/
inductive Cooperates : Action Input → Prop
  | deliver (s : Side) : Cooperates (.deliver s)
  | approve (s : Side) : Cooperates (.input s (.sasDecision true))
  | rekey (s : Side) : Cooperates (.input s .requestRekey)

variable (rfc : Ciborium.Rfc8949)

include rfc

/-- One side asks for a rekey, whether or not it can begin one. -/
theorem Together.request {e : Engine} {out : List Effect} {y : View} {toX toY : List Frame}
    (hdistinct : e.identity.identity ≠ y.identity.identity) (h : Together (e.view out) y toX toY) :
    Acts e out .requestRekey fun x sent => Together x y toX (toY ++ sent) := by
  by_cases hopen : e.phase = .closed
  · have hb : e.Becomes .requestRekey [] e.timeless := by
      refine ⟨?_, ?_⟩ <;> rw [Engine.handle, if_pos hopen]
      rfl
    refine Acts.plain hb (by simp) ?_
    show Together (e.view out) y toX (toY ++ [])
    rwa [List.append_nil]
  · obtain ⟨es, e₁, hbegins, hb⟩ := becomes_requested hopen
    obtain ⟨hplain, hst⟩ : (∀ effect ∈ es, effect.Plain) ∧
        Starts (e.view out) (e₁.view out) (es.filterMap Effect.frame?) := hbegins.starts rfc
    exact Acts.plain hb hplain (h.starts rfc hdistinct hst)

structure Connection.Converging (d : Connection) : Prop where
  joint : d.Joint d.inbox
  fresh : d.Fresh
  asking : ∀ s, (d.node s).Waits → ¬ Decided (d.calls s)
  rekeys : ∀ s, (d.effects s).count (.notify .rekeyStarted) =
    (d.node s).rekeying + (d.effects s).count (.notify .rekeyCompleted)

section Start

variable (identity : Side → IdentityKeypair) (entropy : Side → Entropy) (limit : Side → Nat)

omit rfc in
theorem Connection.started_node (s : Side) : (Connection.started identity entropy limit).node s =
    ((sideEngine identity entropy limit s).handle .start).1 := by
  cases s <;> rfl

omit rfc in
theorem Connection.started_calls (s : Side) : (Connection.started identity entropy limit).calls s =
    [record Engine.handle (sideEngine identity entropy limit s) .start] := by
  cases s <;> rfl

omit rfc in
theorem Connection.started_inbox (s : Side) : (Connection.started identity entropy limit).inbox s =
    ((sideEngine identity entropy limit s.other).handle .start).2.filterMap Effect.frame? := by
  cases s <;> rfl

omit rfc in
theorem Connection.started_effects (s : Side) : (Connection.started identity entropy limit).effects s =
    ((sideEngine identity entropy limit s).handle .start).2 := by
  simp [Connection.effects, Connection.started_calls]

section Becoming

variable {identity entropy limit} {s : Side} {es : List Effect} {e₁ : Engine}

omit rfc

theorem Connection.started_view (hb : (sideEngine identity entropy limit s).Becomes .start es e₁) :
    (Connection.started identity entropy limit).view s = e₁.view es := by
  have hvisible := Engine.view_visible ((sideEngine identity entropy limit s).handle .start).1 []
    ((sideEngine identity entropy limit s).handle .start).2
  rw [hb.post, hb.out] at hvisible
  rw [Connection.view, Connection.started_effects, Connection.started_node]
  exact hvisible.symm

theorem Connection.started_inbox_of
    (hb : (sideEngine identity entropy limit s.other).Becomes .start es e₁) :
    (Connection.started identity entropy limit).inbox s = es.filterMap Effect.frame? := by
  rw [Connection.started_inbox, ← frames_visible, hb.out]

theorem Connection.started_fine (hb : (sideEngine identity entropy limit s).Becomes .start es e₁)
    (hes : ∀ effect ∈ es, effect.Fine) :
    ∀ effect ∈ (Connection.started identity entropy limit).effects s, effect.Fine := by
  rw [Connection.started_effects]
  exact fine_of_visible (hb.out ▸ hes)

end Becoming

theorem Connection.started_converging
    (hdistinct : (identity .left).identity ≠ (identity .right).identity) :
    (Connection.started identity entropy limit).Converging := by
  have hfits (s : Side) : (sideEngine identity entropy limit s).Fits := Engine.configured_fits ..
  have hpinned (s : Side) : (sideEngine identity entropy limit s).Pinned := Engine.configured_pinned ..
  obtain ⟨helloFrame, hh⟩ :=
    (sideEngine identity entropy limit .left).hello_isOk rfc .initiator .initial none rfl
  obtain ⟨frame, hc⟩ := commitOf_isOk rfc .initial none rfl helloFrame
  have hleft := becomes_committed (e := sideEngine identity entropy limit .left) rfl rfl hh hc
  have hright := becomes_started (e := sideEngine identity entropy limit .right) rfl
    (by simp [sideEngine, transportRole, Engine.configured, Engine.new, Engine.setRekeyMessageLimit])
  have htogether : Together ((Connection.started identity entropy limit).view .left)
      ((Connection.started identity entropy limit).view .right)
      ((Connection.started identity entropy limit).inbox .left)
      ((Connection.started identity entropy limit).inbox .right) := by
    rw [Connection.started_view hleft, Connection.started_view hright,
      Connection.started_inbox_of (s := .left) hright, Connection.started_inbox_of (s := .right) hleft]
    refine ⟨.inl (.offered ⟨rfl, rfl, rfl⟩ ⟨rfl, rfl, rfl, rfl, rfl, .inl ⟨rfl, rfl⟩⟩ rfl hc
      ⟨fun _ => ⟨rfl, rfl⟩, ?_⟩), ?_, ?_⟩
    · intro hp
      cases hp
    · intro hp
      cases hp
    · intro hp
      cases hp
  have hfine : ∀ s, ∀ effect ∈ (Connection.started identity entropy limit).effects s, effect.Fine := by
    intro s
    cases s with
    | left => exact Connection.started_fine hleft (by simp [Effect.Fine])
    | right => exact Connection.started_fine hright (by simp)
  refine ⟨⟨?_, ?_, ?_, ?_, hfine⟩, ⟨?_, ?_⟩, ?_, ?_⟩
  · intro s
    rw [Connection.started_node]
    exact handle_fits (hfits s) .start
  · intro s
    rw [Connection.started_node]
    exact handle_pinned (hfits s) (hpinned s) .start
  · intro s
    rw [Connection.started_node, Connection.started_node, handle_identity (hfits s),
      handle_identity (hfits s.other)]
    cases s with
    | left => exact hdistinct
    | right => exact hdistinct.symm
  · intro s
    cases s with
    | left => exact htogether
    | right => exact htogether.symm
  · intro r r' _ hr'
    rw [Connection.started_node] at hr'
    cases (congrArg Engine.run hright.post).symm.trans hr'
  · intro s run keys _ _
    have hnone : ((Connection.started identity entropy limit).node s).activeSessionId = none := by
      rw [Connection.started_node]
      cases s with
      | left => exact congrArg Engine.activeSessionId hleft.post
      | right => exact congrArg Engine.activeSessionId hright.post
    simp [hnone]
  · intro s
    rw [Connection.started_node, Connection.started_calls]
    have hidle : ¬ (sideEngine identity entropy limit s).Waits := by
      rintro ⟨hp, -⟩
      cases hp
    show _ → ¬ Decided ([] ++ [_])
    exact undecided_append (hfits s) .start fun hw => absurd hw hidle
  · intro s
    have heffects := Connection.started_effects identity entropy limit s
    have hcount := count_rekeys_call (hfits s) .start (heffects ▸ hfine s)
      (show ([] : List Effect).count _ = _ + ([] : List Effect).count _ from rfl)
    rw [Connection.started_effects, Connection.started_node]
    exact hcount

end Start

variable (hprim : Primitives.Correct)

include hprim

theorem Connection.Converging.next {d : Connection} {s : Side} {i : Input} {rest : List Frame}
    (h : d.Converging) (hfresh : Connection.Fresh ((d.take s rest).call peers s i))
    (hi : (rest = d.inbox s ∧ Cooperates (.input s i)) ∨
      ∃ m, d.inbox s = m :: rest ∧ i = .frameReceived m ∧ Cooperates (.deliver s)) :
    Connection.Converging ((d.take s rest).call peers s i) := by
  have hsides := h.joint.sides hprim h.fresh s
  have htogether := h.joint.together s
  have hacts : Acts (d.node s) (d.effects s) i fun x sent =>
      Together x (d.view s.other) rest (d.inbox s.other ++ sent) := by
    obtain ⟨rfl, hallowed⟩ | ⟨m, hm, rfl, -⟩ := hi
    · cases hallowed with
      | approve => exact htogether.approve rfc hprim hsides
      | rekey => exact htogether.request rfc hsides.distinct
    · rw [hm] at htogether
      exact htogether.deliver rfc hprim hsides
  have hjoint : Connection.Joint ((d.take s rest).call peers s i)
      ((d.take s rest).call peers s i).inbox := by
    refine h.joint.call (fun sent => d.inbox s.other ++ sent) ?_ ?_
    · simp [peers]
    · simpa using hacts
  refine ⟨hjoint, hfresh, ?_, ?_⟩ <;> intro t <;> obtain rfl | rfl := Side.eq_or_other s t
  · simpa [peers] using undecided_append (h.joint.fits t) i (h.asking t)
  · simpa using h.asking s.other
  · have hfine := hjoint.fine t
    rw [Connection.effects_call] at hfine ⊢
    simpa [peers] using count_rekeys_call (h.joint.fits t) i
      (fun effect hm => hfine effect (List.mem_append_right _ hm)) (h.rekeys t)
  · rw [Connection.effects_call_other]
    simpa using h.rekeys s.other

/-- Two honest sides converge: whatever the order of deliveries, approvals and
requests, neither closes nor gives up a rekey, and once nothing is in flight and no
question open they share one session, the words they have shown and the number
of rekeys completed. -/
theorem handshake_converges (identity : Side → IdentityKeypair) (entropy : Side → Entropy)
    (limit : Side → Nat) (hdistinct : (identity .left).identity ≠ (identity .right).identity)
    {d : Connection} (hrun : Relation.ReflTransGen
      (Link.Next peers (fun _ => Cooperates) Connection.Fresh)
      (Connection.started identity entropy limit) d) :
    (∀ s, (d.node s).phase ≠ .closed ∧ ∀ effect ∈ d.effects s,
      effect ≠ .closeTransport ∧ (∀ cause, effect ≠ .notify (.closed cause)) ∧
        ∀ failure, effect ≠ .notify (.rekeyFailed failure)) ∧
    ((∀ s, d.inbox s = []) → (∀ s, Decided (d.calls s)) →
      (∀ s, (d.node s).phase = .established ∧ (d.node s).run = none ∧
        (d.effects s).count (.notify .rekeyStarted) = (d.effects s).count (.notify .rekeyCompleted)) ∧
      (d.node .left).activeSessionId = (d.node .right).activeSessionId ∧
      (∃ hash, ∀ s, (d.effects s).filterMap Effect.words? = [sasWords hash]) ∧
      (d.effects .left).count (.notify .rekeyCompleted) =
        (d.effects .right).count (.notify .rekeyCompleted)) := by
  have h : d.Converging := by
    refine Link.reaches_invariant peers Connection.Converging ?_
      (Connection.started_converging rfc identity entropy limit hdistinct) hrun
    intro d s i rest hd hfresh hi
    exact hd.next rfc hprim hfresh hi
  refine ⟨?_, ?_⟩
  · intro s
    refine ⟨?_, ?_⟩
    · obtain hex | hex := (h.joint.together s).exchange
      · exact (hex.opened (h.joint.fits s)).1
      · exact (hex.opened (h.joint.fits s.other)).2
    · intro effect hm
      have hfine := h.joint.fine s effect hm
      refine ⟨?_, ?_, ?_⟩
      · rintro rfl
        exact hfine
      · rintro cause rfl
        exact hfine
      · rintro failure rfl
        exact hfine
  · intro hempty hdecided
    have hw (s : Side) : ¬ (d.node s).Waits := fun hw => h.asking s hw (hdecided s)
    have hquiet : Level (d.view .left) (d.view .right) ∧ (d.node .left).phase = .established ∧
        (d.node .left).run = none ∧ (d.node .right).run = none ∧
        SameWords (d.view .left) (d.view .right) := by
      obtain hex | hex := (h.joint.together .left).exchange
      · exact hex.quiescent (h.joint.fits _) (h.joint.fits _) (hw _) (hw _) (hempty _) (hempty _)
      · obtain ⟨hl, hp, hr, hr', hash, hwords, hwords'⟩ :=
          hex.quiescent (h.joint.fits _) (h.joint.fits _) (hw _) (hw _) (hempty _) (hempty _)
        exact ⟨⟨hl.phase.symm, hl.activeId.symm, hl.completed.symm⟩, hl.phase.trans hp, hr', hr, hash,
          hwords', hwords⟩
    obtain ⟨hl, hp, hr, hr', hash, hwords, hwords'⟩ := hquiet
    have hnone (s : Side) : (d.node s).run = none := by
      cases s with
      | left => exact hr
      | right => exact hr'
    refine ⟨?_, hl.activeId.symm, ⟨hash, ?_⟩, hl.completed.symm⟩
    · intro s
      refine ⟨?_, hnone s, ?_⟩
      · cases s with
        | left => exact hp
        | right => exact hl.phase.trans hp
      · rw [h.rekeys s, Engine.rekeying_none (hnone s), Nat.zero_add]
    · intro s
      cases s with
      | left => exact hwords
      | right => exact hwords'

end Convergence

end Ruxmsg

namespace Ruxmsg

open Library.Machine Library.Duplex Sample

def sampleConnection : Connection :=
  Connection.started (fun | .left => leftIdentity | .right => rightIdentity)
    (fun | .left => entropy 100 | .right => entropy 200) (fun _ => rekeyMessageLimit)

/-- A first handshake and a rekey that both sides ask for at once, to its end. -/
def sampleGlare : List (Action Input) :=
  [.deliver .right, .deliver .left, .deliver .right, .input .left (.sasDecision true),
    .input .right (.sasDecision true), .deliver .right, .deliver .left, .deliver .right, .deliver .left,
    .input .left .requestRekey, .input .right .requestRekey, .deliver .left, .deliver .right, .deliver .right,
    .deliver .left, .deliver .left, .deliver .right, .deliver .left, .deliver .right]

theorem forall_side {P : Side → Prop} : (∀ s, P s) ↔ P .left ∧ P .right := by
  constructor
  · intro h
    exact ⟨h .left, h .right⟩
  · intro h s
    cases s with
    | left => exact h.1
    | right => exact h.2

theorem handshake_converges_sample : ∃ d : Connection,
    Link.keptRun peers Connection.Fresh sampleConnection sampleGlare = some d ∧
      (∀ s, (d.node s).phase = .established ∧ (d.node s).run = none) ∧
      (d.node .left).activeSessionId = (d.node .right).activeSessionId ∧
      (∃ hash, ∀ s, (d.effects s).filterMap Effect.words? = [sasWords hash]) ∧
      ∀ s, (d.effects s).count (.notify .rekeyCompleted) = 1 := by
  have hrun : ((Link.keptRun peers Connection.Fresh sampleConnection sampleGlare).any fun d =>
      (d.inbox .left = [] ∧ d.inbox .right = []) ∧ (Decided (d.calls .left) ∧ Decided (d.calls .right)) ∧
        (Connection.effects d .left).count (.notify .rekeyCompleted) = 1) = true := by
    decide +kernel
  obtain ⟨d, hd, h⟩ := (Option.any_eq_true _ _).1 hrun
  obtain ⟨hempty, hdecided, hcompleted⟩ := of_decide_eq_true h
  have hreach : Relation.ReflTransGen (Link.Next peers (fun _ => Cooperates) Connection.Fresh)
      sampleConnection d := by
    refine Link.reaches_of_keptRun peers ?_ hd
    intro a ha _
    simp only [sampleGlare, List.mem_cons, List.not_mem_nil, or_false] at ha
    rcases ha with rfl | rfl | rfl | rfl | rfl | rfl | rfl | rfl | rfl | rfl | rfl | rfl | rfl | rfl | rfl | rfl |
      rfl | rfl | rfl <;> constructor
  obtain ⟨-, hrest⟩ := handshake_converges Ciborium.reference_rfc8949 Primitives.plain_correct _ _ _
    (by decide +kernel) hreach
  obtain ⟨hquiet, hid, hwords, hsame⟩ := hrest (forall_side.2 hempty) (forall_side.2 hdecided)
  refine ⟨d, hd, fun s => ⟨(hquiet s).1, (hquiet s).2.1⟩, hid, hwords, ?_⟩
  exact forall_side.2 ⟨hcompleted, hsame ▸ hcompleted⟩

end Ruxmsg

import Ruxmsg.Traffic

namespace Ruxmsg

open Library.Machine Library.Duplex

variable [Ciborium] [Primitives]

def Connection.delivered (d : Connection) (s : Side) : List (List UInt8) :=
  (d.effects s).filterMap Effect.delivered?

def Connection.accepted (d : Connection) (s : Side) : List (List UInt8) :=
  (d.calls s).filterMap fun call => accepted? call.input call.out

inductive Converses : Action Input → Prop
  | deliver (s : Side) : Converses (.deliver s)
  | approve (s : Side) : Converses (.input s (.sasDecision true))
  | rekey (s : Side) : Converses (.input s .requestRekey)
  | send (s : Side) (content : List UInt8) : Converses (.input s (.localSend content))

/-- Neither side has run out of counters in its session. -/
def Connection.Roomy (d : Connection) : Prop :=
  ∀ s active, (d.node s).active = some active → active.sender.counter < u64Max

instance : DecidablePred Connection.Roomy := fun d =>
  decidable_of_iff (∀ s ∈ [Side.left, .right], ∀ active ∈ (d.node s).active, active.sender.counter < u64Max)
    ⟨fun h s active ha => h s (by cases s <;> simp) active ha, fun h s _ active ha => h s active ha⟩

/-- Fresh keys, and room in both sessions. -/
def Connection.Lasting (d : Connection) : Prop := d.Fresh ∧ d.Roomy

instance : DecidablePred Connection.Lasting := fun d => inferInstanceAs (Decidable (d.Fresh ∧ d.Roomy))

structure Connection.Conversing (d : Connection) : Prop where
  joint : d.Joint fun s => handshakes (d.inbox s)
  fresh : d.Fresh
  roomy : d.Roomy
  paired : ∃ contents : Side → List (List UInt8),
    (∀ s, d.accepted s.other = d.delivered s ++ contents s) ∧
      ∀ s, Paired (d.node s) (d.node s.other) (d.inbox s) (d.inbox s.other) (contents s)
        (contents s.other)

omit [Ciborium] [Primitives] in
theorem Connection.delivered_visible (es : List Effect) :
    (es.filter Effect.visible).filterMap Effect.delivered? = es.filterMap Effect.delivered? := by
  refine filterMap_visible _ (fun effect hv => ?_) es
  cases effect <;> first | rfl | cases hv

omit [Ciborium] [Primitives] in
theorem accepted_visible (i : Input) (es : List Effect) :
    accepted? i (es.filter Effect.visible) = accepted? i es := by
  cases i with
  | localSend content =>
      have hany : (es.filter Effect.visible).any (fun effect => effect.frame?.any (·.messageType = .data)) =
          es.any fun effect => effect.frame?.any (·.messageType = .data) := by
        rw [List.any_filter]
        apply List.any_congr rfl
        intro effect
        cases effect <;> rfl
      simp only [accepted?, hany]
  | _ => rfl

section Calls

variable {d : Connection} {s : Side} {i : Input} {rest : List Frame}
  {contents : Side → List (List UInt8)}

theorem Paired.of_timeless {e e' : Engine} {toE toE' : List Frame} {cs cs' : List (List UInt8)}
    (h : Paired e.timeless e' toE toE' cs cs') : Paired e e' toE toE' cs cs' := by
  have hcalm : e.timeless.Calm e [] := ⟨rfl, rfl, by simp, fun run hrun _ => ⟨hrun, rfl⟩, .inl⟩
  have := h.calm hcalm
  rwa [List.append_nil] at this

theorem Passes.call
    (hpasses : Passes (d.node s) i (d.node s.other) rest (d.inbox s.other) (contents s)
      (contents s.other))
    (haccounts : ∀ s, d.accepted s.other = d.delivered s ++ contents s) :
    ∃ contents' : Side → List (List UInt8),
      (∀ t, Connection.accepted ((d.take s rest).call peers s i) t.other =
        Connection.delivered ((d.take s rest).call peers s i) t ++ contents' t) ∧
      ∀ t, Paired (((d.take s rest).call peers s i).node t) (((d.take s rest).call peers s i).node t.other)
        (((d.take s rest).call peers s i).inbox t) (((d.take s rest).call peers s i).inbox t.other)
        (contents' t) (contents' t.other) := by
  obtain ⟨es, e₁, left, hb, hcontents, hpaired⟩ := hpasses
  obtain rfl := hb.post
  obtain rfl := hb.out
  rw [accepted_visible, frames_visible] at hpaired
  rw [Connection.delivered_visible] at hcontents
  replace hpaired := hpaired.of_timeless
  let contents' : Side → List (List UInt8) := Function.update (Function.update contents s left) s.other
    (contents s.other ++ (accepted? i ((d.node s).handle i).2).toList)
  have hself : contents' s = left := by simp [contents']
  have hother : contents' s.other =
      contents s.other ++ (accepted? i ((d.node s).handle i).2).toList := by simp [contents']
  have hacc : Connection.accepted ((d.take s rest).call peers s i) s =
      d.accepted s ++ (accepted? i ((d.node s).handle i).2).toList := by
    simp only [Connection.accepted, Link.call_calls, Link.take_calls, Link.take_node, List.filterMap_append]
    congr 1
  have hacc' : Connection.accepted ((d.take s rest).call peers s i) s.other = d.accepted s.other := by
    simp [Connection.accepted]
  have hdel : Connection.delivered ((d.take s rest).call peers s i) s =
      d.delivered s ++ ((d.node s).handle i).2.filterMap Effect.delivered? := by
    rw [Connection.delivered, Connection.effects_call, List.filterMap_append]
    rfl
  have hdel' : Connection.delivered ((d.take s rest).call peers s i) s.other = d.delivered s.other := by
    rw [Connection.delivered, Connection.effects_call_other]
    rfl
  have hpost : Paired (((d.take s rest).call peers s i).node s)
      (((d.take s rest).call peers s i).node s.other) (((d.take s rest).call peers s i).inbox s)
      (((d.take s rest).call peers s i).inbox s.other) (contents' s) (contents' s.other) := by
    rw [hself, hother]
    simpa [peers] using hpaired
  refine ⟨contents', ?_, ?_⟩ <;> intro t <;> obtain rfl | rfl := Side.eq_or_other s t
  · rw [hacc', hdel, hself, haccounts, hcontents, List.append_assoc]
  · have haccounts' := haccounts s.other
    rw [Side.other_other] at haccounts' ⊢
    rw [hacc, hdel', hother, haccounts', List.append_assoc]
  · exact hpost
  · simpa using hpost.symm

end Calls

section Start

variable (rfc : Ciborium.Rfc8949) (identity : Side → IdentityKeypair) (entropy : Side → Entropy)
  (limit : Side → Nat)

theorem Moves.starts {e e₁ : Engine} {es : List Effect} (ha : e.active = none)
    (hfine : ∀ effect ∈ es, effect.Fine) (h : Moves e .start es e₁) :
    es.filterMap Effect.delivered? = [] ∧ e₁.active = none := by
  cases h with
  | noted => exact ⟨delivered_notified _, ha⟩
  | closed => exact (Engine.closing_not_fine hfine).elim
  | started => exact ⟨rfl, ha⟩
  | committed => exact ⟨rfl, ha⟩
  | abandoned => exact (hfine _ (List.mem_append_right _ List.mem_cons_self)).elim
  | began _ h => exact ⟨h.delivers, h.keeps.2.2.1.trans ha⟩
  | ended => exact ⟨rfl, ha⟩

include rfc

theorem Connection.started_conversing
    (hdistinct : (identity .left).identity ≠ (identity .right).identity) :
    (Connection.started identity entropy limit).Conversing := by
  have hconverging := Connection.started_converging rfc identity entropy limit hdistinct
  have hshakes (s : Side) : ∀ f ∈ (Connection.started identity entropy limit).inbox s, f.Shakes :=
    (hconverging.joint.together s).shakes.1
  have hinbox : (fun s => handshakes ((Connection.started identity entropy limit).inbox s)) =
      (Connection.started identity entropy limit).inbox := by
    funext s
    exact handshakes_eq_self.2 fun f hf => (hshakes s f hf).1
  have hstarts (s : Side) : ((sideEngine identity entropy limit s).handle .start).2.filterMap
      Effect.delivered? = [] ∧ ((sideEngine identity entropy limit s).handle .start).1.active = none := by
    have hfine := hconverging.joint.fine s
    rw [Connection.effects, Connection.started_calls, List.flatMap_singleton] at hfine
    obtain ⟨hdelivers, hactive⟩ := Moves.starts (e := sideEngine identity entropy limit s) rfl
      (fun effect hm => hfine effect (List.mem_of_mem_filter hm)) (handle_moves (Engine.configured_fits ..) .start)
    rw [Connection.delivered_visible] at hdelivers
    exact ⟨hdelivers, hactive⟩
  refine ⟨?_, hconverging.fresh, ?_, fun _ => [], ?_, ?_⟩
  · rw [hinbox]
    exact hconverging.joint
  · intro s active ha
    rw [Connection.started_node, (hstarts s).2] at ha
    cases ha
  · intro s
    rw [Connection.accepted, Connection.delivered, Connection.effects, Connection.started_calls,
      Connection.started_calls, List.flatMap_singleton, List.append_nil]
    exact (hstarts s).1.symm
  · intro s
    refine .apart ?_ ?_ (fun f hf => (hshakes s f hf).1) (fun f hf => (hshakes s.other f hf).1)
    · rw [Connection.started_node]
      exact (hstarts s).2
    · rw [Connection.started_node]
      exact (hstarts s.other).2

end Start

section Conversations

variable (rfc : Ciborium.Rfc8949) (hprim : Primitives.Correct)

include rfc hprim

/-- A step of a conversation keeps what both sides agree on and loses no message. -/
theorem Connection.Conversing.next {d : Connection} {s : Side} {i : Input} {rest : List Frame}
    (h : d.Conversing) (hfresh : Connection.Fresh ((d.take s rest).call peers s i))
    (hroomy : Connection.Roomy ((d.take s rest).call peers s i))
    (hi : (rest = d.inbox s ∧ Converses (.input s i)) ∨
      ∃ m, d.inbox s = m :: rest ∧ i = .frameReceived m ∧ Converses (.deliver s)) :
    Connection.Conversing ((d.take s rest).call peers s i) := by
  obtain ⟨contents, haccounts, hpaired⟩ := h.paired
  have hsides := h.joint.sides hprim h.fresh s
  have htogether := h.joint.together s
  have hfits := h.joint.fits s
  replace hpaired := hpaired s
  obtain ⟨hacts, hpasses⟩ : Acts (d.node s) (d.effects s) i (fun x sent =>
        Together x (d.view s.other) (handshakes rest) (handshakes (d.inbox s.other) ++ handshakes sent)) ∧
      Passes (d.node s) i (d.node s.other) rest (d.inbox s.other) (contents s) (contents s.other) := by
    have hall {i : Input} (hacts : Acts (d.node s) (d.effects s) i fun x sent =>
        Together x (d.view s.other) (handshakes rest) (handshakes (d.inbox s.other) ++ sent)) :
        Acts (d.node s) (d.effects s) i fun x sent =>
          Together x (d.view s.other) (handshakes rest)
            (handshakes (d.inbox s.other) ++ handshakes sent) := by
      refine hacts.mono fun x sent hx => ?_
      rwa [hx.handshakes_sent]
    obtain ⟨rfl, hallowed⟩ | ⟨m, hm, rfl, -⟩ := hi
    · cases hallowed with
      | approve =>
          have hacts := htogether.approve rfc hprim hsides
          exact ⟨hall hacts, hpaired.passes_calm rfc hfits (.inl rfl) hacts fun x sent hx =>
            handshakes_eq_self.1 hx.handshakes_sent⟩
      | rekey =>
          have hacts := htogether.request rfc hsides.distinct
          exact ⟨hall hacts, hpaired.passes_calm rfc hfits (.inr rfl) hacts fun x sent hx =>
            handshakes_eq_self.1 hx.handshakes_sent⟩
      | send _ content =>
          exact htogether.passes_send rfc hprim hfits hsides.distinct hpaired (h.roomy s) content
    · rw [hm] at htogether hpaired
      by_cases ht : m.messageType = .data
      · exact htogether.passes_data rfc hfits hsides.distinct hpaired ht
      · refine ⟨?_, htogether.passes_handshake rfc hprim hsides hpaired ht⟩
        rw [handshakes_cons ht] at htogether
        exact hall (htogether.deliver rfc hprim hsides)
  refine ⟨?_, hfresh, hroomy, hpasses.call haccounts⟩
  refine h.joint.call (fun sent => handshakes (d.inbox s.other) ++ handshakes sent) ?_ ?_
  · simp [peers, handshakes_append]
  · simpa using hacts

/-- Whatever two users send and whenever they ask for rekeys, each is delivered
what the other has sent, in order, once and without a gap, and all of it once
nothing is in flight. -/
theorem exactly_once_delivery (identity : Side → IdentityKeypair) (entropy : Side → Entropy)
    (limit : Side → Nat) (hdistinct : (identity .left).identity ≠ (identity .right).identity)
    {d : Connection} (hrun : Relation.ReflTransGen
      (Link.Next peers (fun _ => Converses) Connection.Lasting)
      (Connection.started identity entropy limit) d) (s : Side) :
    d.delivered s <+: d.accepted s.other ∧
      (d.inbox s = [] → d.delivered s = d.accepted s.other) ∧ .notify .dataRejected ∉ d.effects s := by
  have h : d.Conversing := by
    refine Link.reaches_invariant peers Connection.Conversing ?_
      (Connection.started_conversing rfc identity entropy limit hdistinct) hrun
    intro d s i rest hd hkept hi
    exact hd.next rfc hprim hkept.1 hkept.2 hi
  obtain ⟨contents, haccounts, hpaired⟩ := h.paired
  refine ⟨?_, ?_, ?_⟩
  · rw [haccounts]
    exact List.prefix_append _ _
  · intro hempty
    have hnone := hpaired s
    rw [hempty] at hnone
    rw [haccounts, hnone.of_nil, List.append_nil]
  · exact fun hm => h.joint.fine s _ hm

end Conversations

end Ruxmsg

namespace Ruxmsg

open Library.Machine Library.Duplex Sample

/-- A first handshake and a rekey; the initiator's message is on its way when the
responder leaves its session. -/
def sampleConversation : List (Action Input) :=
  [.deliver .right, .deliver .left, .deliver .right, .input .left (.sasDecision true),
    .input .right (.sasDecision true), .deliver .right, .deliver .left, .deliver .right, .deliver .left,
    .input .left .requestRekey, .deliver .right, .deliver .left, .deliver .right, .deliver .right,
    .deliver .left, .input .left (.localSend [104, 105]), .deliver .right, .deliver .right,
    .deliver .left]

theorem exactly_once_delivery_sample : ∃ d : Connection,
    Link.keptRun peers Connection.Lasting sampleConnection sampleConversation = some d ∧
      d.delivered .right = d.accepted .left := by
  have hrun : (Link.keptRun peers Connection.Lasting sampleConnection
      sampleConversation).any (fun d => d.inbox .right = []) = true := by
    decide +kernel
  obtain ⟨d, hd, hempty⟩ := (Option.any_eq_true _ _).1 hrun
  have hreach : Relation.ReflTransGen (Link.Next peers (fun _ => Converses) Connection.Lasting)
      sampleConnection d := by
    refine Link.reaches_of_keptRun peers ?_ hd
    intro a ha _
    simp only [sampleConversation, List.mem_cons, List.not_mem_nil, or_false] at ha
    obtain rfl | rfl | rfl | rfl | rfl | rfl | rfl | rfl | rfl | rfl | rfl | rfl | rfl | rfl | rfl | rfl |
      rfl | rfl | rfl := ha <;> constructor
  have h := exactly_once_delivery Ciborium.reference_rfc8949 Primitives.plain_correct _ _ _
    (by decide +kernel) hreach .right
  exact ⟨d, hd, h.2.1 (by simpa using hempty)⟩

end Ruxmsg

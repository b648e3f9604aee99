import Ruxmsg.Approval
import Ruxmsg.Cli.Client

namespace Ruxmsg

open Library.Machine Library.Grammar

section Peers

/-- The peer has been named, or the connection is closed. -/
def Stage.Of (peer : PeerIdentity) : Stage → Prop
  | .handshaking => False
  | .asked peer' | .established peer' _ => peer' = peer
  | .closed => True

variable {stage stage' : Stage} {event : ConnEvent} {words : List String} {peer peer' : PeerIdentity}
  {word : List ConnEvent}

theorem Stage.Of.next (hof : stage.Of peer) (h : stage.next event = some stage') :
    stage'.Of peer ∧ ∀ peer', event = .established peer' → peer' = peer := by
  cases stage with
  | handshaking => exact hof.elim
  | closed => cases h
  | asked other =>
      obtain rfl : other = peer := hof
      cases event with
      | established peer' =>
          obtain ⟨hsame, h⟩ := Option.ite_none_right_eq_some.1 h
          cases h
          exact ⟨rfl, fun _ h => by rw [← hsame]; exact (ConnEvent.established.inj h).symm⟩
      | _ => cases h <;> simp [Stage.Of]
  | established other rekeying =>
      obtain rfl : other = peer := hof
      cases event with
      | rekeyFailed failure => cases failure <;> cases rekeying <;> cases h <;> simp [Stage.Of]
      | _ => cases rekeying <;> cases h <;> simp [Stage.Of]

theorem Stage.next_sasRequired (h : stage.next (.sasRequired words peer) = some stage') :
    stage = .handshaking ∧ stage' = .asked peer := by
  cases stage with
  | established other rekeying => cases rekeying <;> cases h
  | _ => cases h <;> exact ⟨rfl, rfl⟩

theorem Stage.next_handshaking (h : stage.next event = some .handshaking) :
    stage = .handshaking ∧ ∀ peer, event ≠ .established peer := by
  cases stage with
  | handshaking => cases event <;> simp_all [Stage.next]
  | closed => cases h
  | asked other =>
      cases event with
      | established peer' =>
          obtain ⟨-, h⟩ := Option.ite_none_right_eq_some.1 h
          cases h
      | _ => cases h
  | established other rekeying =>
      cases event with
      | rekeyFailed failure => cases failure <;> cases rekeying <;> cases h
      | _ => cases rekeying <;> cases h

/-- The peer that is established is the one whose SAS was asked for. -/
theorem established_of_asked (h : reads Stage.next .handshaking word = some stage)
    (hasked : .sasRequired words peer ∈ word) (hestablished : .established peer' ∈ word) : peer' = peer := by
  have hnames := reads_induction
    (fun word stage => (stage = .handshaking → ∀ peer, .established peer ∉ word) ∧
      ∀ words peer, .sasRequired words peer ∈ word →
        stage.Of peer ∧ ∀ peer', .established peer' ∈ word → peer' = peer)
    ⟨by simp, by simp⟩ ?_ h
  · exact (hnames.2 words peer hasked).2 peer' hestablished
  · rintro word event stage stage' ⟨hnone, hnames⟩ hnext
    refine ⟨?_, ?_⟩
    · rintro rfl peer hmem
      obtain ⟨hstage, hne⟩ := Stage.next_handshaking hnext
      rcases List.mem_append.1 hmem with hmem | hmem
      · exact hnone hstage peer hmem
      · exact hne peer (List.mem_singleton.1 hmem).symm
    · intro words peer hmem
      rcases List.mem_append.1 hmem with hmem | hmem
      · obtain ⟨hof, hsame⟩ := hnames words peer hmem
        obtain ⟨hof', hevent⟩ := hof.next hnext
        refine ⟨hof', ?_⟩
        intro peer' hmem'
        rcases List.mem_append.1 hmem' with hmem' | hmem'
        · exact hsame peer' hmem'
        · exact hevent peer' (List.mem_singleton.1 hmem').symm
      · obtain rfl := List.mem_singleton.1 hmem
        obtain ⟨hstage, rfl⟩ := Stage.next_sasRequired hnext
        refine ⟨rfl, ?_⟩
        intro peer' hmem'
        rcases List.mem_append.1 hmem' with hmem' | hmem'
        · exact absurd hmem' (hnone hstage peer')
        · cases List.mem_singleton.1 hmem'

end Peers

variable [Ciborium] [Primitives]

/-- An engine that was given no approval has no session, and has let out nothing
that it must withhold. -/
theorem unapproved_outputs (rfc : Ciborium.Rfc8949) (role : HelloRole) (identity : IdentityKeypair) (entropy : Entropy)
    (limit : Nat) {inputs : List Input} (h : .sasDecision true ∉ inputs) :
    let start := Engine.configured role identity entropy limit
    (final Engine.handle start inputs).active = none ∧ ∀ effect ∈ start.outputs inputs, ¬ effect.Withheld := by
  intro start
  obtain ⟨hf, -, -, hcalls⟩ := unapproved_calls role identity entropy limit rfc inputs
  have hno : ¬ Approved (trace Engine.handle start inputs) := by
    rintro ⟨before, call, after, hsplit, -, hinput, -⟩
    apply h
    have hinputs : (trace Engine.handle start inputs).map Record.input = inputs := trace_inputs start inputs
    rw [← hinput, ← hinputs, hsplit]
    exact List.mem_map_of_mem (List.mem_append_right _ List.mem_cons_self)
  obtain ⟨hu, hquiet⟩ := hcalls hno
  refine ⟨hu.active hf, ?_⟩
  intro effect heffect
  obtain ⟨call, hcall, hmem⟩ := List.mem_flatMap.1 heffect
  exact (hquiet call hcall).1 effect hmem

/-- What the user must have approved before it can be on the wire or be told. -/
def Task.Opened (task : Task) : Prop :=
  task.engine.active ≠ none ∨ (∃ frame ∈ task.written, Effect.Withheld (.send frame)) ∨
    (∃ peer, .established peer ∈ task.events) ∨ ∃ content, .message content ∈ task.events

omit [Ciborium] [Primitives] in
theorem mem_reports {event : ConnEvent} {effects : List Effect} (h : event ∈ reports effects) :
    ∃ effect ∈ effects, effect.report = some event := List.mem_filterMap.1 h

theorem Task.Follows.approved (rfc : Ciborium.Rfc8949) {role : HelloRole} {identity : IdentityKeypair}
    {entropy : Entropy} {limit : Nat} {permit : Bool} {inputs : List Input} {task : Task}
    (h : Task.Follows (Engine.configured role identity entropy limit) permit inputs task) (hopened : task.Opened) :
    .sasDecision true ∈ inputs := by
  by_contra hno
  obtain ⟨hactive, hquiet⟩ := unapproved_outputs rfc role identity entropy limit hno
  rcases hopened with hopened | ⟨frame, hframe, hwithheld⟩ | ⟨peer, hevent⟩ | ⟨content, hevent⟩
  · exact hopened (h.engine_eq ▸ hactive)
  · obtain ⟨effect, heffect, hsent⟩ := List.mem_filterMap.1 (h.written.subset hframe)
    cases effect with
    | send frame' =>
        obtain rfl := Option.some.inj hsent
        exact hquiet _ heffect hwithheld
    | _ => cases hsent
  · obtain ⟨effect, heffect, hreport⟩ := mem_reports (h.events.subset hevent)
    cases effect with
    | notify event =>
        cases event <;> cases hreport
        exact hquiet _ heffect trivial
    | _ => cases hreport
  · obtain ⟨effect, heffect, hreport⟩ := mem_reports (h.events.subset hevent)
    cases effect with
    | deliver content' => exact hquiet _ heffect trivial
    | notify event => cases event <;> cases hreport
    | _ => cases hreport

end Ruxmsg

namespace Ruxmsg.Cli

open Library Library.Grammar Library.Machine

variable {n : Nat} {turns : List Turned}

theorem mem_ordersTo_taken (h : .sas true ∈ ordersTo n (turns.flatMap Turned.taken)) :
    ∃ turned ∈ turns, .answerSas (connId n) true ∈ turned.out.2 := by
  obtain ⟨incident, hincident, horder⟩ := List.mem_filterMap.1 h
  obtain ⟨turned, hturned, hincident⟩ := List.mem_flatMap.1 hincident
  rw [Turned.taken] at hincident
  split at hincident
  · obtain ⟨call, hcall, htaken⟩ := List.mem_filterMap.1 hincident
    refine ⟨turned, hturned, ?_⟩
    cases call with
    | answerSas id approved =>
        obtain rfl := Option.some.inj htaken
        obtain ⟨hplace, hcontrol⟩ := Option.ite_none_right_eq_some.1 horder
        cases hcontrol
        rwa [← hplace, connId_place]
    | sendMessage | close | requestRekey =>
        obtain rfl := Option.some.inj htaken
        first
        | cases horder
        | obtain ⟨-, hcontrol⟩ := Option.ite_none_right_eq_some.1 horder
          cases hcontrol
    | _ => cases htaken
  · cases hincident

variable [Ciborium] [Primitives]

/-- No connection of any profile has a session, delivers a message or lets out a
frame of one before its user has compared the SAS words: the Enter that approved
it came while it was at the head of the queue, its own buffer said yes and held
what was typed while it was the head, and the words and the fingerprint shown were
those of the peer the session is with. -/
theorem sessions_need_approval (rfc : Ciborium.Rfc8949) (keys : KeyMap) (happenings : List Happening) (self : Client)
    (h : reads Client.step (.new keys) happenings = some self) (hn : self.Numbered) (era : Era) (hera : era ∈ self.eras)
    (n : Nat) (conn : Spawned) (hconn : era.facade.conns[n]? = some conn) (hopened : conn.task.Opened) :
    ∃ past turned future pending rest peer, era.turns = past ++ turned :: future ∧
      (∃ key, turned.input.2 = .terminal (.press key) ∧ key.code = .enter) ∧
      turned.pre.sas = pending :: rest ∧ pending.id = connId n ∧ pending.typed = typedFor (connId n) past ∧
      isApproval pending.typed = true ∧ .sasRequired pending.words peer ∈ conn.task.events ∧
      pending.fingerprint = fingerprint peer ∧ ∀ peer', .established peer' ∈ conn.task.events → peer' = peer := by
  have hsound := (Client.runs_sound keys h hn).eras era hera
  obtain ⟨inputs, hfollows, -, horders⟩ := ((Facade.runs_sound era.identity era.run).conns n conn hconn).run
  have hidentity : era.facade.identity = era.identity := Facade.runs_identity era.identity era.run
  rw [Spawned.start, Engine.new_eq_configured] at hfollows
  have happroved : .sasDecision true ∈ inputs := hfollows.approved rfc hopened
  have hordered := horders.decided happroved
  rw [hsound.orders] at hordered
  obtain ⟨turned, hturned, hcall⟩ := mem_ordersTo_taken hordered
  obtain ⟨past, future, hsplit⟩ := List.append_of_mem hturned
  obtain ⟨henter, pending, rest, hsas, hid, htyped, hyes, peer, hasked, hfingerprint⟩ :=
    hsound.approves past turned future hsplit (connId n) hcall
  have hreceived : .conn (connId n) (.sasRequired pending.words peer) ∈ era.facade.received := by
    apply hsound.heard
    rw [hsplit, List.map_append, events, List.filterMap_append, ← hid]
    exact List.mem_append_left _ hasked
  have htold : .sasRequired pending.words peer ∈ conn.task.events := by
    obtain ⟨lost, -, hflows⟩ := (Facade.runs_flows era.identity era.run (hn era hera)).flows n conn hconn
    have hsaid : .conn (connId n) (.sasRequired pending.words peer) ∈ conn.said n := by
      rw [← hflows, List.append_assoc]
      exact List.mem_append_left _ (mem_eventsOf hreceived rfl)
    rcases List.mem_cons.1 hsaid with h | h
    · cases h
    · obtain ⟨event, hevent, heq⟩ := List.mem_map.1 h
      cases heq
      exact hevent
  refine ⟨past, turned, future, pending, rest, peer, hsplit, henter, hsas, hid, htyped, hyes, htold, hfingerprint, ?_⟩
  intro peer' hestablished
  obtain ⟨stage, hreads, -⟩ := hfollows.stage
  exact established_of_asked hreads (hfollows.events.subset htold) (hfollows.events.subset hestablished)

end Ruxmsg.Cli

namespace Ruxmsg.Cli

open Library.Grammar Ruxmsg.Sample

/-- The session that is established after the run was approved by a typed yes. -/
theorem sessions_need_approval_approving : ∃ (self : Client) (era : Era), era ∈ self.eras ∧
    reads Client.step (.new .default) Sample.approving = some self ∧
      ∃ past turned future pending rest, era.turns = past ++ turned :: future ∧ turned.pre.sas = pending :: rest ∧
        pending.id = connId 0 ∧ isApproval pending.typed = true := by
  have hrun : ((reads Client.step (.new .default) Sample.approving).any fun self =>
      (self.eras.all fun era => era.facade.conns.length ≤ 1) && self.eras.any fun era =>
        era.facade.conns[0]?.any fun conn => conn.task.engine.active.isSome) = true := by
    decide +kernel
  obtain ⟨self, hself, hopen⟩ := (Option.any_eq_true _ _).1 hrun
  obtain ⟨hsmall, hopen⟩ := Bool.and_eq_true_iff.1 hopen
  obtain ⟨era, hera, hopen⟩ := List.any_eq_true.1 hopen
  obtain ⟨conn, hconn, hactive⟩ := (Option.any_eq_true _ _).1 hopen
  have hn : self.Numbered := by
    intro era hera
    exact (of_decide_eq_true (List.all_eq_true.1 hsmall era hera)).trans Nat.one_le_two_pow
  obtain ⟨past, turned, future, pending, rest, peer, hturns, -, hsas, hid, -, hyes, -⟩ :=
    sessions_need_approval Ciborium.reference_rfc8949 .default Sample.approving self hself hn era hera 0 conn hconn
      (.inl (Option.isSome_iff_ne_none.1 hactive))
  exact ⟨self, era, hera, hself, past, turned, future, pending, rest, hturns, hsas, hid, hyes⟩

end Ruxmsg.Cli

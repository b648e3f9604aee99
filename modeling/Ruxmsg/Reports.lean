import Ruxmsg.Closing
import Ruxmsg.Forms
import Ruxmsg.Forward
import Ruxmsg.Library.Grammar
import Ruxmsg.Pinned
import Ruxmsg.Task

namespace Ruxmsg

open Library.Machine Library.Grammar

section Grammar

def Event.report : Event → ConnEvent
  | .established peerIdentity => .established peerIdentity
  | .rekeyStarted => .rekeyStarted
  | .rekeyCompleted => .rekeyCompleted
  | .rekeyFailed failure => .rekeyFailed failure
  | .dataRejected => .dataRejected
  | .sendRejected rejection => .sendRejected rejection
  | .closed cause => .closed cause

/-- What `process` tells the consumer of an effect. -/
def Effect.report : Effect → Option ConnEvent
  | .requestSas words peerIdentity => some (.sasRequired words peerIdentity)
  | .deliver content => some (.message content)
  | .notify event => some event.report
  | .send _ | .setDeadline _ _ _ | .cancelDeadline _ | .closeTransport => none

def reports (effects : List Effect) : List ConnEvent := effects.filterMap Effect.report

def ConnEvent.message? : ConnEvent → Option (List UInt8)
  | .message content => some content
  | _ => none

/-- How far a connection has come, as its consumer hears of it. -/
inductive Stage
  | handshaking
  | asked (peer : PeerIdentity)
  | established (peer : PeerIdentity) (rekeying : Bool)
  | closed
  deriving DecidableEq

/-- The order in which a consumer hears of things. -/
def Stage.next : Stage → ConnEvent → Option Stage
  | .closed, _ => none
  | _, .closed _ => some .closed
  | stage, .sendRejected _ => some stage
  | .handshaking, .sasRequired _ peer => some (.asked peer)
  | .asked peer, .established peer' => if peer' = peer then some (.established peer false) else none
  | .established peer rekeying, .message _ | .established peer rekeying, .dataRejected
  | .established peer rekeying, .rekeyFailed .repeated => some (.established peer rekeying)
  | .established peer false, .rekeyStarted => some (.established peer true)
  | .established peer true, .rekeyCompleted => some (.established peer false)
  | .established peer _, .rekeyFailed _ => some (.established peer false)
  | _, _ => none

/-- The same order with the rekeys matched: only one that was reported started
is reported failed, but for the peer's repeated nonsense. -/
def Stage.matched : Stage → ConnEvent → Option Stage
  | .established peer false, .rekeyFailed .repeated => some (.established peer false)
  | .established _ false, .rekeyFailed _ => none
  | stage, event => stage.next event

def Step.settled : Step → Bool
  | .hello | .reveal => false
  | _ => true

/-- The engine is where its consumer takes it to be. -/
def Engine.Reached (e : Engine) : Stage → Prop
  | .handshaking => (e.phase = .idle ∨ e.phase = .handshaking) ∧ ∀ run, e.run = some run → run.step.settled = false
  | .asked peer => e.phase = .handshaking ∧
      ∃ run, e.run = some run ∧ run.step.settled = true ∧ run.remoteIdentity = some peer
  | .established peer rekeying => e.phase = .established ∧ e.peerIdentity = some peer ∧ e.run.isSome = rekeying
  | .closed => e.phase = .closed

@[simp] theorem reports_nil : reports [] = [] := rfl

@[simp] theorem reports_append (effects effects' : List Effect) :
    reports (effects ++ effects') = reports effects ++ reports effects' := List.filterMap_append

@[simp] theorem reports_send (frame : Frame) (effects : List Effect) :
    reports (.send frame :: effects) = reports effects := rfl

@[simp] theorem reports_requestSas (words : List String) (peer : PeerIdentity) (effects : List Effect) :
    reports (.requestSas words peer :: effects) = .sasRequired words peer :: reports effects := rfl

@[simp] theorem reports_deliver (content : List UInt8) (effects : List Effect) :
    reports (.deliver content :: effects) = .message content :: reports effects := rfl

@[simp] theorem reports_notify (event : Event) (effects : List Effect) :
    reports (.notify event :: effects) = event.report :: reports effects := rfl

@[simp] theorem reports_closeTransport (effects : List Effect) :
    reports (.closeTransport :: effects) = reports effects := rfl

theorem reports_map (events : List Event) : reports (events.map .notify) = events.map Event.report := by
  induction events with
  | nil => rfl
  | cons event events ih => rw [List.map_cons, reports_notify, ih, List.map_cons]

theorem reports_visible (effects : List Effect) : reports (effects.filter Effect.visible) = reports effects := by
  rw [reports, reports, List.filterMap_filter]
  apply List.filterMap_congr
  intro effect _
  cases effect <;> rfl

theorem Engine.reached_timeless {e : Engine} {stage : Stage} : e.timeless.Reached stage ↔ e.Reached stage := by
  cases stage <;> exact Iff.rfl

theorem Stage.next_closed {stage : Stage} (h : stage ≠ .closed) (cause : CloseCause) :
    stage.next (.closed cause) = some .closed := by
  cases stage with
  | closed => exact absurd rfl h
  | handshaking | asked | established => rfl

theorem Stage.next_sendRejected {stage : Stage} (h : stage ≠ .closed) (rejection : SendRejection) :
    stage.next (.sendRejected rejection) = some stage := by
  cases stage with
  | closed => exact absurd rfl h
  | handshaking | asked | established => rfl

theorem Stage.next_rekeyFailed (peer : PeerIdentity) (rekeying : Bool) (error : Error) :
    (Stage.established peer rekeying).next (.rekeyFailed (rekeyFailure error)) = some (.established peer false) := by
  cases error <;> cases rekeying <;> rfl

theorem Stage.matched_eq {event : ConnEvent}
    (h : ∀ failure, event = .rekeyFailed failure → failure = .repeated) (stage : Stage) :
    stage.matched event = stage.next event := by
  cases event with
  | rekeyFailed failure =>
      obtain rfl := h failure rfl
      rcases stage with _ | _ | ⟨peer, _ | _⟩ | _ <;> rfl
  | _ => rcases stage with _ | _ | ⟨peer, _ | _⟩ | _ <;> rfl

theorem reads_idle {stage : Stage} {events : List ConnEvent}
    (h : ∀ event ∈ events, stage.next event = some stage) : reads Stage.next stage events = some stage := by
  induction events with
  | nil => rfl
  | cons event events ih =>
      rw [reads_cons Stage.next (h event List.mem_cons_self)]
      exact ih fun event hevent => h event (List.mem_cons_of_mem _ hevent)

theorem Engine.Reached.ne_closed {e : Engine} {stage : Stage} (h : e.Reached stage) (hc : e.phase ≠ .closed) :
    stage ≠ .closed := by
  rintro rfl
  exact hc h

end Grammar

variable [Ciborium] [Primitives]

def Leads (stage : Stage) (effects : List Effect) (e' : Engine) : Prop :=
  ∃ stage', reads Stage.next stage (reports effects) = some stage' ∧ e'.Reached stage'

omit [Primitives] in
theorem reports_closing (e : Engine) (cause : CloseCause) (notifyPeer : Option CloseReason) :
    reports (e.closing cause notifyPeer) = [.closed cause] := by
  rw [Engine.closing.eq_def]
  split
  · split <;> rfl
  · rfl

/-- A step of an initial run asks for the SAS as both HELLOs become known, and
reports nothing else. -/
theorem Steps.reports_eq {e : Engine} {run : Run} {frame : Frame} {es : List Effect} {result : Ctx.Stepped}
    (h : Steps e run frame es result) :
    (reports es = [] ∧ ∀ run' candidate, run.purpose = .initial → result = .ok (run', candidate) →
      run.step.settled = true ∧ run'.step.settled = true ∧ run'.remoteIdentity = run.remoteIdentity) ∨
    ∃ words peer run', run.purpose = .initial ∧ run.step.settled = false ∧ result = .ok (run', none) ∧
      reports es = [.sasRequired words peer] ∧ run'.step.settled = true ∧ run'.remoteIdentity = some peer := by
  have hinitial (h : run.purpose = .rekey) : run.purpose ≠ .initial := by simp [h]
  cases h with
  | helloSas step _ _ _ purpose => exact .inr ⟨_, _, _, purpose, by simp [step, Step.settled], rfl, rfl, rfl, rfl⟩
  | revealSas step _ _ _ _ purpose => exact .inr ⟨_, _, _, purpose, by simp [step, Step.settled], rfl, rfl, rfl, rfl⟩
  | helloAuth _ _ _ _ purpose | revealAuth _ _ _ _ _ purpose =>
      exact .inl ⟨rfl, fun _ _ h => absurd h (hinitial purpose)⟩
  | helloFailed | confirmFailed | failed => exact .inl ⟨rfl, by simp⟩
  | early step | authResp step | authInit step | confirmResp step | confirmInit step =>
      refine .inl ⟨rfl, ?_⟩
      rintro _ _ - ⟨⟩
      exact ⟨by simp [step, Step.settled], by simp [step, Step.settled], rfl⟩

theorem Steps.reports_nil {e : Engine} {run : Run} {frame : Frame} {es : List Effect} {result : Ctx.Stepped}
    (h : Steps e run frame es result)
    (hquiet : run.purpose = .rekey ∨ ∀ run', result ≠ .ok (run', none)) : reports es = [] := by
  rcases h.reports_eq with ⟨hnil, -⟩ | ⟨_, _, run', hinitial, -, hresult, -⟩
  · exact hnil
  · rcases hquiet with hrekey | hne
    · cases hinitial.symm.trans hrekey
    · exact absurd hresult (hne run')

theorem Abandons.reports_nil {e : Engine} {i : Input} {es : List Effect} (h : Abandons e i es) : reports es = [] := by
  cases h with
  | stepped _ _ steps => exact steps.reports_nil (.inr (by simp))
  | refused _ steps => exact steps.reports_nil (.inr (by simp))
  | timeout => rfl

theorem Approves.reports_nil {e : Engine} {run : Run} {es : List Effect} {result : Ctx.Stepped}
    (h : Approves e run es result) : reports es = [] := by
  cases h <;> rfl

theorem Approves.remoteIdentity {e : Engine} {run run' : Run} {es : List Effect}
    (h : Approves e run es (.ok (run', none))) :
    run'.step.settled = true ∧ run'.remoteIdentity = run.remoteIdentity := by
  cases h <;> exact ⟨rfl, rfl⟩

section Moves

variable {e e' : Engine} {i : Input} {es : List Effect} {stage : Stage}

omit [Ciborium] [Primitives] in
theorem Leads.idle (hr : e'.Reached stage) (h : reports es = []) : Leads stage es e' := by
  refine ⟨stage, ?_, hr⟩
  rw [h]
  rfl

omit [Ciborium] [Primitives] in
theorem noted_leads {events : List Event} (hr : e'.Reached stage) (hs : stage ≠ .closed)
    (quiet : ∀ event ∈ events, event.Quiet)
    (hphase : .rekeyFailed .repeated ∈ events → ∃ peer rekeying, stage = .established peer rekeying) :
    Leads stage (events.map .notify) e' := by
  refine ⟨stage, ?_, hr⟩
  rw [reports_map]
  apply reads_idle
  intro report hreport
  obtain ⟨event, hevent, rfl⟩ := List.mem_map.1 hreport
  cases quiet event hevent with
  | repeated =>
      obtain ⟨peer, rekeying, rfl⟩ := hphase hevent
      rfl
  | sendRejected rejection => exact Stage.next_sendRejected hs rejection

omit [Primitives] in
theorem closing_leads {cause : CloseCause} {notifyPeer : Option CloseReason} (hs : stage ≠ .closed)
    (hes : reports es = []) (hclosed : e'.phase = .closed) :
    Leads stage (es ++ e.closing cause notifyPeer) e' := by
  refine ⟨.closed, ?_, hclosed⟩
  rw [reports_append, hes, reports_closing, List.nil_append]
  exact reads_cons Stage.next (Stage.next_closed hs cause) []

theorem Prior.reports_nil (h : Prior e i es) : reports es = [] := by
  cases h with
  | none => rfl
  | stepped _ _ _ steps => exact steps.reports_nil (.inr (by simp))

theorem Begins.leads (h : Begins e es e') {peer : PeerIdentity} {rekeying : Bool}
    (hr : e.Reached (.established peer rekeying)) : Leads (.established peer rekeying) es e' := by
  obtain ⟨hphase, hpeer, hrun⟩ := hr
  cases h with
  | skipped => exact .idle ⟨hphase, hpeer, hrun⟩ rfl
  | began _ hnone =>
      obtain rfl : false = rekeying := by rw [← hrun, hnone]; rfl
      exact ⟨.established peer true, rfl, hphase, hpeer, rfl⟩
  | failed error =>
      refine ⟨.established peer false, ?_, hphase, hpeer, rfl⟩
      exact reads_cons Stage.next (Stage.next_rekeyFailed peer rekeying error) []

theorem Begins.eq_of_phase (h : Begins e es e') (hp : e.phase ≠ .established) : es = [] ∧ e' = e := by
  cases h with
  | skipped => exact ⟨rfl, rfl⟩
  | began hp' => exact absurd hp' hp
  | failed _ hp' => exact absurd hp' hp

omit [Ciborium] [Primitives] in
theorem Engine.Fits.initial (hf : e.Fits) (hne : e.phase ≠ .established) {run : Run} (hrun : e.run = some run) :
    run.purpose = .initial := by
  rcases hf.run_purpose run hrun with ⟨-, h⟩ | ⟨h, -⟩
  · exact h
  · exact absurd h hne

theorem Moves.leads_handshaking (hf : e.Fits) (h : Moves e i es e') (hr : e.Reached .handshaking) :
    Leads .handshaking es e' := by
  obtain ⟨hphase, hrun⟩ := hr
  have hne : e.phase ≠ .established := by
    rcases hphase with h | h <;> simp [h]
  cases h with
  | noted quiet phase => exact noted_leads ⟨hphase, hrun⟩ (by simp) quiet fun h => absurd (phase h) hne
  | closed prior => exact closing_leads (by simp) prior.reports_nil rfl
  | started => exact .idle ⟨.inr rfl, hrun⟩ rfl
  | committed =>
      refine .idle ⟨.inr rfl, ?_⟩ rfl
      intro run hrun'
      obtain rfl := Option.some.inj hrun'
      rfl
  | accepted =>
      refine .idle ⟨hphase, ?_⟩ rfl
      intro run hrun'
      obtain rfl := Option.some.inj hrun'
      rfl
  | @stepped run run' _ _ hp hrun' steps =>
      have hp := hp.resolve_right hne
      rcases steps.reports_eq with ⟨-, hsettled⟩ | ⟨words, peer, run'', -, -, hresult, hes, hsettled, hpeer⟩
      · cases (hrun run hrun').symm.trans (hsettled run' none (hf.initial hne hrun') rfl).1
      · obtain ⟨rfl, -⟩ := Prod.mk.inj (Except.ok.inj hresult)
        refine ⟨.asked peer, ?_, hp, run', rfl, hsettled, hpeer⟩
        rw [hes]
        rfl
  | approved _ hrun' step =>
      have := hrun _ hrun'
      rw [step] at this
      cases this
  | established hp hrun' steps =>
      rcases steps.reports_eq with ⟨-, hsettled⟩ | ⟨_, _, _, -, -, hresult, -⟩
      · cases (hrun _ hrun').symm.trans (hsettled _ _ (hf.initial hne hrun') rfl).1
      · cases hresult
  | began _ begins =>
      obtain ⟨rfl, rfl⟩ := begins.eq_of_phase hne
      exact .idle ⟨hphase, hrun⟩ rfl
  | ended => exact .idle ⟨hphase, hrun⟩ rfl
  | promoted hp | abandoned hp | refused hp | answered hp | yielded hp | sent hp | unsent hp | delivered hp
  | drained hp | rejected hp => exact absurd hp hne

theorem Moves.leads_asked (hf : e.Fits) (h : Moves e i es e') {peer : PeerIdentity} (hr : e.Reached (.asked peer)) :
    Leads (.asked peer) es e' := by
  obtain ⟨hphase, run, hrun, hsettled, hpeer⟩ := hr
  have hne : e.phase ≠ .established := by simp [hphase]
  have hinitial := hf.initial hne hrun
  cases h with
  | noted quiet phase =>
      exact noted_leads ⟨hphase, run, hrun, hsettled, hpeer⟩ (by simp) quiet fun h => absurd (phase h) hne
  | closed prior => exact closing_leads (by simp) prior.reports_nil rfl
  | started hp | committed hp => cases hphase.symm.trans hp
  | accepted _ hnone => cases hrun.symm.trans hnone
  | stepped _ hrun' steps =>
      obtain rfl := Option.some.inj (hrun.symm.trans hrun')
      rcases steps.reports_eq with ⟨hes, hkept⟩ | ⟨_, _, _, -, hunsettled, -⟩
      · obtain ⟨-, hsettled', hpeer'⟩ := hkept _ _ hinitial rfl
        exact .idle ⟨hphase, _, rfl, hsettled', hpeer'.trans hpeer⟩ hes
      · cases hsettled.symm.trans hunsettled
  | approved _ hrun' _ approves =>
      obtain rfl := Option.some.inj (hrun.symm.trans hrun')
      obtain ⟨hsettled', hpeer'⟩ := approves.remoteIdentity
      exact .idle ⟨hphase, _, rfl, hsettled', hpeer'.trans hpeer⟩ approves.reports_nil
  | @established _ _ _ _ candidate _ hrun' steps =>
      obtain rfl := Option.some.inj (hrun.symm.trans hrun')
      obtain ⟨-, hcandidate, -⟩ := steps.candidate
      obtain rfl := Option.some.inj (hpeer.symm.trans hcandidate)
      refine ⟨.established candidate.peer false, ?_, rfl, ?_, rfl⟩
      · rw [reports_append, steps.reports_nil (.inr (by simp)), List.nil_append]
        have hnext : (Stage.asked candidate.peer).next (.established candidate.peer) =
            some (.established candidate.peer false) := if_pos rfl
        exact reads_cons Stage.next hnext []
      · exact congrArg some (Session.new_id candidate.keys candidate.role candidate.peer).2.1
  | began _ begins =>
      obtain ⟨rfl, rfl⟩ := begins.eq_of_phase hne
      exact .idle ⟨hphase, run, hrun, hsettled, hpeer⟩ rfl
  | ended => exact .idle ⟨hphase, run, hrun, hsettled, hpeer⟩ rfl
  | promoted hp | abandoned hp | refused hp | answered hp | yielded hp | sent hp | unsent hp | delivered hp
  | drained hp | rejected hp => exact absurd hp hne

theorem Moves.leads_established (hf : e.Fits) (h : Moves e i es e') {peer : PeerIdentity} {rekeying : Bool}
    (hr : e.Reached (.established peer rekeying)) : Leads (.established peer rekeying) es e' := by
  obtain ⟨hphase, hpeer, hrun⟩ := hr
  have hsome {run : Run} (h : e.run = some run) : rekeying = true := by rw [← hrun, h]; rfl
  have hnone (h : e.run = none) : rekeying = false := by rw [← hrun, h]; rfl
  have hpurpose {run : Run} (h : e.run = some run) : run.purpose = .rekey := by
    rcases hf.run_purpose run h with ⟨h, -⟩ | ⟨-, h⟩
    · cases hphase.symm.trans h
    · exact h
  cases h with
  | noted quiet => exact noted_leads ⟨hphase, hpeer, hrun⟩ (by simp) quiet fun _ => ⟨peer, rekeying, rfl⟩
  | closed prior => exact closing_leads (by simp) prior.reports_nil rfl
  | started hp | committed hp | accepted hp | approved hp | established hp => cases hphase.symm.trans hp
  | stepped _ hrun' steps =>
      obtain rfl := hsome hrun'
      exact .idle ⟨hphase, hpeer, rfl⟩ (steps.reports_nil (.inl (hpurpose hrun')))
  | @promoted _ _ _ _ candidate _ hrun' steps accepts =>
      obtain rfl := hsome hrun'
      refine ⟨.established peer false, ?_, hphase, ?_, rfl⟩
      · rw [reports_append, steps.reports_nil (.inr (by simp))]
        rfl
      · obtain ⟨active, hactive, hsame, -⟩ := accepts
        rw [Engine.peerIdentity, hactive] at hpeer
        rw [← hpeer, Option.map_some, hsame]
        exact congrArg some (Session.new_id candidate.keys candidate.role candidate.peer).2.1
  | @abandoned _ _ error _ abandons =>
      refine ⟨.established peer false, ?_, hphase, hpeer, rfl⟩
      rw [reports_append, abandons.reports_nil, List.nil_append]
      exact reads_cons Stage.next (Stage.next_rekeyFailed peer rekeying error) []
  | @refused _ _ error =>
      refine ⟨.established peer false, ?_, hphase, hpeer, rfl⟩
      exact reads_cons Stage.next (Stage.next_rekeyFailed peer rekeying error) []
  | began _ begins => exact begins.leads ⟨hphase, hpeer, hrun⟩
  | answered _ hfree =>
      obtain rfl := hnone hfree
      exact ⟨.established peer true, rfl, hphase, hpeer, rfl⟩
  | yielded _ hrun' =>
      obtain rfl := hsome hrun'
      exact .idle ⟨hphase, hpeer, rfl⟩ rfl
  | sent _ hactive _ begins =>
      rw [Engine.peerIdentity, hactive] at hpeer
      exact begins.leads ⟨hphase, hpeer, hrun⟩
  | delivered _ _ hactive _ begins =>
      rw [Engine.peerIdentity, hactive] at hpeer
      obtain ⟨stage, hreads, hr⟩ := begins.leads ⟨hphase, hpeer, hrun⟩
      exact ⟨stage, (reads_cons Stage.next rfl _).trans hreads, hr⟩
  | unsent _ hactive =>
      rw [Engine.peerIdentity, hactive] at hpeer
      exact ⟨.established peer rekeying, rfl, hphase, hpeer, hrun⟩
  | drained _ _ hactive =>
      rw [Engine.peerIdentity, hactive] at hpeer
      exact ⟨.established peer rekeying, rfl, hphase, hpeer, hrun⟩
  | rejected _ _ hactive =>
      rw [Engine.peerIdentity, hactive] at hpeer
      exact ⟨.established peer rekeying, rfl, hphase, hpeer, hrun⟩
  | ended => exact .idle ⟨hphase, hpeer, hrun⟩ rfl

end Moves

/-- One call leads the consumer from stage to stage. -/
theorem handle_leads {e : Engine} (hf : e.Fits) {stage : Stage} (hr : e.Reached stage) (i : Input) :
    Leads stage (e.handle i).2 (e.handle i).1 := by
  have hmoves := handle_moves hf i
  have hleads : stage ≠ .closed → Leads stage ((e.handle i).2.filter Effect.visible) (e.handle i).1.timeless := by
    intro hne
    cases stage with
    | handshaking => exact hmoves.leads_handshaking hf hr
    | asked peer => exact hmoves.leads_asked hf hr
    | established peer rekeying => exact hmoves.leads_established hf hr
    | closed => exact absurd rfl hne
  by_cases hclosed : e.phase = .closed
  · rw [handle_closed hclosed]
    exact .idle hr rfl
  · obtain ⟨stage', hreads, hr'⟩ := hleads (hr.ne_closed hclosed)
    rw [reports_visible] at hreads
    exact ⟨stage', hreads, Engine.reached_timeless.1 hr'⟩

/-- What the engine encodes can be encoded, so a rekey that fails has begun. -/
theorem Moves.rekeyFailed (rfc : Ciborium.Rfc8949) {e e' : Engine} {i : Input} {es : List Effect}
    (h : Moves e i es e') {failure : RekeyFailure} (hne : failure ≠ .repeated)
    (hmem : .rekeyFailed failure ∈ reports es) : e.run.isSome = true ∧ reports es = [.rekeyFailed failure] := by
  have hbegins {e e' : Engine} {es : List Effect} (h : Begins e es e') : .rekeyFailed failure ∉ reports es := by
    intro hmem
    cases h with
    | skipped => exact absurd hmem List.not_mem_nil
    | began => simp [Event.report] at hmem
    | @failed active error _ _ _ hrefused =>
        obtain ⟨helloFrame, hhello⟩ := e.hello_isOk rfc .initiator .rekey (some active.id) rfl
        obtain ⟨frame, hcommit⟩ := commitOf_isOk rfc .rekey (some active.id) rfl helloFrame
        exact hrefused helloFrame frame hhello hcommit
  cases h with
  | noted quiet =>
      rw [reports_map] at hmem
      obtain ⟨event, hevent, hreport⟩ := List.mem_map.1 hmem
      cases quiet event hevent with
      | repeated =>
          obtain rfl := ConnEvent.rekeyFailed.inj hreport
          exact absurd rfl hne
      | sendRejected => cases hreport
  | closed prior =>
      rw [reports_append, prior.reports_nil, reports_closing] at hmem
      simp at hmem
  | stepped _ _ steps =>
      rcases steps.reports_eq with ⟨hes, -⟩ | ⟨_, _, _, -, -, -, hes, -⟩ <;> simp [hes] at hmem
  | approved _ _ _ approves => simp [approves.reports_nil] at hmem
  | established _ _ steps | promoted _ _ steps =>
      rw [reports_append, steps.reports_nil (.inr (by simp))] at hmem
      simp [Event.report] at hmem
  | abandoned _ abandons =>
      rw [reports_append, abandons.reports_nil, List.nil_append] at hmem ⊢
      obtain rfl : failure = _ := ConnEvent.rekeyFailed.inj (List.mem_singleton.1 hmem)
      refine ⟨?_, rfl⟩
      cases abandons with
      | stepped _ hrun | refused hrun => simp [hrun]
      | timeout _ hrun => exact hrun
  | @refused _ commit _ _ hd hno =>
      obtain ⟨-, hfits, -⟩ := CommitPayload.carries_of_decode hd
      obtain ⟨helloFrame, hhello⟩ := e.hello_isOk rfc .responder commit.purpose commit.previousSessionId hfits
      exact absurd hhello (hno helloFrame)
  | began _ begins => exact absurd hmem (hbegins begins)
  | sent _ _ _ begins =>
      rw [reports_send] at hmem
      exact absurd hmem (hbegins begins)
  | delivered _ _ _ _ begins =>
      rw [reports_deliver] at hmem
      exact absurd (List.mem_of_ne_of_mem (by simp) hmem) (hbegins begins)
  | started | committed | accepted | answered | yielded | unsent | drained | rejected | ended =>
      simp [Event.report] at hmem

/-- One call reports no failure of a rekey that was not reported started. -/
theorem handle_matched (rfc : Ciborium.Rfc8949) {e : Engine} (hf : e.Fits) {stage : Stage} (hr : e.Reached stage)
    (i : Input) : reads Stage.matched stage (reports (e.handle i).2) = reads Stage.next stage (reports (e.handle i).2) := by
  by_cases hfailed : ∃ failure, failure ≠ .repeated ∧ .rekeyFailed failure ∈ reports (e.handle i).2
  · obtain ⟨failure, hne, hmem⟩ := hfailed
    rw [← reports_visible] at hmem ⊢
    obtain ⟨hrun, hreports⟩ := (handle_moves hf i).rekeyFailed rfc hne hmem
    rw [hreports]
    rcases stage with _ | _ | ⟨peer, _ | _⟩ | _
    · rfl
    · rfl
    · cases hr.2.2.symm.trans hrun
    · rfl
    · rfl
  · refine reads_congr _ ?_ stage
    intro event hevent stage
    refine Stage.matched_eq ?_ stage
    rintro failure rfl
    by_contra hne
    exact hfailed ⟨failure, hne, hevent⟩

omit [Ciborium] [Primitives] in
theorem configured_reached (role : HelloRole) (identity : IdentityKeypair) (entropy : Entropy) (limit : Nat) :
    (Engine.configured role identity entropy limit).Reached .handshaking :=
  ⟨.inl rfl, by simp [Engine.configured, Engine.new, Engine.setRekeyMessageLimit]⟩

end Ruxmsg

import Ruxmsg.Convergence
import Ruxmsg.Paired

namespace Ruxmsg

open Library.Machine Library.Duplex

/-- The frames other than DATA. -/
def handshakes (frames : List Frame) : List Frame := frames.filter (·.messageType ≠ .data)

section Handshakes

variable {frames frames' : List Frame} {frame : Frame}

theorem handshakes_append : handshakes (frames ++ frames') = handshakes frames ++ handshakes frames' :=
  List.filter_append ..

theorem handshakes_cons (ht : frame.messageType ≠ .data) :
    handshakes (frame :: frames) = frame :: handshakes frames :=
  List.filter_cons_of_pos (by simpa using ht)

theorem handshakes_cons_data (ht : frame.messageType = .data) :
    handshakes (frame :: frames) = handshakes frames :=
  List.filter_cons_of_neg (by simpa using ht)

theorem handshakes_eq_self : handshakes frames = frames ↔ ∀ f ∈ frames, f.messageType ≠ .data := by
  simp [handshakes, List.filter_eq_self]

theorem handshakes_eq_nil : handshakes frames = [] ↔ ∀ f ∈ frames, f.messageType = .data := by
  simp [handshakes, List.filter_eq_nil_iff]

end Handshakes

def Frame.Shakes (frame : Frame) : Prop := frame.messageType ≠ .data ∧ frame.messageType ≠ .close

variable [Ciborium] [Primitives]

section Types

omit [Ciborium] [Primitives] in
theorem shakes_of_purpose {frame : Frame} {purpose : HandshakePurpose}
    (h : frame.messageType = messageTypeForPurpose purpose) : frame.Shakes := by
  rw [Frame.Shakes]
  rw [h]
  cases purpose <;> decide

omit [Ciborium] [Primitives] in
theorem shakes_of_confirm {frame : Frame} (h : frame.messageType = .sessionConfirm) : frame.Shakes := by
  rw [Frame.Shakes]
  rw [h]
  decide

variable {x y : View} {toX toY : List Frame}

theorem Competes.shakes {r : Run} {frames : List Frame} (h : Competes x y r frames) :
    ∀ f ∈ frames, f.Shakes := by
  obtain rfl | ⟨frame, commit, rfl, hd, -⟩ := h
  · simp
  · rintro f hf
    rw [List.mem_singleton.1 hf]
    exact shakes_of_purpose (CommitPayload.decode_eq_ok hd).2.2

theorem Signs.shakes {identity : IdentityKeypair} {r : Run} {transcript : Transcript} {hash : Bytes 32}
    {sent : List Frame} (h : Signs identity r transcript hash sent) : ∀ f ∈ sent, f.Shakes := by
  cases h with
  | waits => simp
  | signed _ hauth =>
      rintro f hf
      rw [List.mem_singleton.1 hf]
      exact shakes_of_purpose (HandshakePayload.encode_type hauth)

/-- What the two sides of a handshake have in flight are its frames. -/
theorem Exchange.shakes (h : Exchange x y toX toY) :
    (∀ f ∈ toX, f.Shakes) ∧ ∀ f ∈ toY, f.Shakes := by
  have hcommit {r : Run} {f frame : Frame}
      (hc : (commitOf r.purpose r.previous f).encode = .ok frame) : frame.Shakes :=
    shakes_of_purpose (CommitPayload.encode_type hc)
  cases h with
  | quiet => simp
  | offered _ _ _ hc => simpa using hcommit hc
  | crossed _ _ _ _ hcompetes _ hc => exact ⟨hcompetes.shakes, by simpa using hcommit hc⟩
  | answered _ _ _ hcompetes hello =>
      refine ⟨fun f hf => ?_, by simp⟩
      obtain hf | hf := List.mem_append.1 hf
      · exact hcompetes.shakes f hf
      · rw [List.mem_singleton.1 hf]
        exact shakes_of_purpose (HelloPayload.encode_type hello)
  | revealed _ _ hello _ _ hsigns =>
      refine ⟨by simp, fun f hf => ?_⟩
      obtain rfl | hf := List.mem_cons.1 hf
      · exact shakes_of_purpose (HelloPayload.encode_type hello)
      · exact hsigns.shakes f hf
  | met _ hsigns hawaits =>
      refine ⟨by simp, ?_⟩
      cases hawaits with
      | sas => exact hsigns.shakes
      | early => simp
      | ready => exact hsigns.shakes
  | signed _ _ _ _ hresponse =>
      simpa using shakes_of_purpose (HandshakePayload.encode_type hresponse)
  | confirmed _ _ _ _ _ hconfirm =>
      simpa using shakes_of_confirm (SessionConfirmPayload.encode_type hconfirm)
  | closing _ _ _ _ _ _ hconfirm _ hafter =>
      refine ⟨fun f hf => ?_, by simp⟩
      obtain rfl | hf := List.mem_cons.1 hf
      · exact shakes_of_confirm (SessionConfirmPayload.encode_type hconfirm)
      · obtain ⟨-, rfl⟩ | ⟨r', f', frame', -, -, hc, rfl⟩ := hafter
        · cases hf
        · rw [List.mem_singleton.1 hf]
          exact hcommit hc

theorem Together.shakes (h : Together x y toX toY) : (∀ f ∈ toX, f.Shakes) ∧ ∀ f ∈ toY, f.Shakes := by
  obtain hex | hex := h.exchange
  · exact hex.shakes
  · exact hex.shakes.symm

theorem Together.handshakes_sent {sent : List Frame} (h : Together x y toX (toY ++ sent)) :
    handshakes sent = sent :=
  handshakes_eq_self.2 fun f hf => (h.shakes.2 f (List.mem_append_right _ hf)).1

end Types

def Effect.delivered? : Effect → Option (List UInt8)
  | .deliver content => some content
  | _ => none

omit [Ciborium] [Primitives] in
theorem delivered_notified (events : List Event) :
    (events.map Effect.notify).filterMap Effect.delivered? = [] := by
  rw [List.filterMap_map]
  exact List.filterMap_eq_nil_iff.2 fun _ _ => rfl

/-- The content of a call that asks for it to be sent, if the call sends DATA. -/
def accepted? (i : Input) (out : List Effect) : Option (List UInt8) :=
  match i with
  | .localSend content =>
      if out.any fun effect => effect.frame?.any (·.messageType = .data) then some content else none
  | _ => none

section Data

variable {e e₁ e' : Engine} {frame : Frame} {content : List UInt8} {es : List Effect} {i : Input}

theorem becomes_taken (hp : e.phase = .established) (ht : frame.messageType = .data)
    (h : Takes e frame content e₁) : ∃ messages es e₂, Begins { e₁.timeless with messages } es e₂ ∧
      e.Becomes (.frameReceived frame) (.deliver content :: es) e₂ := by
  have hframe : (⟨e, []⟩ : Ctx).onFrame frame = (⟨e, []⟩ : Ctx).onData frame := by
    rw [Ctx.onFrame]
    rw [hp]
    dsimp only
    rw [ht]
  have hhandle := handle_frame (.inr hp) frame
  rw [hframe] at hhandle
  cases h with
  | @active active receiver ha hd =>
      obtain ⟨es, e₂, hb, hv⟩ := Ctx.maybeTriggerRekey_begins ((((⟨e, []⟩ : Ctx).update fun self =>
        { self with active := some { active with receiver } }).push (.deliver content)).countMessage)
      refine ⟨_, es, e₂, hb, .of_view hhandle ?_⟩
      rw [Ctx.onData]
      rw [ha]
      dsimp only
      rw [hd]
      exact hv
  | @drained active drainee receiver error ha href hdrain hd =>
      refine ⟨e.messages, [], _, .skipped, .of_view hhandle ?_⟩
      rw [Ctx.onData]
      rw [ha]
      dsimp only
      rw [href]
      simp only [Ctx.update, hdrain, hd, Except.toOption]
      rw [Ctx.view_push _ _ rfl]
      simp only [Ctx.view, Ctx.push, Engine.timeless, List.filter_nil, List.nil_append]

variable (rfc : Ciborium.Rfc8949) (correct : Primitives.Correct)

include rfc correct in
theorem becomes_sent (hf : e.Fits)
    (hroom : ∀ active, e.active = some active → active.sender.counter < u64Max) (content : List UInt8) :
    (∃ events : List Event, (∀ event ∈ events, ∃ rejection, event = .sendRejected rejection) ∧
      e.Becomes (.localSend content) (events.map .notify) e.timeless) ∨
    ∃ active frame messages es e₁, e.active = some active ∧
      active.sender.encrypt content = (.ok frame, active.sender.next) ∧
      Begins { e.timeless with active := some { active with sender := active.sender.next }, messages }
        es e₁ ∧
      e.Becomes (.localSend content) (.send frame :: es) e₁ := by
  by_cases hopen : e.phase = .closed
  · refine .inl ⟨[], by simp, ?_, ?_⟩ <;> rw [Engine.handle, if_pos hopen]
    rfl
  have hhandle : e.handle (.localSend content) =
      (((⟨e, []⟩ : Ctx).onSend content).self, ((⟨e, []⟩ : Ctx).onSend content).out) := by
    rw [Engine.handle, if_neg hopen]
  have hreject (rejection : SendRejection) (h : (⟨e, []⟩ : Ctx).onSend content =
      (⟨e, []⟩ : Ctx).push (.notify (.sendRejected rejection))) :
      ∃ events : List Event, (∀ event ∈ events, ∃ rejection, event = .sendRejected rejection) ∧
        e.Becomes (.localSend content) (events.map .notify) e.timeless := by
    refine ⟨[.sendRejected rejection], by simp, .of_view hhandle ?_⟩
    rw [h, Ctx.view_push _ _ rfl]
    rfl
  by_cases hlong : maxContent < content.length
  · refine .inl (hreject .tooLarge ?_)
    rw [Ctx.onSend, if_pos hlong]
  by_cases hp : e.phase = .established
  · obtain ⟨active, ha⟩ := Option.isSome_iff_exists.1 (hf.active_iff.2 hp)
    have hcounter : active.sender.counter + 1 ≤ u64Max := hroom active ha
    obtain ⟨frame, -, he, -⟩ := DataSender.encrypt_isOk rfc correct (Nat.le_of_not_lt hlong) hcounter
    obtain ⟨es, e₂, hb, hv⟩ := Ctx.maybeTriggerRekey_begins ((((⟨e, []⟩ : Ctx).update fun self =>
      { self with active := some { active with sender := active.sender.next } }).push
        (.send frame)).countMessage)
    refine .inr ⟨active, frame, _, es, e₂, ha, he, hb, .of_view hhandle ?_⟩
    rw [Ctx.onSend, if_neg hlong]
    simp only [hp, ha, he, if_true]
    exact hv
  · refine .inl (hreject .notActive ?_)
    rw [Ctx.onSend, if_neg hlong]
    simp only [hp, if_false]

include rfc in
/-- To ask for a rekey leaves the sessions alone, and a run under way. -/
theorem Begins.calm {e₀ : Engine} (h : Begins e₀ es e₁) (ha : e₀.active = e.active)
    (hd : e₀.draining = e.draining) (hr : e₀.run = e.run) :
    e.Calm e₁ (es.filterMap Effect.frame?) := by
  obtain ⟨rfl, rfl⟩ | ⟨active, helloFrame, frame, -, hnone, -, -, hc, rfl, rfl⟩ := h.succeeds rfc
  · refine ⟨ha, hd, by simp, fun run hrun _ => ⟨hr.trans hrun, rfl⟩, ?_⟩
    rintro ⟨run, hrun, hstep⟩
    exact .inl ⟨run, hr.symm.trans hrun, hstep⟩
  · refine ⟨ha, hd, ?_, ?_, ?_⟩
    · intro f hf
      obtain rfl : f = frame := by simpa [Effect.frame?] using hf
      exact (shakes_of_purpose (CommitPayload.encode_type hc)).1
    · intro run hrun
      cases (hnone.symm.trans hr).trans hrun
    · rintro ⟨run, hrun, hstep⟩
      obtain rfl := Option.some.inj hrun
      exact absurd rfl hstep

end Data

section Passing

/-- One call of `e` as a matter of the messages in flight: what it delivers is
taken from those to it, what it accepts is added to those from it. -/
def Passes (e : Engine) (i : Input) (e' : Engine) (toE toE' : List Frame)
    (contents contents' : List (List UInt8)) : Prop :=
  ∃ es e₁ rest, e.Becomes i es e₁ ∧ contents = es.filterMap Effect.delivered? ++ rest ∧
    Paired e₁ e' toE (toE' ++ es.filterMap Effect.frame?) rest (contents' ++ (accepted? i es).toList)

variable {e e₁ e' : Engine} {frame : Frame} {es : List Effect} {toE toE' : List Frame}
  {contents contents' : List (List UInt8)} {i : Input}

theorem Steps.delivers {run : Run} {result : Ctx.Stepped} (h : Steps e run frame es result) :
    es.filterMap Effect.delivered? = [] := by
  cases h <;> rfl

theorem Begins.delivers (h : Begins e es e₁) : es.filterMap Effect.delivered? = [] := by
  cases h <;> rfl

/-- A frame of a handshake that does not end it leaves both sessions alone. -/
theorem Moves.keeps_sessions (ht : frame.Shakes) (hfine : ∀ effect ∈ es, effect.Fine)
    (hstep : ∀ run, e.run = some run → run.step ≠ .confirmResp ∧ run.step ≠ .confirmInit)
    (h : Moves e (.frameReceived frame) es e₁) :
    e₁.active = e.active ∧ e₁.draining = e.draining ∧ es.filterMap Effect.delivered? = [] := by
  have hends {run run' : Run} {candidate : Candidate} {es : List Effect} (hrun : e.run = some run)
      (hs : Steps e run frame es (.ok (run', some candidate))) : False := by
    obtain ⟨h₁, h₂⟩ := hstep run hrun
    cases hs with
    | confirmResp hstep => exact h₁ hstep
    | confirmInit hstep => exact h₂ hstep
  cases h with
  | noted => exact ⟨rfl, rfl, delivered_notified _⟩
  | closed => exact (Engine.closing_not_fine hfine).elim
  | accepted => exact ⟨rfl, rfl, rfl⟩
  | stepped _ _ hs => exact ⟨rfl, rfl, hs.delivers⟩
  | established _ hrun hs => exact (hends hrun hs).elim
  | promoted _ hrun hs => exact (hends hrun hs).elim
  | abandoned => exact (hfine _ (List.mem_append_right _ List.mem_cons_self)).elim
  | refused => exact (hfine _ List.mem_cons_self).elim
  | began _ h =>
      obtain ⟨-, -, ha, hd⟩ := h.keeps
      exact ⟨ha, hd, h.delivers⟩
  | answered => exact ⟨rfl, rfl, rfl⟩
  | yielded => exact ⟨rfl, rfl, rfl⟩
  | delivered _ htype => exact absurd htype ht.1
  | drained _ htype => exact absurd htype ht.1
  | rejected _ htype => exact absurd htype ht.1
  | ended hi =>
      obtain ⟨frame', hframe, hclose⟩ | ⟨_, _, hframe, -⟩ := hi
      · cases hframe
        exact absurd hclose ht.2
      · cases hframe

variable {out out' : List Effect} {r r' : Run} {keys : SessionKeys} {transcript : Transcript}
  {hash shared : Bytes 32} (rfc : Ciborium.Rfc8949) (hprim : Primitives.Correct)

include rfc

theorem Paired.finish_passes (h : Paired e e' (frame :: toE) toE' contents contents') (hs : Sides e e')
    (hpeer : e.phase = .established → e.peerIdentity = some e'.identity.identity)
    (hruns : Runs (e.view out) r .initiator transcript hash shared e'.identity.identity)
    (hstep : r.step = .confirmResp) (hkeys : r.keys = some keys)
    (hactive' : e'.activeSessionId = some keys.sessionId)
    (hconfirm : (confirmOf keys hash .responder).encode = .ok frame) (hidle : ¬ e'.Heard) :
    Passes e (.frameReceived frame) e' toE toE' contents contents' := by
  have hrun : e.run = some r := hruns.run_eq
  have ht : frame.messageType = .sessionConfirm := SessionConfirmPayload.encode_type hconfirm
  have hfresh := hs.freshId r keys hrun hkeys
  obtain ⟨event, e₁, hb, henters, -⟩ := hs.fits.enters hrun ht (.confirmResp hstep
    (hruns.holds.acceptsConfirm rfc hkeys hconfirm) hruns.holds.remote_eq) hpeer hfresh
  have hactive := henters.active_eq
  rw [hruns.role] at hactive
  refine ⟨_, e₁, contents, hb, rfl, ?_⟩
  show Paired e₁ e' toE (toE' ++ []) contents (contents' ++ [])
  rw [List.append_nil, List.append_nil]
  exact h.finish (by simp [ht]) hrun hkeys hactive' hfresh hidle hactive

theorem Paired.confirm_passes (h : Paired e e' (frame :: toE) toE' contents contents')
    (hs : Sides e' e) (hpeer : e.phase = .established → e.peerIdentity = some e'.identity.identity)
    (hagreed : Agreed (e'.view out') (e.view out) r r' transcript hash shared)
    (hstep : r.step = .confirmResp) (hstep' : r'.step = .confirmInit) (hkeys : r.keys = some keys)
    (hkeys' : r'.keys = some keys) (hconfirm : (confirmOf keys hash .initiator).encode = .ok frame)
    (hnone : handshakes toE = []) (hnone' : handshakes toE' = []) :
    Passes e (.frameReceived frame) e' toE toE' contents contents' := by
  have hrun : e'.run = some r := hagreed.runs.run_eq
  have hrun' : e.run = some r' := hagreed.runs'.run_eq
  have ht : frame.messageType = .sessionConfirm := SessionConfirmPayload.encode_type hconfirm
  have hremote : r.localHello.identityPublicKey = e'.identity.identity :=
    (hs.pinned.run_sound r hrun).identity
  obtain ⟨reply, hreply⟩ := confirmOf_isOk rfc keys hash .responder
  have hsteps : Steps e r' frame [.send reply] _ := .confirmInit hstep'
    (hagreed.runs'.holds.acceptsConfirm rfc hkeys' hconfirm) hreply hagreed.runs'.holds.remote_eq
  rw [hremote] at hsteps
  obtain ⟨event, e₁, hb, henters, -⟩ :=
    hs.fits'.enters hrun' ht hsteps hpeer (hs.freshId' r' keys hrun' hkeys')
  have hactive := henters.active_eq
  rw [hagreed.meets.role'] at hactive
  refine ⟨_, e₁, contents, hb, rfl, ?_⟩
  show Paired e₁ e' toE (toE' ++ [reply]) contents (contents' ++ [])
  rw [List.append_nil]
  exact (h.symm.confirm (by simp [ht]) hs.pinned hrun hstep hkeys hrun' hstep' hagreed.level.activeId
    (hs.freshId r keys hrun hkeys) (handshakes_eq_nil.1 hnone') (handshakes_eq_nil.1 hnone)
    (shakes_of_confirm (SessionConfirmPayload.encode_type hreply)).1 hactive henters.draining_eq).symm

theorem Together.passes_handshake (hprim : Primitives.Correct) (hs : Sides e e')
    (h : Together (e.view out) (e'.view out') (handshakes (frame :: toE)) (handshakes toE'))
    (hpaired : Paired e e' (frame :: toE) toE' contents contents') (ht : frame.messageType ≠ .data) :
    Passes e (.frameReceived frame) e' toE toE' contents contents' := by
  rw [handshakes_cons ht] at h
  obtain ⟨es, e₁, hb, hfine, htogether⟩ := h.deliver rfc hprim hs
  have hshakes : frame.Shakes := h.shakes.1 frame List.mem_cons_self
  have hmoves : Moves e (.frameReceived frame) es e₁ := by
    have := handle_moves hs.fits (.frameReceived frame)
    rwa [hb.post, hb.out] at this
  have hskip (hstep : ∀ run, e.run = some run → run.step ≠ .confirmResp ∧ run.step ≠ .confirmInit) :
      Passes e (.frameReceived frame) e' toE toE' contents contents' := by
    obtain ⟨ha, -, hdelivers⟩ := hmoves.keeps_sessions hshakes hfine hstep
    refine ⟨es, e₁, contents, hb, by rw [hdelivers]; rfl, ?_⟩
    show Paired e₁ e' toE (toE' ++ _) contents (contents' ++ [])
    rw [List.append_nil]
    exact hpaired.skip ht (fun run hrun => (hstep run hrun).1) ha
      (handshakes_eq_self.1 htogether.handshakes_sent)
  have hat {run : Run} (hrun : e.run = some run) (h₁ : run.step ≠ .confirmResp)
      (h₂ : run.step ≠ .confirmInit) :
      ∀ run, e.run = some run → run.step ≠ .confirmResp ∧ run.step ≠ .confirmInit := by
    intro run' hrun'
    obtain rfl := Option.some.inj (hrun.symm.trans hrun')
    exact ⟨h₁, h₂⟩
  generalize hX : frame :: handshakes toE = toX at h
  generalize hY : handshakes toE' = toY at h
  obtain hex | hex := h.exchange
  · cases hex with
    | quiet => cases hX
    | offered => cases hX
    | crossed _ hoffers => exact hskip (hat hoffers.run_eq (by simp [hoffers.step]) (by simp [hoffers.step]))
    | answered _ hoffers =>
        exact hskip (hat hoffers.run_eq (by simp [hoffers.step]) (by simp [hoffers.step]))
    | revealed => cases hX
    | met => cases hX
    | signed hagreed hstep =>
        exact hskip (hat hagreed.runs.run_eq (by simp [hstep]) (by simp [hstep]))
    | confirmed => cases hX
    | closing hruns hstep hkeys _ hactive _ hconfirm _ hafter =>
        obtain ⟨rfl, -⟩ := List.cons.inj hX
        refine hpaired.finish_passes rfc hs h.peer hruns hstep hkeys hactive hconfirm ?_
        rintro ⟨run, hrun, hne⟩
        obtain ⟨hnone, -⟩ | ⟨r', f, frame', hoffers, -⟩ := hafter
        · cases hnone.symm.trans hrun
        · obtain rfl := Option.some.inj (hoffers.run_eq.symm.trans hrun)
          exact hne hoffers.step
  · cases hex with
    | quiet => cases hX
    | offered _ _ hnone =>
        refine hskip fun run hrun => ?_
        cases hnone.symm.trans hrun
    | crossed _ _ hoffers =>
        exact hskip (hat hoffers.run_eq (by simp [hoffers.step]) (by simp [hoffers.step]))
    | answered => cases hX
    | revealed _ _ _ hanswers =>
        exact hskip (hat hanswers.run_eq (by simp [hanswers.step]) (by simp [hanswers.step]))
    | met hagreed _ hawaits =>
        cases hawaits with
        | sas hstep => exact hskip (hat hagreed.runs'.run_eq (by simp [hstep]) (by simp [hstep]))
        | early => cases hX
        | ready hstep => exact hskip (hat hagreed.runs'.run_eq (by simp [hstep]) (by simp [hstep]))
    | signed => cases hX
    | confirmed hagreed hstep hstep' hkeys hkeys' hconfirm =>
        obtain ⟨rfl, hnone⟩ := List.cons.inj hX
        exact hpaired.confirm_passes rfc (hs.symm hprim) h.peer hagreed hstep hstep' hkeys hkeys' hconfirm
          hnone hY
    | closing => cases hX

omit rfc in
/-- A side that stands in a session keeps its name, peer and session when its
chains move. -/
theorem Takes.view {content : List UInt8} (h : Takes e frame content e₁) (messages : Nat)
    (out : List Effect) : Engine.view { e₁.timeless with messages } out = e.view out := by
  cases h with
  | active ha =>
      simp only [Engine.view, Engine.activeSessionId, Engine.peerIdentity, Engine.timeless, ha,
        Option.map_some]
  | drained => rfl

omit rfc in
theorem Takes.established {content : List UInt8} (hf : e.Fits) (h : Takes e frame content e₁) :
    e.phase = .established := by
  apply hf.active_iff.1
  cases h with
  | active ha => exact Option.isSome_iff_exists.2 ⟨_, ha⟩
  | drained ha => exact Option.isSome_iff_exists.2 ⟨_, ha⟩

omit rfc in
theorem Starts.handshakes_sent {x x' : View} {sent : List Frame} (h : Starts x x' sent) :
    handshakes sent = sent := by
  cases h with
  | skipped => rfl
  | began _ _ _ hc =>
      exact handshakes_eq_self.2 (by simpa using (shakes_of_purpose (CommitPayload.encode_type hc)).1)

theorem Together.passes_data {y : View} {toY : List Frame} (hf : e.Fits)
    (hdistinct : e.identity.identity ≠ y.identity.identity)
    (h : Together (e.view out) y (handshakes (frame :: toE)) toY)
    (hpaired : Paired e e' (frame :: toE) toE' contents contents') (ht : frame.messageType = .data) :
    Acts e out (.frameReceived frame) (fun x sent => Together x y (handshakes toE) (toY ++ handshakes sent)) ∧
      Passes e (.frameReceived frame) e' toE toE' contents contents' := by
  rw [handshakes_cons_data ht] at h
  obtain ⟨content, rest, e₁, rfl, htakes, hpaired₁⟩ := hpaired.take ht
  obtain ⟨messages, es, e₂, hbegins, hb⟩ := becomes_taken (htakes.established hf) ht htakes
  obtain ⟨hplain, hst⟩ : (∀ effect ∈ es, effect.Plain) ∧ Starts
      (Engine.view { e₁.timeless with messages } out) (e₂.view out) (es.filterMap Effect.frame?) :=
    hbegins.starts rfc
  have hcalm : e₁.Calm e₂ (es.filterMap Effect.frame?) := hbegins.calm rfc rfl rfl rfl
  rw [htakes.view] at hst
  refine ⟨?_, _, e₂, rest, hb, ?_, ?_⟩
  · refine Acts.plain hb ?_ ?_
    · intro effect hm
      obtain rfl | hm := List.mem_cons.1 hm
      · simp
      · exact hplain effect hm
    · show Together _ y _ (toY ++ handshakes (es.filterMap Effect.frame?))
      rw [hst.handshakes_sent]
      exact h.starts rfc hdistinct hst
  · show content :: rest = content :: es.filterMap Effect.delivered? ++ rest
    rw [hbegins.delivers]
    rfl
  · show Paired e₂ e' toE (toE' ++ es.filterMap Effect.frame?) rest (contents' ++ [])
    rw [List.append_nil]
    exact hpaired₁.calm hcalm

theorem Moves.calm (hf : e.Fits) (hi : i = .sasDecision true ∨ i = .requestRekey)
    (hfine : ∀ effect ∈ es, effect.Fine)
    (hothers : ∀ f ∈ es.filterMap Effect.frame?, f.messageType ≠ .data) (h : Moves e i es e₁) :
    e.Calm e₁ (es.filterMap Effect.frame?) ∧ es.filterMap Effect.delivered? = [] := by
  have hno {kind : DeadlineKind} (hfires : e.Fires kind i) : False := by
    obtain ⟨_, _, rfl, -⟩ := hfires
    simp at hi
  cases h with
  | noted =>
      exact ⟨⟨rfl, rfl, hothers, fun run hrun _ => ⟨hrun, frames_notified _⟩, .inl⟩,
        delivered_notified _⟩
  | closed => exact (Engine.closing_not_fine hfine).elim
  | approved hp hrun hstep happroves =>
      have hnone : e.active = none :=
        Option.not_isSome_iff_eq_none.1 fun h => by simpa [hp] using hf.active_iff.1 h
      refine ⟨⟨rfl, rfl, hothers, ?_, fun _ => .inr hnone⟩, by cases happroves <;> rfl⟩
      intro run' hrun' hconfirm
      obtain rfl := Option.some.inj (hrun.symm.trans hrun')
      cases hstep.symm.trans hconfirm
  | abandoned => exact (hfine _ (List.mem_append_right _ List.mem_cons_self)).elim
  | began _ h => exact ⟨h.calm rfc rfl rfl rfl, h.delivers⟩
  | ended hi' =>
      obtain ⟨_, rfl, -⟩ | hfires := hi'
      · simp at hi
      · exact (hno hfires).elim
  | _ => simp at hi

theorem Paired.passes_calm {P : View → List Frame → Prop}
    (h : Paired e e' toE toE' contents contents') (hf : e.Fits)
    (hi : i = .sasDecision true ∨ i = .requestRekey) (hacts : Acts e out i P)
    (hP : ∀ x sent, P x sent → ∀ f ∈ sent, f.messageType ≠ .data) :
    Passes e i e' toE toE' contents contents' := by
  obtain ⟨es, e₁, hb, hfine, hpost⟩ := hacts
  have hmoves : Moves e i es e₁ := by
    have := handle_moves hf i
    rwa [hb.post, hb.out] at this
  obtain ⟨hcalm, hdelivers⟩ := hmoves.calm rfc hf hi hfine (hP _ _ hpost)
  refine ⟨es, e₁, contents, hb, by rw [hdelivers]; rfl, ?_⟩
  have hnone : accepted? i es = none := by
    obtain rfl | rfl := hi <;> rfl
  rw [hnone, Option.toList_none, List.append_nil]
  exact h.calm hcalm

theorem Together.passes_send (hprim : Primitives.Correct) {y : View} {toX toY : List Frame}
    (hf : e.Fits) (hdistinct : e.identity.identity ≠ y.identity.identity)
    (h : Together (e.view out) y toX toY) (hpaired : Paired e e' toE toE' contents contents')
    (hroom : ∀ active, e.active = some active → active.sender.counter < u64Max) (content : List UInt8) :
    Acts e out (.localSend content) (fun x sent => Together x y toX (toY ++ handshakes sent)) ∧
      Passes e (.localSend content) e' toE toE' contents contents' := by
  obtain ⟨events, hevents, hb⟩ | ⟨active, frame, messages, es, e₁, ha, he, hbegins, hb⟩ :=
    becomes_sent rfc hprim hf hroom content
  · have hnone : accepted? (.localSend content) (events.map .notify) = none := by
      simp [accepted?, Effect.frame?]
    refine ⟨Acts.plain hb ?_ ?_, _, _, contents, hb, by rw [delivered_notified]; rfl, ?_⟩
    · intro effect hm
      obtain ⟨event, hevent, rfl⟩ := List.mem_map.1 hm
      obtain ⟨rejection, rfl⟩ := hevents event hevent
      simp [Effect.Plain, Effect.Fine, Effect.words?]
    · rw [frames_notified]
      show Together (e.view out) y toX (toY ++ [])
      rwa [List.append_nil]
    · rw [frames_notified, hnone]
      show Paired e.timeless e' toE (toE' ++ []) contents (contents' ++ [])
      rw [List.append_nil contents']
      exact hpaired.calm ⟨rfl, rfl, by simp, fun run hrun _ => ⟨hrun, rfl⟩, .inl⟩
  · have htype := DataSender.encrypt_type he
    obtain ⟨hplain, hst⟩ : (∀ effect ∈ es, effect.Plain) ∧ Starts (Engine.view _ out) (e₁.view out)
        (es.filterMap Effect.frame?) := hbegins.starts rfc
    have hview : Engine.view { e.timeless with
        active := some { active with sender := active.sender.next }, messages } out = e.view out := by
      simp only [Engine.view, Engine.activeSessionId, Engine.peerIdentity, Engine.timeless, ha,
        Option.map_some]
    have hcalm : Engine.Calm { e with active := some { active with sender := active.sender.next } } e₁
        (es.filterMap Effect.frame?) := hbegins.calm rfc rfl rfl rfl
    have hsome : accepted? (.localSend content) (.send frame :: es) = some content := by
      simp [accepted?, Effect.frame?, htype]
    rw [hview] at hst
    refine ⟨Acts.plain hb ?_ ?_, _, e₁, contents, hb, ?_, ?_⟩
    · intro effect hm
      obtain rfl | hm := List.mem_cons.1 hm
      · simp
      · exact hplain effect hm
    · show Together _ y toX (toY ++ handshakes (frame :: es.filterMap Effect.frame?))
      rw [handshakes_cons_data htype, hst.handshakes_sent]
      exact h.starts rfc hdistinct hst
    · show contents = es.filterMap Effect.delivered? ++ contents
      rw [hbegins.delivers]
      rfl
    · rw [hsome]
      show Paired e₁ e' toE (toE' ++ frame :: es.filterMap Effect.frame?) contents (contents' ++ [content])
      rw [List.append_cons]
      exact (hpaired.send rfc hprim ha he).calm hcalm

end Passing

end Ruxmsg

import Ruxmsg.Promotion
import Ruxmsg.Payloads

namespace Ruxmsg

variable [Ciborium]

theorem HelloPayload.encode_type {p : HelloPayload} {frame : Frame} (h : p.encode = .ok frame) :
    frame.messageType = messageTypeForPurpose p.purpose :=
  encodeMap_type (encode_eq_ok.1 h).2.2

theorem CommitPayload.encode_type {p : CommitPayload} {frame : Frame} (h : p.encode = .ok frame) :
    frame.messageType = messageTypeForPurpose p.purpose :=
  encodeMap_type (encode_eq_ok.1 h).2.2

theorem HandshakePayload.encode_type {p : HandshakePayload} {frame : Frame} (h : p.encode = .ok frame) :
    frame.messageType = messageTypeForPurpose p.purpose := by
  simp only [encode, bind_eq_ok, ensure_eq_ok] at h
  obtain ⟨_, -, _, -, _, -, h⟩ := h
  exact encodeMap_type h

theorem SessionConfirmPayload.encode_type {p : SessionConfirmPayload} {frame : Frame}
    (h : p.encode = .ok frame) : frame.messageType = .sessionConfirm := encodeMap_type h

theorem ClosePayload.encode_type {p : ClosePayload} {frame : Frame} (h : p.encode = .ok frame) :
    frame.messageType = .close := by
  simp only [encode, bind_eq_ok, ensure_eq_ok] at h
  obtain ⟨_, -, h⟩ := h
  exact encodeMap_type h

omit [Ciborium] in
theorem messageTypeForPurpose_ne_data (purpose : HandshakePurpose) :
    messageTypeForPurpose purpose ≠ .data := by
  cases purpose <;> decide

theorem send_mem_closing {e : Engine} {cause : CloseCause} {notifyPeer : Option CloseReason} {f : Frame}
    (h : .send f ∈ e.closing cause notifyPeer) : f.messageType = .close := by
  simp only [Engine.closing, List.mem_append, List.mem_cons, reduceCtorEq, List.not_mem_nil,
    or_false] at h
  split at h
  next =>
      split at h
      next he =>
          simp only [List.mem_singleton, Effect.send.injEq] at h
          exact h ▸ ClosePayload.encode_type he
      next => cases h
  next => cases h

variable [Primitives]

omit [Ciborium] [Primitives] in
/-- A COMMIT of the purpose and the predecessor that the engine would answer. -/
def Engine.Invites (e : Engine) (commit : CommitPayload) : Prop :=
  (commit.purpose = .initial ∧ e.phase = .handshaking ∧ commit.previousSessionId = none) ∨
  (commit.purpose = .rekey ∧ e.phase = .established ∧ commit.previousSessionId.isSome ∧
    commit.previousSessionId = e.activeSessionId)

/-- The frames a call sends, by what made it send them; `post` is the run that
the call leaves. -/
inductive Sends (e : Engine) (i : Input) (post : Option Run) : Frame → Prop
  | reveal {run frame remote reveal} (run_eq : e.run = some run) (step : run.step = .hello)
      (input : i = .frameReceived frame) (accepts : AcceptsHello e run frame remote .responder)
      (kept : run.localHelloFrame = some reveal) : Sends e i post reveal
  | commit {purpose previous helloFrame frame}
      (encoded : (commitOf purpose previous helloFrame).encode = .ok frame) : Sends e i post frame
  | answer {frame commit helloFrame} (input : i = .frameReceived frame) (invites : e.Invites commit)
      (accepts : AcceptsCommit e frame commit helloFrame)
      (post_eq : post = some (e.responderRun commit)) : Sends e i post helloFrame
  | auth {run' transcript hash frame} (post_eq : post = some run') (role : run'.role = .initiator)
      (encoded : (e.authOf transcript hash).encode = .ok frame) : Sends e i post frame
  | response {run' transcript hash auth keys frame} (post_eq : post = some run')
      (keys_eq : run'.keys = some keys) (step : run'.step = .confirmInit)
      (encoded : (e.responseOf transcript hash auth).encode = .ok frame)
      (signed : auth.responderSignature = none) : Sends e i post frame
  | confirm {run keys hash frame} (run_eq : e.run = some run) (step : run.step = .authResp)
      (encoded : (confirmOf keys hash .initiator).encode = .ok frame) : Sends e i post frame
  | reply {run frame confirm keys hash reply} (run_eq : e.run = some run)
      (step : run.step = .confirmInit) (input : i = .frameReceived frame)
      (accepts : AcceptsConfirm run frame confirm keys hash .initiator)
      (encoded : (confirmOf keys hash .responder).encode = .ok reply) : Sends e i post reply
  | close {frame} (type : frame.messageType = .close) : Sends e i post frame
  | data {content active sender frame} (input : i = .localSend content)
      (phase : e.phase = .established) (active_eq : e.active = some active)
      (encrypted : active.sender.encrypt content = (.ok frame, sender)) : Sends e i post frame

theorem Steps.sends {e : Engine} {run : Run} {frame : Frame} {es : List Effect}
    {result : Ctx.Stepped} {post : Option Run} (hrun : e.run = some run)
    (h : Steps e run frame es result)
    (hpost : ∀ run', result = .ok (run', none) → post = some run') {f : Frame} (hf : .send f ∈ es) :
    Sends e (.frameReceived frame) post f := by
  cases h with
  | helloSas hs hacc hk | helloFailed _ hs hacc hk =>
      simp only [List.mem_cons, List.not_mem_nil, or_false, Effect.send.injEq, reduceCtorEq] at hf
      exact hf ▸ .reveal hrun hs rfl hacc hk
  | helloAuth hs hacc hk _ _ hrole he =>
      simp only [List.mem_cons, List.not_mem_nil, or_false, Effect.send.injEq] at hf
      obtain rfl | rfl := hf
      · exact .reveal hrun hs rfl hacc hk
      · exact .auth (hpost _ rfl) hrole he
  | revealSas => simp at hf
  | revealAuth | early | confirmResp | failed => cases hf
  | authResp hs _ _ he =>
      simp only [List.mem_singleton, Effect.send.injEq] at hf
      exact hf ▸ .confirm hrun hs he
  | authInit _ _ hst he =>
      simp only [List.mem_singleton, Effect.send.injEq] at hf
      exact hf ▸ .response (hpost _ rfl) rfl rfl he (Option.isNone_iff_eq_none.1 hst.2)
  | confirmInit hs hacc he | confirmFailed _ hs hacc he =>
      simp only [List.mem_singleton, Effect.send.injEq] at hf
      exact hf ▸ .reply hrun hs rfl hacc he

theorem Approves.sends {e : Engine} {run : Run} {i : Input} {es : List Effect}
    {result : Ctx.Stepped} {post : Option Run} (h : Approves e run es result)
    (hpost : ∀ run', result = .ok (run', none) → post = some run') {f : Frame} (hf : .send f ∈ es) :
    Sends e i post f := by
  cases h with
  | initiator hrole _ _ he =>
      simp only [List.mem_singleton, Effect.send.injEq] at hf
      exact hf ▸ .auth (hpost _ rfl) hrole he
  | early _ _ _ _ _ hst he =>
      simp only [List.mem_singleton, Effect.send.injEq] at hf
      exact hf ▸ .response (hpost _ rfl) rfl rfl he (Option.isNone_iff_eq_none.1 hst.2)
  | responder | failed => cases hf

theorem Begins.sends {e₀ e e' : Engine} {es : List Effect} {i : Input} {post : Option Run}
    (h : Begins e es e') {f : Frame} (hf : .send f ∈ es) : Sends e₀ i post f := by
  cases h with
  | skipped => cases hf
  | began _ _ _ _ hc =>
      simp only [List.mem_cons, List.not_mem_nil, or_false, Effect.send.injEq, reduceCtorEq] at hf
      exact hf ▸ .commit hc
  | failed => simp at hf

/-- Every frame a move sends has a reason. -/
theorem Moves.sends {e e' : Engine} {i : Input} {es : List Effect} (h : Moves e i es e') {f : Frame}
    (hf : .send f ∈ es) : Sends e i e'.run f := by
  have hlast : ∀ {es : List Effect} {event : Event}, .send f ∈ es ++ [.notify event] → .send f ∈ es := by
    intro es event h
    simpa using h
  cases h with
  | noted => simp at hf
  | closed prior =>
      obtain hf | hf := List.mem_append.1 hf
      · cases prior with
        | none => cases hf
        | stepped _ _ hr hs => exact hs.sends hr (by simp) hf
      · exact .close (send_mem_closing hf)
  | started => cases hf
  | committed _ _ hc =>
      simp only [List.mem_singleton, Effect.send.injEq] at hf
      exact hf ▸ .commit hc
  | accepted hp _ hacc hpurpose hprev =>
      simp only [List.mem_singleton, Effect.send.injEq] at hf
      exact hf ▸ .answer rfl (.inl ⟨hpurpose, hp, hprev⟩) hacc rfl
  | stepped _ hr hs =>
      refine hs.sends hr ?_ hf
      rintro _ ⟨⟩
      rfl
  | approved _ _ _ happ =>
      refine happ.sends ?_ hf
      rintro _ ⟨⟩
      rfl
  | established _ hr hs => exact hs.sends hr (by simp) (hlast hf)
  | promoted _ hr hs => exact hs.sends hr (by simp) (hlast hf)
  | abandoned _ habandon =>
      replace hf := hlast hf
      cases habandon with
      | stepped _ hr hs => exact hs.sends hr (by simp) hf
      | refused hr hs => exact hs.sends hr (by simp) hf
      | timeout => cases hf
  | refused => simp at hf
  | began _ h => exact h.sends hf
  | answered hp _ hacc hpurpose hsome hprev =>
      simp only [List.mem_cons, List.not_mem_nil, or_false, Effect.send.injEq, reduceCtorEq] at hf
      exact hf ▸ .answer rfl (.inr ⟨hpurpose, hp, hsome, hprev⟩) hacc rfl
  | yielded hp _ _ _ _ _ _ hacc hpurpose hsome hprev =>
      simp only [List.mem_singleton, Effect.send.injEq] at hf
      exact hf ▸ .answer rfl (.inr ⟨hpurpose, hp, hsome, hprev⟩) hacc rfl
  | sent hp ha henc h =>
      obtain hf | hf := List.mem_cons.1 hf
      · cases hf
        exact .data rfl hp ha henc
      · exact h.sends hf
  | unsent => simp at hf
  | delivered _ _ _ _ h =>
      obtain hf | hf := List.mem_cons.1 hf
      · cases hf
      · exact h.sends hf
  | drained => simp at hf
  | rejected => simp at hf
  | ended => cases hf

end Ruxmsg

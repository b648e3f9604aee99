import Ruxmsg.Authentication
import Ruxmsg.Order
import Ruxmsg.Traffic
import Ruxmsg.Closing
import Ruxmsg.Reference

namespace Ruxmsg

open Library.Machine Library.Duplex

variable [Ciborium] [Primitives]

omit [Primitives] in
def Frame.Completes (frame : Frame) : Prop :=
  ∃ confirm, SessionConfirmPayload.decode frame = .ok confirm ∧ confirm.role = .responder

/-- The active session was made from these keys and has since been used only. -/
def Engine.Made (e : Engine) (keys : SessionKeys) (role : HelloRole) : Prop :=
  ∃ peer s, e.active = some s ∧ Relation.ReflTransGen Session.Uses (Session.new keys role peer) s

section Calls

variable {e e' : Engine} {i : Input} {es : List Effect} {run : Run} {frame : Frame}

omit [Primitives] in
theorem Frame.Completes.type (h : frame.Completes) : frame.messageType = .sessionConfirm := by
  obtain ⟨confirm, hd, -⟩ := h
  exact SessionConfirmPayload.decode_type hd

theorem AcceptsConfirm.type {confirm : SessionConfirmPayload} {keys : SessionKeys} {hash : Bytes 32}
    {expectedRole : HelloRole} (h : AcceptsConfirm run frame confirm keys hash expectedRole) :
    frame.messageType = .sessionConfirm := SessionConfirmPayload.decode_type h.decoded

theorem Engine.Made.activeSessionId {keys : SessionKeys} {role : HelloRole} (h : e.Made keys role) :
    e.activeSessionId = some keys.sessionId := by
  obtain ⟨peer, s, ha, hu⟩ := h
  have hid : s.id = (Session.new keys role peer).id := by
    clear ha
    induction hu with
    | refl => rfl
    | tail _ huses ih => exact huses.keeps.1.trans ih
  rw [Engine.activeSessionId, ha, Option.map_some, hid, (Session.new_id keys role peer).1]

def Engine.KeepsActive (e e' : Engine) : Prop :=
  e'.active = e.active ∨ ∃ s s', e.active = some s ∧ e'.active = some s' ∧ s.Uses s'

theorem Engine.KeepsActive.made {keys : SessionKeys} {role : HelloRole} (h : e.KeepsActive e')
    (hm : e.Made keys role) : e'.Made keys role := by
  obtain ⟨peer, s, ha, hu⟩ := hm
  obtain hkept | ⟨s₁, s', ha₁, ha', huses⟩ := h
  · exact ⟨peer, s, hkept.trans ha, hu⟩
  · obtain rfl := Option.some.inj (ha.symm.trans ha₁)
    exact ⟨peer, s', ha', hu.tail huses⟩

theorem Engine.KeepsActive.activeSessionId (h : e.KeepsActive e') :
    e'.activeSessionId = e.activeSessionId := by
  obtain hkept | ⟨s, s', ha, ha', huses⟩ := h
  · rw [Engine.activeSessionId, hkept]
    rfl
  · rw [Engine.activeSessionId, Engine.activeSessionId, ha, ha', Option.map_some, Option.map_some,
      huses.keeps.1]

theorem Engine.Becomes.active (h : e.Becomes i es e') : (e.handle i).1.active = e'.active := by
  rw [← h.post]
  rfl

theorem Engine.Evident.closing {calls : List Call} (h : e.Evident calls) (hrun : e.run = some run) :
    (run.step = .confirmInit → run.role = .responder ∧ run.remoteIdentity.isSome) ∧
      (run.step = .confirmResp → run.role = .initiator ∧ run.remoteIdentity.isSome) := by
  obtain ⟨_, first, during, -, hev⟩ := h run hrun
  have hheard (h : run.step ≠ .hello) (h' : run.step ≠ .reveal) : run.remoteIdentity.isSome := by
    obtain ⟨remote, _, _, _, hheard⟩ := hev.heard h h'
    rw [hheard.remote_eq]
    rfl
  constructor
  · intro hs
    exact ⟨hev.responder (.inr hs), hheard (by simp [hs]) (by simp [hs])⟩
  · intro hs
    exact ⟨hev.initiator (.inr hs), hheard (by simp [hs]) (by simp [hs])⟩

/-- The confirmation of a responder goes out in answer to that of its
initiator. -/
theorem Sends.completes (rfc : Ciborium.Rfc8949) (hp : e.Pinned) {post : Option Run}
    (h : Sends e i post frame) (hc : frame.Completes) :
    ∃ run received confirm keys hash, e.run = some run ∧ run.step = .confirmInit ∧
      i = .frameReceived received ∧ AcceptsConfirm run received confirm keys hash .initiator := by
  obtain ⟨confirm, hd, hrole⟩ := hc
  obtain ⟨run, hrun, ⟨-, hother⟩ | ⟨hs, -, received, accepted, keys, hash, hi, hacc⟩⟩ :=
    h.confirm_payload rfc hp hd
  · cases hrole.symm.trans hother
  · exact ⟨run, received, accepted, keys, hash, hrun, hs, hi, hacc⟩

/-- The candidate of a run whose peer is that of the active session. -/
theorem Engine.Pinned.acceptsCandidate_iff (hf : e.Fits) (hp : e.Pinned) (hphase : e.phase = .established)
    (hrun : e.run = some run) {peer : PeerIdentity} (hpeer : run.remoteIdentity = some peer)
    (keys : SessionKeys) (role : HelloRole) :
    e.acceptsCandidate ⟨keys, peer, role⟩ ↔ e.activeSessionId ≠ some keys.sessionId := by
  obtain ⟨active, ha⟩ := Option.isSome_iff_exists.1 (hf.active_iff.2 hphase)
  have hsame := ((hp.run_sound run hrun).remote peer hpeer).2 active ha
  rw [Engine.activeSessionId, ha, Option.map_some, ne_eq, Option.some.injEq]
  constructor
  · rintro ⟨active', ha', -, hid⟩
    obtain rfl := Option.some.inj (ha.symm.trans ha')
    exact hid
  · intro hid
    exact ⟨active, ha, hsame.symm, hid⟩

/-- What a call of an established engine that stays established does to its
active session, and the confirmations of a responder that it sends. -/
inductive Turns (e : Engine) (i : Input) (es : List Effect) (e' : Engine) : Prop
  | quiet (kept : e.KeepsActive e') (calm : ∀ f, .send f ∈ es → ¬ f.Completes) : Turns e i es e'
  | completed {run received confirm keys hash} (run_eq : e.run = some run)
      (step : run.step = .confirmResp) (input : i = .frameReceived received)
      (accepts : AcceptsConfirm run received confirm keys hash .responder)
      (fresh : e.activeSessionId ≠ some keys.sessionId) : Turns e i es e'
  | replied {run received confirm keys hash reply} (run_eq : e.run = some run)
      (step : run.step = .confirmInit) (input : i = .frameReceived received)
      (accepts : AcceptsConfirm run received confirm keys hash .initiator)
      (encoded : (confirmOf keys hash .responder).encode = .ok reply)
      (sent : es.filterMap Effect.frame? = [reply])
      (active : (e.activeSessionId ≠ some keys.sessionId ∧
          ∃ peer, e'.active = some (Session.new keys .responder peer)) ∨
        (e.activeSessionId = some keys.sessionId ∧ e'.active = e.active)) : Turns e i es e'

theorem Moves.keepsActive (h : Moves e i es e') (hp : e.phase = .established)
    (hp' : e'.phase = .established)
    (hno : ∀ run run' received es candidate, e.run = some run → i = .frameReceived received →
      Steps e run received es (.ok (run', some candidate)) → ¬ e.acceptsCandidate candidate) :
    e.KeepsActive e' := by
  have hbegins {e₀ e' : Engine} {es : List Effect} (hb : Begins e₀ es e') (hk : e.KeepsActive e₀) :
      e.KeepsActive e' := by
    obtain hk | ⟨s, s', ha, ha', hu⟩ := hk
    · exact .inl (hb.keeps.2.2.1.trans hk)
    · exact .inr ⟨s, s', ha, hb.keeps.2.2.1.trans ha', hu⟩
  cases h with
  | closed => cases hp'
  | established hi => cases hp.symm.trans hi
  | promoted _ hr hs hacc => exact absurd hacc (hno _ _ _ _ _ hr rfl hs)
  | began _ h => exact hbegins h (.inl rfl)
  | sent _ ha henc h => exact hbegins h (.inr ⟨_, _, ha, rfl, .sent henc⟩)
  | unsent _ ha henc => exact .inr ⟨_, _, ha, rfl, .sent henc⟩
  | delivered _ _ ha hdec h => exact hbegins h (.inr ⟨_, _, ha, rfl, .received hdec⟩)
  | drained _ _ ha hdec => exact .inr ⟨_, _, ha, rfl, .received hdec⟩
  | rejected _ _ ha hdec => exact .inr ⟨_, _, ha, rfl, .received hdec⟩
  | _ => exact .inl rfl

theorem handle_replies (rfc : Ciborium.Rfc8949) (hf : e.Fits) (hpin : e.Pinned) {calls : List Call}
    (hev : e.Evident calls) (hp : e.phase = .established) (hrun : e.run = some run)
    (hs : run.step = .confirmInit) {confirm : SessionConfirmPayload} {keys : SessionKeys}
    {hash : Bytes 32} (hacc : AcceptsConfirm run frame confirm keys hash .initiator) :
    Turns e (.frameReceived frame) (e.handle (.frameReceived frame)).2
      (e.handle (.frameReceived frame)).1 := by
  obtain ⟨reply, hreply⟩ := confirmOf_isOk rfc keys hash .responder
  obtain ⟨hrole, hknown⟩ := (hev.closing hrun).1 hs
  obtain ⟨peer, hpeer⟩ := Option.isSome_iff_exists.1 hknown
  have hsteps : Steps e run frame _ _ := .confirmInit hs hacc hreply hpeer
  have hiff := hpin.acceptsCandidate_iff hf hp hrun hpeer keys run.role
  have hframes {e' : Engine} {event : Event}
      (h : e.Becomes (.frameReceived frame) ([.send reply] ++ [.notify event]) e') :
      (e.handle (.frameReceived frame)).2.filterMap Effect.frame? = [reply] := by
    rw [← frames_visible, h.out]
    rfl
  by_cases hfresh : e.activeSessionId = some keys.sessionId
  · have hdeclined := becomes_declined hf hp hacc.type hrun hsteps fun h => hiff.1 h hfresh
    have hkept := hdeclined.active
    exact .replied hrun hs rfl hacc hreply (hframes hdeclined) (.inr ⟨hfresh, hkept⟩)
  · have hpromoted := becomes_promoted hf hp hacc.type hrun hsteps (hiff.2 hfresh)
    rw [hrole] at hpromoted
    exact .replied hrun hs rfl hacc hreply (hframes hpromoted) (.inl ⟨hfresh, peer, hpromoted.active⟩)

theorem handle_completes (hf : e.Fits) (hpin : e.Pinned) {calls : List Call} (hev : e.Evident calls)
    (hp : e.phase = .established) (hrun : e.run = some run) (hs : run.step = .confirmResp)
    {confirm : SessionConfirmPayload} {keys : SessionKeys} {hash : Bytes 32}
    (hacc : AcceptsConfirm run frame confirm keys hash .responder)
    (hfresh : e.activeSessionId ≠ some keys.sessionId) :
    (∃ peer, (e.handle (.frameReceived frame)).1.active = some (Session.new keys .initiator peer)) ∧
      (e.handle (.frameReceived frame)).2.filterMap Effect.frame? = [] := by
  obtain ⟨hrole, hknown⟩ := (hev.closing hrun).2 hs
  obtain ⟨peer, hpeer⟩ := Option.isSome_iff_exists.1 hknown
  have hsteps : Steps e run frame _ _ := .confirmResp hs hacc hpeer
  have hpromoted := becomes_promoted hf hp hacc.type hrun hsteps
    ((hpin.acceptsCandidate_iff hf hp hrun hpeer keys run.role).2 hfresh)
  rw [hrole] at hpromoted
  refine ⟨⟨peer, hpromoted.active⟩, ?_⟩
  rw [← frames_visible, hpromoted.out]
  rfl

theorem handle_turns (rfc : Ciborium.Rfc8949) (hf : e.Fits) (hpin : e.Pinned) {calls : List Call}
    (hev : e.Evident calls) (hp : e.phase = .established) (hp' : (e.handle i).1.phase = .established) :
    Turns e i (e.handle i).2 (e.handle i).1 := by
  have hmoves := handle_moves hf i
  by_cases hreply : ∃ run received confirm keys hash, e.run = some run ∧ run.step = .confirmInit ∧
      i = .frameReceived received ∧ AcceptsConfirm run received confirm keys hash .initiator
  · obtain ⟨run, received, confirm, keys, hash, hrun, hs, rfl, hacc⟩ := hreply
    exact handle_replies rfc hf hpin hev hp hrun hs hacc
  · have hcalm : ∀ f, .send f ∈ (e.handle i).2 → ¬ f.Completes := by
      intro f hf hc
      exact hreply ((hmoves.sends ((mem_visible rfl _).2 hf)).completes rfc hpin hc)
    by_cases hcomplete : ∃ run received confirm keys hash, e.run = some run ∧ run.step = .confirmResp ∧
        i = .frameReceived received ∧ AcceptsConfirm run received confirm keys hash .responder ∧
          e.activeSessionId ≠ some keys.sessionId
    · obtain ⟨run, received, confirm, keys, hash, hrun, hs, rfl, hacc, hfresh⟩ := hcomplete
      exact .completed hrun hs rfl hacc hfresh
    · refine .quiet ?_ hcalm
      have hkeeps := hmoves.keepsActive hp hp' ?_
      · exact hkeeps
      · rintro run run' received es candidate hrun rfl hsteps hacc
        cases hsteps with
        | confirmResp hs haccepts hpeer =>
            refine hcomplete ⟨run, received, _, _, _, hrun, hs, rfl, haccepts, ?_⟩
            exact (hpin.acceptsCandidate_iff hf hp hrun hpeer _ _).1 hacc
        | confirmInit hs haccepts _ hpeer =>
            exact hreply ⟨run, received, _, _, _, hrun, hs, rfl, haccepts⟩

theorem Ctx.onData_run {c : Ctx} (hrun : c.self.run = some run) :
    (c.onData frame).self.run = some run ∨ (c.onData frame).self.phase = .closed := by
  have htrigger {c : Ctx} (h : c.self.run = some run) : c.maybeTriggerRekey = c := by
    rw [maybeTriggerRekey, if_neg (by simp [h])]
  rw [onData]
  split
  next => exact .inl hrun
  next active _ =>
      dsimp only
      split
      next =>
          left
          rw [htrigger]
          · exact hrun
          · exact hrun
      next error _ =>
          generalize hd : c.update _ = d
          have hrun' : d.self.run = some run := by
            rw [← hd]
            exact hrun
          cases d.self.draining with
          | none =>
              dsimp only
              split_ifs
              · exact .inr (terminate_phase _ _ _)
              · exact .inl hrun'
          | some draining =>
              dsimp only
              split
              · exact .inl hrun'
              · split_ifs
                · exact .inr (terminate_phase _ _ _)
                · exact .inl hrun'

theorem handle_data_run (hp : e.phase = .established) (ht : frame.messageType = .data)
    (hrun : e.run = some run) (hp' : (e.handle (.frameReceived frame)).1.phase = .established) :
    (e.handle (.frameReceived frame)).1.run = some run := by
  have hdata : (⟨e, []⟩ : Ctx).onFrame frame = (⟨e, []⟩ : Ctx).onData frame := by
    rw [Ctx.onFrame]
    dsimp only
    rw [hp, ht]
  rw [handle_frame (.inr hp) frame, hdata] at hp' ⊢
  have hkept : ((⟨e, []⟩ : Ctx).onData frame).self.run = some run ∨
      ((⟨e, []⟩ : Ctx).onData frame).self.phase = .closed := Ctx.onData_run hrun
  obtain h | h := hkept
  · exact h
  · cases hp'.symm.trans h

/-- A run stays in progress unless a deadline of it or a frame of a handshake
ends it. -/
theorem handle_keeps_run (hf : e.Fits) (hp : e.phase = .established)
    (hp' : (e.handle i).1.phase = .established) (hrun : e.run = some run)
    (htimeout : ¬ (e.Fires .handshakeFrame i ∨ e.Fires .handshakeTotal i))
    (hframe : ∀ received, i = .frameReceived received → received.messageType = .data) :
    (e.handle i).1.run = some run := by
  have hbegins {e₀ e' : Engine} {es : List Effect} (hb : Begins e₀ es e') (hr : e₀.run = some run) :
      e'.run = some run := by
    cases hb with
    | skipped => exact hr
    | began _ hnone => cases hr.symm.trans hnone
    | failed _ _ hnone => cases hr.symm.trans hnone
  by_cases hreceived : ∃ received, i = .frameReceived received
  · obtain ⟨received, rfl⟩ := hreceived
    exact handle_data_run hp (hframe received rfl) hrun hp'
  · have hmoves := handle_moves hf i
    have hphase : (e.handle i).1.timeless.phase = .established := hp'
    have hpost : (e.handle i).1.timeless.run = some run := by
      generalize (e.handle i).1.timeless = e' at hmoves hphase
      generalize (e.handle i).2.filter Effect.visible = es at hmoves
      cases hmoves with
      | closed => cases hphase
      | started hi => cases hp.symm.trans hi
      | committed hi => cases hp.symm.trans hi
      | approved hi => cases hp.symm.trans hi
      | accepted | stepped | established | promoted | refused | answered | yielded | delivered | drained |
          rejected => exact absurd ⟨_, rfl⟩ hreceived
      | abandoned _ habandons =>
          cases habandons with
          | stepped | refused => exact absurd ⟨_, rfl⟩ hreceived
          | timeout hfires => exact absurd hfires htimeout
      | began _ h => exact hbegins h hrun
      | sent _ _ _ h => exact hbegins h hrun
      | noted | unsent | ended => exact hrun
    exact hpost

end Calls

/-- Both active sessions were made from one set of keys, in opposite roles. -/
def Partners (e e' : Engine) : Prop := ∃ keys role, e.Made keys role ∧ e'.Made keys role.other

/-- A side waits for the confirmation of a session that the other has entered. -/
def Overtaken (e e' : Engine) : Prop :=
  ∃ run ∈ e.run, run.step = .confirmResp ∧ ∃ keys ∈ run.keys,
    e'.activeSessionId = some keys.sessionId ∧ e.activeSessionId ≠ some keys.sessionId

/-- A side waits for the confirmation of these keys, with no frame of a
handshake ahead of it. -/
def Awaiting (e : Engine) (toE : List Frame) (keys : SessionKeys) (hash : Bytes 32) : Prop :=
  (∃ run ∈ e.run, run.step = .confirmResp ∧ run.keys = some keys ∧ run.hash = some hash) ∧
    handshakes toE = []

/-- The frames of handshakes in flight to a side that stands in the session of
its peer: no confirmation, or one left over that names the session itself. -/
inductive Stale (e : Engine) : List Frame → Prop
  | calm {frames} (calm : ∀ f ∈ frames, ¬ f.Completes) : Stale e frames
  | declined {frame confirm frames} (decoded : SessionConfirmPayload.decode frame = .ok confirm)
      (names : e.activeSessionId = some confirm.sessionId) (calm : ∀ f ∈ frames, ¬ f.Completes) :
      Stale e (frame :: frames)

/-- An initiator that waits for the last confirmation, which is in flight to it
from a responder that stands in the new session. -/
structure Lags (e e' : Engine) (toE toE' : List Frame) (run : Run) (keys : SessionKeys)
    (hash : Bytes 32) (reply : Frame) (frames : List Frame) : Prop where
  run_eq : e.run = some run
  step : run.step = .confirmResp
  keys_eq : run.keys = some keys
  hash_eq : run.hash = some hash
  fresh : e.activeSessionId ≠ some keys.sessionId
  made : e'.Made keys .responder
  encoded : (confirmOf keys hash .responder).encode = .ok reply
  inbox : handshakes toE = reply :: frames
  calm : ∀ f ∈ frames, ¬ f.Completes
  calm' : ∀ f ∈ toE', ¬ f.Completes

/-- Two sides of one session, or of two successive ones. -/
inductive Agrees (e e' : Engine) (toE toE' : List Frame) : Prop
  | settled (partners : Partners e e') (stale : Stale e (handshakes toE))
      (stale' : Stale e' (handshakes toE')) : Agrees e e' toE toE'
  | behind {run keys hash reply frames} (lags : Lags e e' toE toE' run keys hash reply frames) :
      Agrees e e' toE toE'
  | ahead {run keys hash reply frames} (lags : Lags e' e toE' toE run keys hash reply frames) :
      Agrees e e' toE toE'

omit [Ciborium] [Primitives] in
inductive Feeds (toE : List Frame) (i : Input) : List Frame → Prop
  | other (other : ∀ frame, i ≠ .frameReceived frame) : Feeds toE i toE
  | head {frame rest} (cons : toE = frame :: rest) (input : i = .frameReceived frame) : Feeds toE i rest

section Agreeing

variable {e e₁ e' : Engine} {i : Input} {toE toE' rest sent frames : List Frame} {frame : Frame}

theorem Partners.symm (h : Partners e e') : Partners e' e := by
  obtain ⟨keys, role, hm, hm'⟩ := h
  refine ⟨keys, role.other, hm', ?_⟩
  rwa [HelloRole.other_other]

theorem Agrees.symm (h : Agrees e e' toE toE') : Agrees e' e toE' toE := by
  cases h with
  | settled partners stale stale' => exact .settled partners.symm stale' stale
  | behind lags => exact .ahead lags
  | ahead lags => exact .behind lags

omit [Primitives] in
theorem Stale.congr (h : Stale e frames) (hid : e₁.activeSessionId = e.activeSessionId) :
    Stale e₁ frames := by
  cases h with
  | calm calm => exact .calm calm
  | declined decoded names calm => exact .declined decoded (hid.trans names) calm

omit [Primitives] in
theorem Stale.append (h : Stale e frames) (hsent : ∀ f ∈ sent, ¬ f.Completes) :
    Stale e (frames ++ sent) := by
  have happend {frames : List Frame} (hcalm : ∀ f ∈ frames, ¬ f.Completes) :
      ∀ f ∈ frames ++ sent, ¬ f.Completes := by
    intro f hf
    obtain hf | hf := List.mem_append.1 hf
    · exact hcalm f hf
    · exact hsent f hf
  cases h with
  | calm calm => exact .calm (happend calm)
  | declined decoded names calm => exact .declined decoded names (happend calm)

omit [Primitives] in
theorem Stale.tail (h : Stale e (frame :: frames)) : ∀ f ∈ frames, ¬ f.Completes := by
  cases h with
  | calm calm => exact fun f hf => calm f (List.mem_cons_of_mem _ hf)
  | declined _ _ calm => exact calm

omit [Primitives] in
theorem Stale.skip (h : Stale e (handshakes (frame :: rest))) : Stale e (handshakes rest) := by
  by_cases ht : frame.messageType = .data
  · rwa [handshakes_cons_data ht] at h
  · rw [handshakes_cons ht] at h
    exact .calm h.tail

omit [Primitives] in
theorem Stale.names (h : Stale e (frame :: frames)) {confirm : SessionConfirmPayload}
    (hd : SessionConfirmPayload.decode frame = .ok confirm) (hrole : confirm.role = .responder) :
    e.activeSessionId = some confirm.sessionId := by
  cases h with
  | calm calm => exact absurd ⟨confirm, hd, hrole⟩ (calm frame List.mem_cons_self)
  | declined decoded names =>
      obtain rfl := Except.ok.inj (decoded.symm.trans hd)
      exact names

omit [Ciborium] [Primitives] in
theorem mem_frames {es : List Effect} : frame ∈ es.filterMap Effect.frame? ↔ .send frame ∈ es := by
  rw [List.mem_filterMap]
  constructor
  · rintro ⟨effect, heffect, hframe⟩
    cases effect with
    | send frame' =>
        obtain rfl := Option.some.inj hframe
        exact heffect
    | _ => cases hframe
  · intro h
    exact ⟨_, h, rfl⟩

section Feeding

omit [Ciborium] [Primitives] in
theorem Feeds.eq_cons (h : Feeds toE i rest) (hi : i = .frameReceived frame) : toE = frame :: rest := by
  cases h with
  | other other => exact absurd hi (other frame)
  | head cons input =>
      cases input.symm.trans hi
      exact cons

omit [Ciborium] [Primitives] in
theorem Feeds.mem (h : Feeds toE i rest) (hf : frame ∈ rest) : frame ∈ toE := by
  cases h with
  | other => exact hf
  | head cons =>
      rw [cons]
      exact List.mem_cons_of_mem _ hf

omit [Ciborium] [Primitives] in
theorem Feeds.handshakes_eq (h : Feeds toE i rest)
    (hdata : ∀ frame, i = .frameReceived frame → frame.messageType = .data) :
    handshakes rest = handshakes toE := by
  cases h with
  | other => rfl
  | head cons input => rw [cons, handshakes_cons_data (hdata _ input)]

omit [Primitives] in
theorem Stale.fed (h : Stale e (handshakes toE)) (hfeeds : Feeds toE i rest) :
    Stale e (handshakes rest) := by
  cases hfeeds with
  | other => exact h
  | head cons =>
      rw [cons] at h
      exact h.skip

end Feeding

section Served

variable {es : List Effect} (hfeeds : Feeds toE i rest)

include hfeeds

theorem Partners.call (rfc : Ciborium.Rfc8949) (partners : Partners e e') (stale : Stale e (handshakes toE))
    (stale' : Stale e' (handshakes toE'))
    (hconfirm : ∀ run frame confirm keys hash, e.run = some run → run.step = .confirmInit →
      i = .frameReceived frame → AcceptsConfirm run frame confirm keys hash .initiator →
        Awaiting e' toE' keys hash)
    (hturns : Turns e i es e₁) : Agrees e₁ e' rest (toE' ++ es.filterMap Effect.frame?) := by
  obtain ⟨keys₀, role, hm, hm'⟩ := partners
  have hsame : e'.activeSessionId = e.activeSessionId :=
    hm'.activeSessionId.trans hm.activeSessionId.symm
  cases hturns with
  | quiet kept calm =>
      refine .settled ⟨keys₀, role, kept.made hm, hm'⟩ ((stale.fed hfeeds).congr kept.activeSessionId) ?_
      rw [handshakes_append]
      exact stale'.append fun f hf => calm f (mem_frames.1 (List.mem_of_mem_filter hf))
  | completed hrun hs hi hacc hfresh =>
      -- A confirmation that completes a run would have to name a new session.
      obtain ⟨hrole, hid, -⟩ := SessionConfirmPayload.verifyFrom_eq_ok hacc.verified
      rw [hfeeds.eq_cons hi, handshakes_cons (by simp [hacc.type])] at stale
      exact absurd ((stale.names hacc.decoded hrole).trans (congrArg some hid)) hfresh
  | @replied run received confirm keys hash reply hrun hs hi hacc hreply hframes hactive =>
      obtain ⟨⟨run', hrun', hs', hkeys', hhash'⟩, hempty⟩ :=
        hconfirm run received confirm keys hash hrun hs hi hacc
      rw [hfeeds.eq_cons hi, handshakes_cons (by simp [hacc.type])] at stale
      have hcalm : ∀ f ∈ rest, ¬ f.Completes := by
        intro f hf hc
        exact stale.tail f (List.mem_filter.2 ⟨hf, by simp [hc.type]⟩) hc
      have hinbox : handshakes (toE' ++ [reply]) = [reply] := by
        rw [handshakes_append, hempty, List.nil_append, handshakes_eq_self]
        simp [SessionConfirmPayload.encode_type hreply]
      rw [hframes]
      obtain ⟨hfresh, peer, hmade⟩ | ⟨hid, hkept⟩ := hactive
      · exact .ahead
          { run_eq := hrun'
            step := hs'
            keys_eq := hkeys'
            hash_eq := hhash'
            fresh := hsame ▸ hfresh
            made := ⟨peer, _, hmade, .refl⟩
            encoded := hreply
            inbox := hinbox
            calm := by simp
            calm' := hcalm }
      · refine .settled ⟨keys₀, role, Engine.KeepsActive.made (.inl hkept) hm, hm'⟩
          (.calm fun f hf => hcalm f (List.mem_of_mem_filter hf)) ?_
        rw [hinbox]
        exact .declined (SessionConfirmPayload.decode_encode rfc hreply) (hsame.trans hid) (by simp)

variable {run : Run} {keys : SessionKeys} {hash : Bytes 32} {reply : Frame}

/-- A call at the initiator that is behind: it completes the run, or leaves it waiting. -/
theorem Lags.call (rfc : Ciborium.Rfc8949) (hf : e.Fits) (hpin : e.Pinned) {calls : List Call}
    (hev : e.Evident calls) (hp : e.phase = .established) (hp' : (e.handle i).1.phase = .established)
    (htimeout : e.Fires .handshakeFrame i ∨ e.Fires .handshakeTotal i → ¬ Overtaken e e')
    (lags : Lags e e' toE toE' run keys hash reply frames) :
    Agrees (e.handle i).1 e' rest (toE' ++ (e.handle i).2.filterMap Effect.frame?) := by
  by_cases hconfirmed : ∃ frame, i = .frameReceived frame ∧ frame.messageType ≠ .data
  · obtain ⟨frame, rfl, ht⟩ := hconfirmed
    have hinbox := lags.inbox
    rw [hfeeds.eq_cons rfl, handshakes_cons ht] at hinbox
    obtain ⟨rfl, rfl⟩ := List.cons.inj hinbox
    have hacc : AcceptsConfirm run frame (confirmOf keys hash .responder) keys hash .responder :=
      ⟨SessionConfirmPayload.decode_encode rfc lags.encoded, lags.keys_eq, lags.hash_eq,
        verifyFrom_confirmOf keys hash .responder⟩
    obtain ⟨⟨peer, hmade⟩, hframes⟩ :=
      handle_completes hf hpin hev hp lags.run_eq lags.step hacc lags.fresh
    rw [hframes, List.append_nil]
    exact .settled ⟨keys, .initiator, ⟨peer, _, hmade, .refl⟩, lags.made⟩ (.calm lags.calm)
      (.calm fun f hf => lags.calm' f (List.mem_of_mem_filter hf))
  · have hdata : ∀ frame, i = .frameReceived frame → frame.messageType = .data := by
      intro frame hi
      by_contra ht
      exact hconfirmed ⟨frame, hi, ht⟩
    have hovertaken : Overtaken e e' :=
      ⟨run, lags.run_eq, lags.step, keys, lags.keys_eq, lags.made.activeSessionId, lags.fresh⟩
    have hkept := handle_keeps_run hf hp hp' lags.run_eq (fun h => htimeout h hovertaken) hdata
    cases handle_turns rfc hf hpin hev hp hp' with
    | quiet kept calm =>
        refine .behind { lags with
          run_eq := hkept
          fresh := kept.activeSessionId ▸ lags.fresh
          inbox := (hfeeds.handshakes_eq hdata).trans lags.inbox
          calm' := fun f hf => ?_ }
        obtain hf | hf := List.mem_append.1 hf
        · exact lags.calm' f hf
        · exact calm f (mem_frames.1 hf)
    | completed _ _ hi hacc => cases (hdata _ hi).symm.trans hacc.type
    | replied _ _ hi hacc => cases (hdata _ hi).symm.trans hacc.type

theorem Lags.call_other (lags : Lags e' e toE' toE run keys hash reply frames)
    (hconfirm : ∀ run frame confirm keys hash, e.run = some run → run.step = .confirmInit →
      i = .frameReceived frame → AcceptsConfirm run frame confirm keys hash .initiator →
        Awaiting e' toE' keys hash)
    (hturns : Turns e i es e₁) : Agrees e₁ e' rest (toE' ++ es.filterMap Effect.frame?) := by
  cases hturns with
  | quiet kept calm =>
      refine .ahead { lags with
        made := kept.made lags.made
        inbox := (handshakes_append).trans (congrArg (· ++ handshakes _) lags.inbox)
        calm := fun f hf => ?_
        calm' := fun f hf => lags.calm' f (hfeeds.mem hf) }
      obtain hf | hf := List.mem_append.1 hf
      · exact lags.calm f hf
      · exact calm f (mem_frames.1 (List.mem_of_mem_filter hf))
  | @completed _ received confirm _ _ _ _ hi hacc =>
      obtain ⟨hrole, -, -⟩ := SessionConfirmPayload.verifyFrom_eq_ok hacc.verified
      have hmem : received ∈ toE := by
        rw [hfeeds.eq_cons hi]
        exact List.mem_cons_self
      exact absurd ⟨confirm, hacc.decoded, hrole⟩ (lags.calm' received hmem)
  | replied hrun hs hi hacc =>
      have hempty := (hconfirm _ _ _ _ _ hrun hs hi hacc).2
      rw [lags.inbox] at hempty
      cases hempty

/-- What one call at one side leaves both sides with. -/
theorem Agrees.call (rfc : Ciborium.Rfc8949) (hf : e.Fits) (hpin : e.Pinned) {calls : List Call}
    (hev : e.Evident calls) (hp : e.phase = .established) (hp' : (e.handle i).1.phase = .established)
    (htimeout : e.Fires .handshakeFrame i ∨ e.Fires .handshakeTotal i → ¬ Overtaken e e')
    (hconfirm : ∀ run frame confirm keys hash, e.run = some run → run.step = .confirmInit →
      i = .frameReceived frame → AcceptsConfirm run frame confirm keys hash .initiator →
        Awaiting e' toE' keys hash)
    (h : Agrees e e' toE toE') :
    Agrees (e.handle i).1 e' rest (toE' ++ (e.handle i).2.filterMap Effect.frame?) := by
  have hturns := handle_turns rfc hf hpin hev hp hp'
  cases h with
  | settled partners stale stale' => exact partners.call hfeeds rfc stale stale' hconfirm hturns
  | behind lags => exact lags.call hfeeds rfc hf hpin hev hp hp' htimeout
  | ahead lags => exact lags.call_other hfeeds hconfirm hturns

end Served

end Agreeing

/-- What one side sends under its active session is on the lane that the active
session of the other takes from. -/
def Engine.Reaches (e e' : Engine) : Prop :=
  ∃ s s' cache, ∃ lane : Lane, e.active = some s ∧ e'.active = some s' ∧
    s.sender.Serves lane.sessionId lane.chainKey lane.direction ∧
      s'.receiver.Models lane.sessionId lane.chainKey lane.direction cache

omit [Ciborium] [Primitives] in
/-- A new session sends on the lane of its role and takes from the other. -/
theorem Session.new_lanes (keys : SessionKeys) (role : HelloRole) (peer : PeerIdentity) :
    (Session.new keys role peer).sender = (keys.lane role).sender ∧
      (Session.new keys role peer).receiver = (keys.lane role.other).receiver := by
  cases role with
  | initiator => exact ⟨rfl, rfl⟩
  | responder => exact ⟨rfl, rfl⟩

theorem Session.Uses.lanes {s s' : Session} {lane lane' : Lane}
    (h : Relation.ReflTransGen Session.Uses s s') (hsender : s.sender = lane.sender)
    (hreceiver : s.receiver = lane'.receiver) :
    s'.sender.Serves lane.sessionId lane.chainKey lane.direction ∧
      ∃ cache, s'.receiver.Models lane'.sessionId lane'.chainKey lane'.direction cache := by
  induction h with
  | refl =>
      rw [hsender, hreceiver]
      exact ⟨lane.sends_new.serves, _, DataReceiver.models_new⟩
  | tail _ huses ih =>
      obtain ⟨hserves, cache, hmodels⟩ := ih
      cases huses with
      | @sent content result sender hencrypt =>
          refine ⟨?_, cache, hmodels⟩
          obtain h | h := DataSender.encrypt_snd _ content
          · rw [hencrypt] at h
            obtain rfl : sender = _ := h
            exact hserves
          · rw [hencrypt] at h
            obtain rfl : sender = _ := h
            exact hserves.next
      | @received frame result receiver hdecrypt =>
          refine ⟨hserves, ?_⟩
          obtain ⟨cache', hmodels'⟩ := hmodels.receive frame
          rw [DataReceiver.receive, hdecrypt] at hmodels'
          exact ⟨cache', hmodels'⟩

theorem Partners.reaches {e e' : Engine} (h : Partners e e') : e.Reaches e' := by
  obtain ⟨keys, role, ⟨_, s, hs, hu⟩, ⟨_, s', hs', hu'⟩⟩ := h
  obtain ⟨hsender, hreceiver⟩ := Session.new_lanes keys role _
  obtain ⟨hsender', hreceiver'⟩ := Session.new_lanes keys role.other _
  obtain ⟨hserves, -⟩ := Session.Uses.lanes hu hsender hreceiver
  obtain ⟨-, cache, hmodels⟩ := Session.Uses.lanes hu' hsender' hreceiver'
  rw [HelloRole.other_other] at hmodels
  exact ⟨s, s', cache, keys.lane role, hs, hs', hserves, hmodels⟩

/-- The steps of two peers: they rekey, send, take the next frame in flight, and
let a deadline that is armed pass. -/
def Connection.Rekeys (d : Connection) : Action Input → Prop
  | .deliver _ => True
  | .input _ .requestRekey => True
  | .input _ (.localSend _) => True
  | .input s (.timeout id) => ∃ deadline ∈ (d.node s).deadlines, deadline.1 = id
  | .input _ _ => False

/-- No deadline of a handshake passes at a side that the other has overtaken, and
no confirmation of an initiator is accepted that has stopped waiting. -/
def Connection.Safe (d : Connection) : Action Input → Prop
  | .input s (.timeout id) => ∀ deadline ∈ (d.node s).deadlines.find? (·.1 = id),
      deadline.2 = .handshakeFrame ∨ deadline.2 = .handshakeTotal → ¬ Overtaken (d.node s) (d.node s.other)
  | .deliver s => ∀ frame ∈ (d.inbox s).head?, ∀ run ∈ (d.node s).run, run.step = .confirmInit →
      ∀ accepted ∈ (Ctx.checkConfirm run frame .initiator).toOption,
        Awaiting (d.node s.other) (d.inbox s.other) accepted.1 accepted.2
  | .input _ _ => True

instance (e e' : Engine) : Decidable (Overtaken e e') :=
  inferInstanceAs (Decidable (∃ run ∈ e.run, _ ∧ ∃ keys ∈ run.keys, _ ∧ _))

instance (e : Engine) (toE : List Frame) (keys : SessionKeys) (hash : Bytes 32) :
    Decidable (Awaiting e toE keys hash) :=
  inferInstanceAs (Decidable ((∃ run ∈ e.run, _) ∧ _))

instance (d : Connection) : DecidablePred d.Rekeys
  | .deliver _ | .input _ .requestRekey | .input _ (.localSend _) => .isTrue trivial
  | .input _ (.timeout _) => inferInstanceAs (Decidable (∃ deadline ∈ _, _))
  | .input _ .start | .input _ (.frameReceived _) | .input _ (.sasDecision _) | .input _ (.localClose _)
  | .input _ .transportClosed | .input _ (.malformed _) => .isFalse id

instance (d : Connection) : DecidablePred d.Safe
  | .deliver _ => inferInstanceAs (Decidable (∀ frame ∈ _, ∀ run ∈ _, _ → ∀ accepted ∈ _, _))
  | .input _ (.timeout _) => inferInstanceAs (Decidable (∀ deadline ∈ _, _ → _))
  | .input _ .requestRekey | .input _ (.localSend _) | .input _ .start | .input _ (.frameReceived _)
  | .input _ (.sasDecision _) | .input _ (.localClose _) | .input _ .transportClosed
  | .input _ (.malformed _) => .isTrue trivial

def Connection.Careful (d : Connection) (a : Action Input) : Prop := d.Rekeys a ∧ d.Safe a

instance (d : Connection) : DecidablePred d.Careful := fun _ => inferInstanceAs (Decidable (_ ∧ _))

structure Connection.Agreed (d : Connection) : Prop where
  fits : ∀ s, (d.node s).Fits
  pinned : ∀ s, (d.node s).Pinned
  evident : ∀ s, ∃ calls, (d.node s).Evident calls
  open_or : (∃ s, (d.node s).phase = .closed) ∨ (∀ s, (d.node s).phase = .established) ∧
    ∀ s, Agrees (d.node s) (d.node s.other) (d.inbox s) (d.inbox s.other)

def Connection.Permits (d : Connection) (s : Side) (i : Input) (rest : List Frame) : Prop :=
  (rest = d.inbox s ∧ d.Careful (.input s i)) ∨
    ∃ frame, d.inbox s = frame :: rest ∧ i = .frameReceived frame ∧ d.Careful (.deliver s)

section Permitted

variable {d : Connection} {s : Side} {i : Input} {rest : List Frame}

theorem Connection.Permits.feeds (h : d.Permits s i rest) : Feeds (d.inbox s) i rest := by
  obtain ⟨rfl, hcareful⟩ | ⟨frame, hinbox, hframe, -⟩ := h
  · apply Feeds.other
    rintro frame rfl
    exact hcareful.1
  · exact .head hinbox hframe

theorem Connection.Permits.not_overtaken (h : d.Permits s i rest)
    (hfires : (d.node s).Fires .handshakeFrame i ∨ (d.node s).Fires .handshakeTotal i) :
    ¬ Overtaken (d.node s) (d.node s.other) := by
  obtain ⟨-, hcareful⟩ | ⟨frame, -, rfl, -⟩ := h
  · obtain ⟨id, deadline, rfl, hfind, hkind⟩ | ⟨id, deadline, rfl, hfind, hkind⟩ := hfires
    · exact hcareful.2 deadline hfind (.inl hkind)
    · exact hcareful.2 deadline hfind (.inr hkind)
  · obtain ⟨_, _, hframe, -⟩ | ⟨_, _, hframe, -⟩ := hfires
    · cases hframe
    · cases hframe

theorem Connection.Permits.awaiting (h : d.Permits s i rest) {run : Run} {frame : Frame}
    {confirm : SessionConfirmPayload} {keys : SessionKeys} {hash : Bytes 32}
    (hrun : (d.node s).run = some run) (hs : run.step = .confirmInit) (hi : i = .frameReceived frame)
    (hacc : AcceptsConfirm run frame confirm keys hash .initiator) :
    Awaiting (d.node s.other) (d.inbox s.other) keys hash := by
  obtain ⟨-, hcareful⟩ | ⟨frame', hinbox, hframe, hcareful⟩ := h
  · rw [hi] at hcareful
    cases hcareful.1
  · cases hi.symm.trans hframe
    refine hcareful.2 frame ?_ run hrun hs (keys, hash) ?_
    · rw [hinbox]
      rfl
    · rw [Ctx.checkConfirm_of_accepts hacc]
      rfl

theorem Connection.Agreed.next (rfc : Ciborium.Rfc8949) (h : d.Agreed) (hi : d.Permits s i rest) :
    Connection.Agreed ((d.take s rest).call peers s i) := by
  have hnode : ((d.take s rest).call peers s i).node s = ((d.node s).handle i).1 := by
    simp [peers]
  have hother : ((d.take s rest).call peers s i).node s.other = d.node s.other := by
    simp
  have heach {P : Side → Prop} (hs : P s) (ho : P s.other) : ∀ t, P t := by
    intro t
    obtain rfl | rfl := Side.eq_or_other s t
    · exact hs
    · exact ho
  obtain ⟨calls, hev⟩ := h.evident s
  refine ⟨heach ?_ ?_, heach ?_ ?_, heach ?_ ?_, ?_⟩
  · rw [hnode]
    exact handle_fits (h.fits s) i
  · rw [hother]
    exact h.fits s.other
  · rw [hnode]
    exact handle_pinned (h.fits s) (h.pinned s) i
  · rw [hother]
    exact h.pinned s.other
  · rw [hnode]
    exact ⟨_, handle_evident (h.fits s) (h.pinned s) hev i⟩
  · rw [hother]
    exact h.evident s.other
  · obtain ⟨t, ht⟩ | ⟨hphase, hagrees⟩ := h.open_or
    · left
      obtain rfl | rfl := Side.eq_or_other s t
      · refine ⟨t, ?_⟩
        rw [hnode, handle_closed ht]
        exact ht
      · exact ⟨s.other, by rw [hother]; exact ht⟩
    · by_cases hclosed : ((d.node s).handle i).1.phase = .closed
      · exact .inl ⟨s, by rw [hnode]; exact hclosed⟩
      · right
        have hphase' : ((d.node s).handle i).1.phase = .established :=
          ((handle_moves (h.fits s) i).peer (hphase s) hclosed).1
        have hcall := (hagrees s).call hi.feeds rfc (h.fits s) (h.pinned s) hev (hphase s) hphase'
          hi.not_overtaken fun _ _ _ _ _ => hi.awaiting
        refine ⟨heach ?_ ?_, heach ?_ ?_⟩
        · rw [hnode]
          exact hphase'
        · rw [hother]
          exact hphase s.other
        · simpa [peers] using hcall
        · simpa [peers] using hcall.symm

end Permitted

section Agreement

variable (identity : Side → IdentityKeypair) (entropy : Side → Entropy) (limit : Side → Nat)
  (before : Side → List Input)

def sideAfter (s : Side) : Engine := final Engine.handle (sideEngine identity entropy limit s) (before s)

theorem Connection.agreed_init
    (hphase : ∀ s, (sideAfter identity entropy limit before s).phase = .established)
    (hpartners : Partners (sideAfter identity entropy limit before .left)
      (sideAfter identity entropy limit before .right)) :
    Connection.Agreed (Link.init (sideAfter identity entropy limit before)) := by
  have hsettled {e e' : Engine} (h : Partners e e') : Agrees e e' [] [] :=
    .settled h (.calm (by simp [handshakes])) (.calm (by simp [handshakes]))
  refine ⟨?_, ?_, ?_, .inr ⟨hphase, ?_⟩⟩
  · exact fun s => reachable_fits _ _ _ _ _
  · exact fun s => reachable_pinned _ _ _ _ _
  · exact fun s => ⟨_, reachable_evident _ _ _ _ _⟩
  · intro s
    cases s with
    | left => exact hsettled hpartners
    | right => exact hsettled hpartners.symm

/-- Over every careful run of two peers of one session: whenever both stand
established and nothing is in flight, they stand in one session again. -/
theorem session_agreement (rfc : Ciborium.Rfc8949)
    (hphase : ∀ s, (sideAfter identity entropy limit before s).phase = .established)
    (hpartners : Partners (sideAfter identity entropy limit before .left)
      (sideAfter identity entropy limit before .right)) {d : Connection}
    (hrun : Relation.ReflTransGen (Link.Next peers Connection.Careful fun _ => True)
      (Link.init (sideAfter identity entropy limit before)) d)
    (hboth : ∀ s, (d.node s).phase = .established) (hempty : ∀ s, d.inbox s = []) :
    (d.node .left).activeSessionId = (d.node .right).activeSessionId ∧
      ∀ s, (d.node s).Reaches (d.node s.other) := by
  have hagreed : d.Agreed := by
    refine Link.reaches_invariant peers Connection.Agreed ?_
      (Connection.agreed_init identity entropy limit before hphase hpartners) hrun
    intro d s i rest hd _ hi
    exact hd.next rfc hi
  obtain ⟨s, hs⟩ | ⟨-, hagrees⟩ := hagreed.open_or
  · cases (hboth s).symm.trans hs
  · have hpartners (s : Side) : Partners (d.node s) (d.node s.other) := by
      have h := hagrees s
      rw [hempty s, hempty s.other] at h
      cases h with
      | settled partners => exact partners
      | behind lags => cases lags.inbox
      | ahead lags => cases lags.inbox
    refine ⟨?_, fun s => (hpartners s).reaches⟩
    obtain ⟨keys, role, hm, hm'⟩ := hpartners .left
    exact hm.activeSessionId.trans hm'.activeSessionId.symm

end Agreement

end Ruxmsg

namespace Ruxmsg

open Library.Machine Library.Duplex Sample

instance : DecidableEq ReceivingChain := fun chain chain' =>
  decidable_of_iff (chain.chainKey = chain'.chainKey ∧ chain.nextCounter = chain'.nextCounter ∧
    chain.skipped.entries = chain'.skipped.entries ∧ chain.direction = chain'.direction) (by
      cases chain
      cases chain'
      simp [AList.ext_iff])

deriving instance DecidableEq for DataReceiver, Session

def samplePeers : Side → Engine :=
  sideAfter (fun | .left => leftIdentity | .right => rightIdentity)
    (fun | .left => entropy 100 | .right => entropy 200) (fun _ => rekeyMessageLimit)
    (fun | .left => handshake.leftInputs | .right => handshake.rightInputs)

theorem samplePeers_established (s : Side) : (samplePeers s).phase = .established := by
  cases s with
  | left => exact handshake_established.1
  | right => exact handshake_established.2

theorem samplePeers_partners : Partners (samplePeers .left) (samplePeers .right) := by
  have hkeys : ((final Engine.handle dialer handshake.leftInputs.dropLast).run.bind Run.keys).any
      (fun keys => (samplePeers .left).active = some (Session.new keys .initiator rightIdentity.identity) ∧
        (samplePeers .right).active = some (Session.new keys .responder leftIdentity.identity)) = true := by
    decide +kernel
  obtain ⟨keys, -, hactive⟩ := (Option.any_eq_true _ _).1 hkeys
  obtain ⟨hleft, hright⟩ := of_decide_eq_true hactive
  exact ⟨keys, .initiator, ⟨_, _, hleft, .refl⟩, ⟨_, _, hright, .refl⟩⟩

/-- A rekey up to the confirmation of its initiator. -/
def sampleRekey : List (Action Input) :=
  [.input .left .requestRekey, .deliver .right, .deliver .left, .deliver .right, .deliver .right,
    .deliver .left]

theorem session_agreement_sample : ∃ d : Connection,
    Link.allowedRun peers Connection.Careful (Link.init samplePeers)
        (sampleRekey ++ [.deliver .right, .deliver .left]) = some d ∧
      (d.node .left).activeSessionId ≠ (samplePeers .left).activeSessionId ∧
      (d.node .left).activeSessionId = (d.node .right).activeSessionId := by
  have hrun : (Link.allowedRun peers Connection.Careful (Link.init samplePeers)
      (sampleRekey ++ [.deliver .right, .deliver .left])).any (fun d =>
        (∀ s ∈ [Side.left, .right], (d.node s).phase = .established ∧ d.inbox s = []) ∧
          (d.node .left).activeSessionId ≠ (samplePeers .left).activeSessionId) = true := by
    decide +kernel
  obtain ⟨d, hd, hends⟩ := (Option.any_eq_true _ _).1 hrun
  obtain ⟨hends, hnew⟩ := of_decide_eq_true hends
  have hsides (s : Side) : (d.node s).phase = .established ∧ d.inbox s = [] :=
    hends s (by cases s <;> simp)
  have h := session_agreement _ _ _ _ Ciborium.reference_rfc8949 samplePeers_established
    samplePeers_partners (Link.reaches_of_allowedRun peers hd) (fun s => (hsides s).1)
    fun s => (hsides s).2
  exact ⟨d, hd, hnew, h.1⟩

/-- The responder enters the new session when it confirms; a deadline of the
initiator that passes before the confirmation comes leaves each side in a session
of its own, with nothing in flight. -/
theorem peers_part : (∀ s, (samplePeers s).phase = .established) ∧
    Partners (samplePeers .left) (samplePeers .right) ∧ ∃ d : Connection,
    Relation.ReflTransGen (Link.Next peers Connection.Rekeys fun _ => True) (Link.init samplePeers) d ∧
      (∀ s, (d.node s).phase = .established ∧ (d.node s).run = none ∧ d.inbox s = []) ∧
      (d.node .left).activeSessionId ≠ (d.node .right).activeSessionId := by
  have hrun : (Link.allowedRun peers Connection.Rekeys (Link.init samplePeers)
      (sampleRekey ++ [.deliver .right, .input .left (.timeout 8), .deliver .left])).any (fun d =>
        (∀ s ∈ [Side.left, .right], (d.node s).phase = .established ∧ (d.node s).run.isNone ∧
          d.inbox s = []) ∧
          (d.node .left).activeSessionId ≠ (d.node .right).activeSessionId) = true := by
    decide +kernel
  obtain ⟨d, hd, hends⟩ := (Option.any_eq_true _ _).1 hrun
  obtain ⟨hends, hparted⟩ := of_decide_eq_true hends
  refine ⟨samplePeers_established, samplePeers_partners, d, Link.reaches_of_allowedRun peers hd, ?_,
    hparted⟩
  intro s
  obtain ⟨hphase, hidle, hempty⟩ := hends s (by cases s <;> simp)
  exact ⟨hphase, Option.isNone_iff_eq_none.1 hidle, hempty⟩

end Ruxmsg

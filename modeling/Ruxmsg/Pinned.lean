import Ruxmsg.Sends
import Ruxmsg.Messages
import Ruxmsg.Reference

namespace Ruxmsg

open Library.Machine

variable [Ciborium] [Primitives]

/-- What a HELLO that passed `check_remote_hello` agrees on with the run. -/
structure Matches (e : Engine) (run : Run) (remote : HelloPayload) (expectedRole : HelloRole) : Prop where
  role : remote.role = expectedRole
  suite : remote.cipherSuite = run.localHello.cipherSuite
  purpose : remote.purpose = run.purpose
  previous : remote.previousSessionId = run.previous
  identity_ne : remote.identityPublicKey ≠ run.localHello.identityPublicKey
  ephemeral_ne : remote.ephemeralPublicKey ≠ run.localHello.ephemeralPublicKey
  peer : run.purpose = .rekey → ∃ active, e.active = some active ∧
    remote.identityPublicKey = active.peer

omit [Ciborium] [Primitives] in
theorem checkRemoteHello_eq_ok {e : Engine} {run : Run} {remote : HelloPayload}
    {expectedRole : HelloRole} :
    Ctx.checkRemoteHello e run remote expectedRole = .ok () ↔ Matches e run remote expectedRole := by
  rw [Ctx.checkRemoteHello]
  by_cases hbad : remote.role ≠ expectedRole ∨ remote.cipherSuite ≠ run.localHello.cipherSuite ∨
      remote.purpose ≠ run.purpose ∨ remote.previousSessionId ≠ run.previous ∨
      remote.identityPublicKey = run.localHello.identityPublicKey ∨
      remote.ephemeralPublicKey = run.localHello.ephemeralPublicKey
  · rw [if_pos hbad]
    constructor
    · intro h
      cases h
    · rintro ⟨h1, h2, h3, h4, h5, h6, -⟩
      simp [h1, h2, h3, h4, h5, h6] at hbad
  · rw [if_neg hbad]
    simp only [not_or, not_not, ne_eq] at hbad
    obtain ⟨h1, h2, h3, h4, h5, h6⟩ := hbad
    have hrest : Matches e run remote expectedRole ↔ (run.purpose = .rekey →
        ∃ active, e.active = some active ∧ remote.identityPublicKey = active.peer) :=
      ⟨fun h => h.peer, fun h => ⟨h1, h2, h3, h4, h5, h6, h⟩⟩
    rw [hrest]
    by_cases hp : run.purpose = .rekey
    · rw [if_pos hp]
      cases e.active with
      | none => simp [hp, error_bind]
      | some active =>
          by_cases hpeer : remote.identityPublicKey = active.peer <;>
            simp [hp, hpeer, ok_bind, pure_eq_ok]
    · rw [if_neg hp]
      simp [hp, pure_eq_ok]

/-- The fields of a run that do not wait for the peer, and its one claim about the peer. -/
structure Run.Sound (e : Engine) (run : Run) : Prop where
  suite : run.localHello.cipherSuite = 1
  purpose : run.localHello.purpose = run.purpose
  role : run.localHello.role = run.role
  identity : run.localHello.identityPublicKey = e.identity.identity
  ephemeral : run.localHello.ephemeralPublicKey = run.ephemeral.publicKey
  drawn : ∃ secret, run.ephemeral = EphemeralKeypair.fromBytes secret
  previous : run.localHello.previousSessionId = run.previous
  kept : ∀ frame, run.localHelloFrame = some frame → run.localHello.encode = .ok frame
  remote : ∀ peer, run.remoteIdentity = some peer → peer ≠ e.identity.identity ∧
    ∀ active, e.active = some active → peer = active.peer

/-- The identity of the peer, as every part of an engine that names it agrees. -/
structure Engine.Pinned (e : Engine) : Prop where
  run_sound : ∀ run, e.run = some run → run.Sound e
  peer_ne : ∀ active, e.active = some active → active.peer ≠ e.identity.identity
  sender_id : ∀ active, e.active = some active → active.sender.sessionId = active.id
  draining : ∀ active drainee, e.active = some active → e.draining = some drainee →
    drainee.peer = active.peer ∧ drainee.id ≠ active.id

theorem AcceptsHello.sound {e : Engine} {run : Run} {frame : Frame} {remote : HelloPayload}
    {expectedRole : HelloRole} (hf : e.Fits) (hrun : e.run = some run) (hs : run.Sound e)
    (h : AcceptsHello e run frame remote expectedRole) :
    remote.identityPublicKey ≠ e.identity.identity ∧
      ∀ active, e.active = some active → remote.identityPublicKey = active.peer := by
  have hm := checkRemoteHello_eq_ok.1 h.checked
  refine ⟨hs.identity ▸ hm.identity_ne, ?_⟩
  intro active ha
  have hp : e.phase = .established := hf.active_iff.1 (by rw [ha]; rfl)
  obtain ⟨active', ha', hpeer⟩ := hm.peer (hf.purpose_rekey hrun hp)
  obtain rfl := Option.some.inj (ha.symm.trans ha')
  exact hpeer

theorem Steps.sound {e : Engine} {run run' : Run} {frame : Frame} {es : List Effect}
    {candidate : Option Candidate} (hf : e.Fits) (hrun : e.run = some run) (hs : run.Sound e)
    (h : Steps e run frame es (.ok (run', candidate))) : run'.Sound e := by
  obtain ⟨h1, h2, h3, h4, h5, hd, h6, h7, h8⟩ := hs
  have hremote : ∀ {remote : HelloPayload} {expectedRole : HelloRole},
      AcceptsHello e run frame remote expectedRole → ∀ peer, some remote.identityPublicKey = some peer →
        peer ≠ e.identity.identity ∧ ∀ active, e.active = some active → peer = active.peer := by
    intro remote expectedRole hacc peer hpeer
    obtain rfl := Option.some.inj hpeer
    exact hacc.sound hf hrun ⟨h1, h2, h3, h4, h5, hd, h6, h7, h8⟩
  cases h with
  | helloSas hs hacc | helloAuth hs hacc =>
      exact ⟨h1, h2, h3, h4, h5, hd, h6, fun frame h => (by cases h), hremote hacc⟩
  | revealSas hs hacc | revealAuth hs hacc => exact ⟨h1, h2, h3, h4, h5, hd, h6, h7, hremote hacc⟩
  | early | authResp | authInit | confirmResp | confirmInit =>
      exact ⟨h1, h2, h3, h4, h5, hd, h6, h7, h8⟩

theorem Approves.sound {e : Engine} {run run' : Run} {es : List Effect}
    {candidate : Option Candidate} (hs : run.Sound e)
    (h : Approves e run es (.ok (run', candidate))) : run'.Sound e := by
  obtain ⟨h1, h2, h3, h4, h5, hd, h6, h7, h8⟩ := hs
  cases h <;> exact ⟨h1, h2, h3, h4, h5, hd, h6, h7, h8⟩

theorem Engine.initiatorRun_sound (e : Engine) {purpose : HandshakePurpose}
    {previous : Option SessionId} {helloFrame : Frame}
    (hh : (e.hello .initiator purpose previous).encode = .ok helloFrame) :
    (e.initiatorRun purpose previous helloFrame).Sound e.drawn := by
  refine ⟨rfl, rfl, rfl, rfl, rfl, ⟨_, rfl⟩, rfl, ?_, ?_⟩
  · intro frame h
    obtain rfl := Option.some.inj h
    exact hh
  · intro peer h
    cases h

theorem Engine.responderRun_sound (e : Engine) (commit : CommitPayload) :
    (e.responderRun commit).Sound e.drawn := by
  refine ⟨rfl, rfl, rfl, rfl, rfl, ⟨_, rfl⟩, rfl, ?_, ?_⟩
  · intro frame h
    cases h
  · intro peer h
    cases h

/-- A run is sound over any engine of the same identity and active peer. -/
theorem Run.Sound.congr {e e' : Engine} {run : Run} (h : run.Sound e) (hi : e'.identity = e.identity)
    (ha : e'.active.map Session.peer = e.active.map Session.peer) : run.Sound e' := by
  refine ⟨h.suite, h.purpose, h.role, hi ▸ h.identity, h.ephemeral, h.drawn, h.previous, h.kept, ?_⟩
  intro peer hp
  obtain ⟨hne, heq⟩ := h.remote peer hp
  refine ⟨hi ▸ hne, ?_⟩
  intro active hact
  rw [hact, Option.map_some] at ha
  obtain ⟨active', ha', hpeer⟩ := Option.map_eq_some_iff.1 ha.symm
  exact (heq active' ha').trans hpeer

theorem Begins.keeps {e e' : Engine} {es : List Effect} (h : Begins e es e') :
    e'.identity = e.identity ∧ e'.phase = e.phase ∧ e'.active = e.active ∧ e'.draining = e.draining := by
  cases h <;> exact ⟨rfl, rfl, rfl, rfl⟩

theorem Moves.identity {e e' : Engine} {i : Input} {es : List Effect} (h : Moves e i es e') :
    e'.identity = e.identity := by
  cases h with
  | began _ h | sent _ _ _ h | delivered _ _ _ _ h => exact h.keeps.1.trans rfl
  | _ => rfl

/-- While a connection stays established, its peer is the same. -/
theorem Moves.peer {e e' : Engine} {i : Input} {es : List Effect}
    (h : Moves e i es e') (hp : e.phase = .established) (hc : e'.phase ≠ .closed) :
    e'.phase = .established ∧ e'.peerIdentity = e.peerIdentity := by
  have hphase : ∀ p, p ≠ .established → e.phase ≠ p := by
    rintro p hne rfl
    exact hne hp
  cases h with
  | noted => exact ⟨hp, rfl⟩
  | closed => exact absurd rfl hc
  | started h => exact absurd h (hphase _ (by decide))
  | committed h => exact absurd h (hphase _ (by decide))
  | accepted h => exact absurd h (hphase _ (by decide))
  | stepped => exact ⟨hp, rfl⟩
  | approved h => exact absurd h (hphase _ (by decide))
  | established h => exact absurd h (hphase _ (by decide))
  | promoted _ _ _ hacc =>
      obtain ⟨active, ha, hpeer, -⟩ := hacc
      refine ⟨hp, ?_⟩
      rw [Engine.peerIdentity, Engine.peerIdentity, ha]
      exact congrArg some hpeer.symm
  | abandoned => exact ⟨hp, rfl⟩
  | refused => exact ⟨hp, rfl⟩
  | began _ h =>
      obtain ⟨-, h1, h2, -⟩ := h.keeps
      exact ⟨h1.trans hp, congrArg (Option.map Session.peer) h2⟩
  | answered => exact ⟨hp, rfl⟩
  | yielded => exact ⟨hp, rfl⟩
  | sent _ ha _ h =>
      obtain ⟨-, h1, h2, -⟩ := h.keeps
      refine ⟨h1.trans hp, ?_⟩
      rw [Engine.peerIdentity, Engine.peerIdentity, h2, ha]
      rfl
  | delivered _ _ ha _ h =>
      obtain ⟨-, h1, h2, -⟩ := h.keeps
      refine ⟨h1.trans hp, ?_⟩
      rw [Engine.peerIdentity, Engine.peerIdentity, h2, ha]
      rfl
  | unsent _ ha | drained _ _ ha | rejected _ _ ha =>
      refine ⟨hp, ?_⟩
      rw [Engine.peerIdentity, Engine.peerIdentity, ha]
      rfl
  | ended => exact ⟨hp, rfl⟩

/-- Sessions that change in their senders' chains and receivers only, and a run
that is kept. -/
theorem Engine.Pinned.of_sessions {e e' : Engine} (hp : e.Pinned) (hi : e'.identity = e.identity)
    (hrun : e'.run = e.run)
    (hactive : ∀ active', e'.active = some active' → ∃ active, e.active = some active ∧
      active'.peer = active.peer ∧ active'.id = active.id ∧
      active'.sender.sessionId = active.sender.sessionId)
    (hdrain : ∀ drainee', e'.draining = some drainee' → ∃ drainee, e.draining = some drainee ∧
      drainee'.peer = drainee.peer ∧ drainee'.id = drainee.id) : e'.Pinned := by
  refine ⟨?_, ?_, ?_, ?_⟩
  · intro run h
    obtain ⟨h1, h2, h3, h4, h5, hd, h6, h7, h8⟩ := hp.run_sound run (hrun ▸ h)
    refine ⟨h1, h2, h3, hi ▸ h4, h5, hd, h6, h7, ?_⟩
    intro peer hpeer
    obtain ⟨hne, heq⟩ := h8 peer hpeer
    refine ⟨hi ▸ hne, ?_⟩
    intro active' ha'
    obtain ⟨active, ha, hpeer', -⟩ := hactive active' ha'
    exact (heq active ha).trans hpeer'.symm
  · intro active' ha'
    obtain ⟨active, ha, hpeer, -⟩ := hactive active' ha'
    rw [hpeer, hi]
    exact hp.peer_ne active ha
  · intro active' ha'
    obtain ⟨active, ha, -, hid, hsid⟩ := hactive active' ha'
    rw [hsid, hid]
    exact hp.sender_id active ha
  · intro active' drainee' ha' hd'
    obtain ⟨active, ha, hpeer, hid, -⟩ := hactive active' ha'
    obtain ⟨drainee, hd, hdpeer, hdid⟩ := hdrain drainee' hd'
    rw [hpeer, hid, hdpeer, hdid]
    exact hp.draining active drainee ha hd

theorem Engine.Pinned.of_run {e e' : Engine} (hp : e.Pinned) (hi : e'.identity = e.identity)
    (ha : e'.active = e.active) (hd : e'.draining = e.draining)
    (hrun : ∀ run, e'.run = some run → run.Sound e') : e'.Pinned := by
  refine ⟨hrun, ?_, ?_, ?_⟩
  · rw [ha, hi]
    exact hp.peer_ne
  · rw [ha]
    exact hp.sender_id
  · rw [ha, hd]
    exact hp.draining

theorem Begins.pinned {e e' : Engine} {es : List Effect} (hp : e.Pinned) (h : Begins e es e') :
    e'.Pinned := by
  cases h with
  | skipped => exact hp
  | began _ _ _ hh =>
      refine hp.of_run rfl rfl rfl ?_
      rintro run hrun
      obtain rfl := Option.some.inj hrun
      exact (e.initiatorRun_sound hh).congr rfl rfl
  | failed =>
      refine hp.of_run rfl rfl rfl ?_
      intro run hrun
      cases hrun

theorem DataSender.encrypt_sessionId (sender : DataSender) (content : List UInt8) :
    (sender.encrypt content).2.sessionId = sender.sessionId := by
  obtain h | h := sender.encrypt_snd content <;> rw [h]
  rfl

/-- The candidate of a step is made of the keys and the peer of the run. -/
theorem Steps.candidate {e : Engine} {run run' : Run} {frame : Frame} {es : List Effect}
    {candidate : Candidate} (h : Steps e run frame es (.ok (run', some candidate))) :
    run.keys = some candidate.keys ∧ run.remoteIdentity = some candidate.peer ∧
      candidate.role = run.role := by
  cases h with
  | confirmResp _ hacc hpeer => exact ⟨hacc.keys_eq, hpeer, rfl⟩
  | confirmInit _ hacc _ hpeer => exact ⟨hacc.keys_eq, hpeer, rfl⟩

omit [Ciborium] [Primitives] in
theorem Session.new_id (keys : SessionKeys) (role : HelloRole) (peer : PeerIdentity) :
    (Session.new keys role peer).id = keys.sessionId ∧ (Session.new keys role peer).peer = peer ∧
      (Session.new keys role peer).sender.sessionId = keys.sessionId := by
  cases role <;> exact ⟨rfl, rfl, rfl⟩

/-- A new active session of a peer that is not the local identity. -/
theorem Engine.Pinned.of_new {e' : Engine} {keys : SessionKeys} {role : HelloRole}
    {peer : PeerIdentity} (hrun : e'.run = none) (ha : e'.active = some (Session.new keys role peer))
    (hne : peer ≠ e'.identity.identity)
    (hd : ∀ drainee, e'.draining = some drainee → drainee.peer = peer ∧ drainee.id ≠ keys.sessionId) :
    e'.Pinned := by
  obtain ⟨hid, hpeer, hsid⟩ := Session.new_id keys role peer
  refine ⟨?_, ?_, ?_, ?_⟩
  · intro run h
    rw [hrun] at h
    cases h
  · intro active h
    obtain rfl := Option.some.inj (ha.symm.trans h)
    rwa [hpeer]
  · intro active h
    obtain rfl := Option.some.inj (ha.symm.trans h)
    rw [hsid, hid]
  · intro active drainee h hdrain
    obtain rfl := Option.some.inj (ha.symm.trans h)
    rw [hid, hpeer]
    exact hd drainee hdrain

theorem Moves.pinned {e e' : Engine} {i : Input} {es : List Effect} (hf : e.Fits) (hp : e.Pinned)
    (h : Moves e i es e') : e'.Pinned := by
  have hsame : ∀ active', e.active = some active' → ∃ active, e.active = some active ∧
      active'.peer = active.peer ∧ active'.id = active.id ∧
      active'.sender.sessionId = active.sender.sessionId :=
    fun active' ha => ⟨active', ha, rfl, rfl, rfl⟩
  have hkeep : ∀ drainee', e.draining = some drainee' → ∃ drainee, e.draining = some drainee ∧
      drainee'.peer = drainee.peer ∧ drainee'.id = drainee.id :=
    fun drainee' hd => ⟨drainee', hd, rfl, rfl⟩
  have hset : ∀ {active new : Session}, e.active = some active → new.peer = active.peer →
      new.id = active.id → new.sender.sessionId = active.sender.sessionId →
      ∀ active', some new = some active' → ∃ active, e.active = some active ∧
        active'.peer = active.peer ∧ active'.id = active.id ∧
        active'.sender.sessionId = active.sender.sessionId := by
    rintro active new ha h1 h2 h3 _ ⟨⟩
    exact ⟨active, ha, h1, h2, h3⟩
  cases h with
  | noted => exact hp.of_sessions rfl rfl hsame hkeep
  | closed =>
      refine ⟨?_, ?_, ?_, ?_⟩
      · intro _ h
        cases h
      · intro _ h
        cases h
      · intro _ h
        cases h
      · intro _ _ h
        cases h
  | started => exact hp.of_sessions rfl rfl hsame hkeep
  | committed _ hh =>
      refine hp.of_run rfl rfl rfl ?_
      intro run hrun
      obtain rfl := Option.some.inj hrun
      exact (e.initiatorRun_sound hh).congr rfl rfl
  | accepted | answered | yielded =>
      refine hp.of_run rfl rfl rfl ?_
      intro run hrun
      obtain rfl := Option.some.inj hrun
      exact (e.responderRun_sound _).congr rfl rfl
  | stepped _ hr hs =>
      refine hp.of_run rfl rfl rfl ?_
      intro run hrun
      obtain rfl := Option.some.inj hrun
      exact (hs.sound hf hr (hp.run_sound _ hr)).congr rfl rfl
  | approved _ hr _ happ =>
      refine hp.of_run rfl rfl rfl ?_
      intro run hrun
      obtain rfl := Option.some.inj hrun
      exact (happ.sound (hp.run_sound _ hr)).congr rfl rfl
  | established hphase hr hs =>
      obtain ⟨-, hpeer, -⟩ := hs.candidate
      refine Engine.Pinned.of_new rfl rfl ((hp.run_sound _ hr).remote _ hpeer).1 ?_
      intro drainee hd
      have := hf.draining_phase (Option.isSome_iff_exists.2 ⟨drainee, hd⟩)
      cases hphase.symm.trans this
  | promoted _ hr hs hacc =>
      obtain ⟨active, ha, hpeer, hid⟩ := hacc
      refine Engine.Pinned.of_new rfl rfl (hpeer ▸ hp.peer_ne active ha) ?_
      intro drainee hd
      obtain rfl := Option.some.inj (ha.symm.trans hd)
      exact ⟨hpeer, hid⟩
  | abandoned | refused =>
      refine hp.of_run rfl rfl rfl ?_
      intro run hrun
      cases hrun
  | began _ h =>
      refine Begins.pinned ?_ h
      exact hp.of_sessions rfl rfl hsame hkeep
  | @sent content _ active sender _ _ _ _ ha henc h =>
      have hsid := active.sender.encrypt_sessionId content
      rw [henc] at hsid
      refine Begins.pinned ?_ h
      exact hp.of_sessions rfl rfl (hset ha rfl rfl hsid) hkeep
  | @unsent content _ active sender _ ha henc =>
      have hsid := active.sender.encrypt_sessionId content
      rw [henc] at hsid
      exact hp.of_sessions rfl rfl (hset ha rfl rfl hsid) hkeep
  | delivered _ _ ha _ h =>
      refine Begins.pinned ?_ h
      exact hp.of_sessions rfl rfl (hset ha rfl rfl rfl) hkeep
  | drained _ _ ha _ hd =>
      refine hp.of_sessions rfl rfl (hset ha rfl rfl rfl) ?_
      rintro _ ⟨⟩
      exact ⟨_, hd, rfl, rfl⟩
  | rejected _ _ ha =>
      refine hp.of_sessions rfl rfl (hset ha rfl rfl rfl) ?_
      intro drainee' hd'
      obtain ⟨drainee, hd, rfl⟩ := Option.map_eq_some_iff.1 hd'
      exact ⟨drainee, hd, rfl, rfl⟩
  | ended => exact hp.of_sessions rfl rfl hsame (by simp)

theorem Moves.send_data {e e' : Engine} {i : Input} {es : List Effect} (hp : e.Pinned)
    (h : Moves e i es e') {f : Frame} (hf : .send f ∈ es) (ht : f.messageType = .data) :
    ∃ content active sender, i = .localSend content ∧ e.phase = .established ∧
      e.active = some active ∧ active.sender.encrypt content = (.ok f, sender) := by
  have hpurpose : ∀ purpose, f.messageType ≠ messageTypeForPurpose purpose := by
    intro purpose h
    exact messageTypeForPurpose_ne_data purpose (h.symm.trans ht)
  have hconfirm : f.messageType ≠ .sessionConfirm := by
    rw [ht]
    decide
  cases h.sends hf with
  | reveal hr _ _ _ hk =>
      exact absurd (HelloPayload.encode_type ((hp.run_sound _ hr).kept _ hk)) (hpurpose _)
  | commit he => exact absurd (CommitPayload.encode_type he) (hpurpose _)
  | answer _ _ hacc => exact absurd (HelloPayload.encode_type hacc.hello) (hpurpose _)
  | auth _ _ he => exact absurd (HandshakePayload.encode_type he) (hpurpose _)
  | response _ _ _ he => exact absurd (HandshakePayload.encode_type he) (hpurpose _)
  | confirm _ _ he => exact absurd (SessionConfirmPayload.encode_type he) hconfirm
  | reply _ _ _ _ he => exact absurd (SessionConfirmPayload.encode_type he) hconfirm
  | close h => cases ht.symm.trans h
  | data hi hphase ha henc => exact ⟨_, _, _, hi, hphase, ha, henc⟩

section Reachable

theorem Engine.configured_pinned (role : HelloRole) (identity : IdentityKeypair) (entropy : Entropy)
    (limit : Nat) : (Engine.configured role identity entropy limit).Pinned := by
  refine ⟨?_, ?_, ?_, ?_⟩
  · intro _ h
    cases h
  · intro _ h
    cases h
  · intro _ h
    cases h
  · intro _ _ h
    cases h

theorem Engine.pinned_timeless {e : Engine} : e.timeless.Pinned ↔ e.Pinned := by
  constructor
  · rintro ⟨h1, h2, h3, h4⟩
    exact ⟨fun run h => (h1 run h).congr rfl rfl, h2, h3, h4⟩
  · rintro ⟨h1, h2, h3, h4⟩
    exact ⟨fun run h => (h1 run h).congr rfl rfl, h2, h3, h4⟩

theorem handle_pinned {e : Engine} (hf : e.Fits) (hp : e.Pinned) (i : Input) :
    (e.handle i).1.Pinned :=
  Engine.pinned_timeless.1 ((handle_moves hf i).pinned hf hp)

theorem handle_identity {e : Engine} (hf : e.Fits) (i : Input) :
    (e.handle i).1.identity = e.identity := (handle_moves hf i).identity

variable (role : HelloRole) (identity : IdentityKeypair) (entropy : Entropy) (limit : Nat)

theorem reachable_pinned (inputs : List Input) :
    (final Engine.handle (Engine.configured role identity entropy limit) inputs).Pinned := by
  refine (final_invariant Engine.handle (fun e => e.Fits ∧ e.Pinned) ?_
    ⟨Engine.configured_fits .., Engine.configured_pinned ..⟩ inputs).2
  rintro e i ⟨hf, hp⟩
  exact ⟨handle_fits hf i, handle_pinned hf hp i⟩

theorem reachable_identity (inputs : List Input) :
    (final Engine.handle (Engine.configured role identity entropy limit) inputs).identity = identity := by
  refine (final_invariant Engine.handle (fun e => e.Fits ∧ e.identity = identity) ?_
    ⟨Engine.configured_fits .., rfl⟩ inputs).2
  rintro e i ⟨hf, hi⟩
  exact ⟨handle_fits hf i, (handle_identity hf i).trans hi⟩

theorem Moves.established_peer {e e' : Engine} {i : Input} {es : List Effect} (h : Moves e i es e')
    {peer : PeerIdentity} (hm : .notify (.established peer) ∈ es) :
    e'.phase = .established ∧ e'.peerIdentity = some peer := by
  have hbegins : ∀ {e e' : Engine} {es : List Effect}, Begins e es e' →
      .notify (.established peer) ∉ es := by
    intro e e' es h
    cases h <;> simp
  cases h with
  | noted quiet =>
      obtain ⟨event, he, heq⟩ := List.mem_map.1 hm
      cases heq
      cases quiet _ he
  | closed prior =>
      obtain hm | hm := List.mem_append.1 hm
      · exact absurd hm (not_notify_of_ofStep prior.effects)
      · cases notify_mem_closing hm
  | stepped _ _ hs => exact absurd hm (not_notify_of_ofStep hs.effects)
  | approved _ _ _ happ => exact absurd hm (not_notify_of_ofStep happ.effects)
  | established _ _ hs =>
      obtain hm | hm := List.mem_append.1 hm
      · exact absurd hm (not_notify_of_ofStep hs.effects)
      · simp only [List.mem_singleton, Effect.notify.injEq, Event.established.injEq] at hm
        refine ⟨rfl, ?_⟩
        obtain ⟨-, hpeer, -⟩ := Session.new_id ‹Candidate›.keys ‹Candidate›.role ‹Candidate›.peer
        rw [hm]
        exact congrArg some hpeer
  | promoted _ _ hs =>
      obtain hm | hm := List.mem_append.1 hm
      · exact absurd hm (not_notify_of_ofStep hs.effects)
      · simp at hm
  | abandoned _ habandon =>
      obtain hm | hm := List.mem_append.1 hm
      · exact absurd hm (not_notify_of_ofStep habandon.effects)
      · simp at hm
  | began _ h => exact absurd hm (hbegins h)
  | sent _ _ _ h =>
      obtain hm | hm := List.mem_cons.1 hm
      · cases hm
      · exact absurd hm (hbegins h)
  | delivered _ _ _ _ h =>
      obtain hm | hm := List.mem_cons.1 hm
      · cases hm
      · exact absurd hm (hbegins h)
  | _ => simp at hm

/-- From the event that names the peer on, and until the engine is closed, the
phase and the peer stay. -/
theorem established_stays (before : List Input) (i : Input) (after : List Input) {peer : PeerIdentity}
    (hm : .notify (.established peer) ∈
      (Engine.handle (final Engine.handle (Engine.configured role identity entropy limit) before) i).2)
    (hc : (final Engine.handle (Engine.configured role identity entropy limit)
      (before ++ i :: after)).phase ≠ .closed) :
    (final Engine.handle (Engine.configured role identity entropy limit)
        (before ++ i :: after)).phase = .established ∧
      (final Engine.handle (Engine.configured role identity entropy limit)
        (before ++ i :: after)).peerIdentity = some peer := by
  have hfits := reachable_fits role identity entropy limit before
  rw [final_append, final_cons] at hc ⊢
  generalize final Engine.handle (Engine.configured role identity entropy limit) before = e at hm hc hfits ⊢
  have hstart := (handle_moves hfits i).established_peer ((mem_visible rfl _).2 hm)
  have hinv := final_invariant Engine.handle (fun e => e.Fits ∧
    (e.phase = .closed ∨ (e.phase = .established ∧ e.peerIdentity = some peer))) ?_
    ⟨handle_fits hfits i, .inr hstart⟩ after
  · exact hinv.2.resolve_left hc
  · rintro e j ⟨hf, hcase⟩
    refine ⟨handle_fits hf j, ?_⟩
    obtain hclosed | ⟨hp, hpeer⟩ := hcase
    · left
      rw [Engine.handle, if_pos hclosed]
      exact hclosed
    · by_cases hclosed : (e.handle j).1.phase = .closed
      · exact .inl hclosed
      · obtain ⟨h1, h2⟩ := (handle_moves hf j).peer hp hclosed
        exact .inr ⟨h1, Eq.trans h2 hpeer⟩

/-- Once a peer has been named, every session, every rekey run that knows its
peer and every DATA frame belong to it. -/
theorem identity_pinned (rfc : Ciborium.Rfc8949) (hprim : Primitives.Correct) (before : List Input)
    (i : Input) (after : List Input) (peer : PeerIdentity) :
    let start := Engine.configured role identity entropy limit
    let e := final Engine.handle start (before ++ i :: after)
    .notify (.established peer) ∈ (Engine.handle (final Engine.handle start before) i).2 →
    e.phase ≠ .closed →
    (∃ active, e.active = some active ∧ active.peer = peer ∧
      ∀ drainee, e.draining = some drainee → drainee.peer = peer ∧ drainee.id ≠ active.id) ∧
    peer ≠ identity.identity ∧
    (∀ run remote, e.run = some run → run.remoteIdentity = some remote → remote = peer) ∧
    ∀ j f, .send f ∈ (e.handle j).2 → f.messageType = .data →
      ∃ active payload, e.active = some active ∧ decodePayload f.payload = .ok payload ∧
        payload.sessionId = active.id := by
  intro start e hm hc
  obtain ⟨hp, hpeer⟩ := established_stays role identity entropy limit before i after hm hc
  have hf : e.Fits := reachable_fits role identity entropy limit _
  have hpin : e.Pinned := reachable_pinned role identity entropy limit _
  have hid : e.identity = identity := reachable_identity role identity entropy limit _
  obtain ⟨active, ha, rfl⟩ := Option.map_eq_some_iff.1 hpeer
  refine ⟨⟨active, ha, rfl, fun drainee hd => hpin.draining active drainee ha hd⟩, ?_, ?_, ?_⟩
  · rw [← hid]
    exact hpin.peer_ne active ha
  · intro run remote hrun hremote
    exact ((hpin.run_sound run hrun).remote remote hremote).2 active ha
  · intro j f hf' ht
    obtain ⟨content, active', sender, -, -, ha', henc⟩ :=
      (handle_moves hf j).send_data hpin ((mem_visible rfl _).2 hf') ht
    obtain ⟨-, payload, hseals, hpayload⟩ := DataSender.encrypt_eq_ok henc
    obtain ⟨frame, hframe, -, hdec⟩ := hseals.encode_isOk rfc hprim
    obtain rfl := Except.ok.inj (hpayload.symm.trans hframe)
    exact ⟨active', payload, ha', hdec, hseals.sessionId_eq.trans (hpin.sender_id active' ha')⟩

end Reachable

end Ruxmsg

namespace Ruxmsg

open Library.Machine Sample

theorem take_split {inputs : List Input} {m n : Nat} (hm : m < n) (hlength : m < inputs.length) :
    inputs.take n = inputs.take m ++ inputs.getD m .start :: (inputs.take n).drop (m + 1) := by
  have hdrop : m < (inputs.take n).length := by
    rw [List.length_take]
    exact Nat.lt_min.2 ⟨hm, hlength⟩
  have hget : inputs.getD m .start = inputs[m] := by
    rw [List.getD_eq_getElem?_getD, List.getElem?_eq_getElem hlength, Option.getD_some]
  have h := List.take_append_drop m (inputs.take n)
  rw [List.take_take, Nat.min_eq_left (Nat.le_of_lt hm), List.drop_eq_getElem_cons hdrop, List.getElem_take] at h
  rw [hget]
  exact h.symm

def turning : Engine := final Engine.handle answerer (renewed.rightInputs.take 12)

/-- Both sessions and the message sent next belong to the peer that the handshake
named. -/
theorem identity_pinned_sample : ∃ active drainee f payload,
    turning.active = some active ∧ turning.draining = some drainee ∧
      active.peer = leftIdentity.identity ∧ drainee.peer = leftIdentity.identity ∧ drainee.id ≠ active.id ∧
      .send f ∈ (turning.handle (.localSend [33])).2 ∧ decodePayload f.payload = .ok payload ∧
      payload.sessionId = active.id := by
  obtain ⟨hlength, hevent, hopen, hdraining, hsent⟩ : 5 < renewed.rightInputs.length ∧
      .notify (.established leftIdentity.identity) ∈
        (Engine.handle (final Engine.handle answerer (renewed.rightInputs.take 5))
          (renewed.rightInputs.getD 5 .start)).2 ∧
      turning.phase ≠ .closed ∧ turning.draining.isSome = true ∧
      ((frames (turning.handle (.localSend [33])).2).any fun f => f.messageType = .data) = true := by
    decide +kernel
  have hsplit := take_split (n := 12) (by decide) hlength
  have hturning : turning = final Engine.handle answerer (renewed.rightInputs.take 5 ++
      renewed.rightInputs.getD 5 .start :: (renewed.rightInputs.take 12).drop 6) := by
    rw [← hsplit]
    rfl
  obtain ⟨drainee, hd⟩ := Option.isSome_iff_exists.1 hdraining
  obtain ⟨f, hframe, htype⟩ := List.any_eq_true.1 hsent
  rw [hturning] at hopen hd hframe ⊢
  obtain ⟨⟨active, ha, hpeer, hdrainee⟩, -, -, hdata⟩ := identity_pinned .responder rightIdentity (entropy 200)
    rekeyMessageLimit Ciborium.reference_rfc8949 Primitives.plain_correct (renewed.rightInputs.take 5)
    (renewed.rightInputs.getD 5 .start) ((renewed.rightInputs.take 12).drop 6) leftIdentity.identity hevent hopen
  obtain ⟨hsame, hids⟩ := hdrainee drainee hd
  obtain ⟨active', payload, ha', hpayload, hid⟩ := hdata _ f (mem_frames hframe) (of_decide_eq_true htype)
  obtain rfl := Option.some.inj (ha'.symm.trans ha)
  exact ⟨active', drainee, f, payload, ha, hd, hpeer, hsame, hids, mem_frames hframe, hpayload, hid⟩

end Ruxmsg

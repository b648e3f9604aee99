import Mathlib.Logic.Relation
import Ruxmsg.Provenance
import Ruxmsg.Reference

namespace Ruxmsg

open Library.Machine

section Roles

def Transcript.identityOf (t : Transcript) : HelloRole → PeerIdentity
  | .initiator => t.initiatorIdentity
  | .responder => t.responderIdentity

def Transcript.ephemeralOf (t : Transcript) : HelloRole → Bytes 32
  | .initiator => t.initiatorEphemeral
  | .responder => t.responderEphemeral

def HandshakePayload.signatureOf (p : HandshakePayload) : HelloRole → Option (Bytes 64)
  | .initiator => some p.initiatorSignature
  | .responder => p.responderSignature

def transcriptOf (role : HelloRole) (own remote : HelloPayload) : Result Transcript :=
  match role with
  | .initiator => transcriptFromHellos own remote
  | .responder => transcriptFromHellos remote own

theorem transcriptFromHellos_eq_ok {initiator responder : HelloPayload} {t : Transcript}
    (h : transcriptFromHellos initiator responder = .ok t) :
    t.initiatorIdentity = initiator.identityPublicKey ∧
    t.responderIdentity = responder.identityPublicKey ∧
    t.initiatorEphemeral = initiator.ephemeralPublicKey ∧
    t.responderEphemeral = responder.ephemeralPublicKey ∧
    t.previousSessionId = initiator.previousSessionId ∧
    t.previousSessionId = responder.previousSessionId ∧
    t.cipherSuite = initiator.cipherSuite ∧ t.cipherSuite = responder.cipherSuite := by
  rw [transcriptFromHellos] at h
  split at h
  next => cases h
  next hc =>
      cases h
      simp only [not_or, not_not, ne_eq] at hc
      obtain ⟨-, -, hsuite, -, hprev⟩ := hc
      exact ⟨rfl, rfl, rfl, rfl, rfl, hprev, rfl, hsuite⟩

theorem transcriptOf_eq_ok {role : HelloRole} {own remote : HelloPayload} {t : Transcript}
    (h : transcriptOf role own remote = .ok t) :
    t.identityOf role = own.identityPublicKey ∧ t.identityOf role.other = remote.identityPublicKey ∧
    t.ephemeralOf role = own.ephemeralPublicKey ∧
    t.ephemeralOf role.other = remote.ephemeralPublicKey ∧
    t.previousSessionId = own.previousSessionId ∧ t.cipherSuite = own.cipherSuite := by
  cases role with
  | initiator =>
      obtain ⟨h1, h2, h3, h4, h5, -, h7, -⟩ := transcriptFromHellos_eq_ok h
      exact ⟨h1, h2, h3, h4, h5, h7⟩
  | responder =>
      obtain ⟨h1, h2, h3, h4, -, h6, -, h8⟩ := transcriptFromHellos_eq_ok h
      exact ⟨h2, h1, h4, h3, h6, h8⟩

theorem Run.transcriptWith_eq (run : Run) (remote : HelloPayload) :
    run.transcriptWith remote = transcriptOf run.role run.localHello remote := by
  rw [Run.transcriptWith]
  cases run.role <;> rfl

end Roles

variable [Ciborium] [Primitives]

/-- One use of a session: a message sealed, or one opened. -/
inductive Session.Uses (s : Session) : Session → Prop
  | sent {content result sender} (encrypted : s.sender.encrypt content = (result, sender)) :
      Session.Uses s { s with sender }
  | received {frame result receiver} (decrypted : s.receiver.decrypt frame = (result, receiver)) :
      Session.Uses s { s with receiver }

structure Origin where
  role : HelloRole
  ephemeral : EphemeralKeypair
  own : HelloPayload
  remote : HelloPayload
  transcript : Transcript
  encoded : List UInt8
  shared : Bytes 32
  auth : HandshakePayload
  confirm : SessionConfirmPayload

def Origin.hash (o : Origin) : Bytes 32 := transcriptHash o.encoded

def Origin.keys (o : Origin) : SessionKeys := deriveSessionKeys o.shared o.hash

structure Origin.Of (o : Origin) (run : Run) : Prop where
  role : run.role = o.role
  ephemeral : run.ephemeral = o.ephemeral
  transcript : run.transcript = some o.transcript
  shared : run.shared = some o.shared
  hash : run.hash = some o.hash

/-- What the calls of an engine have to show for its active session. -/
structure Authenticates (identity : IdentityKeypair) (calls : List Call) (s : Session) (o : Origin) :
    Prop where
  ephemeral : ∃ secret, o.ephemeral = EphemeralKeypair.fromBytes secret
  own : o.own.identityPublicKey = identity.identity ∧ o.own.role = o.role ∧
    o.own.ephemeralPublicKey = o.ephemeral.publicKey
  own_sent : ∃ call ∈ calls, ∃ frame, o.own.encode = .ok frame ∧ .send frame ∈ call.out
  remote_received : ∃ frame, Received calls frame ∧ HelloPayload.decode frame = .ok o.remote
  transcript_eq : transcriptOf o.role o.own o.remote = .ok o.transcript
  encoded : o.transcript.encode = .ok o.encoded
  local_side : o.transcript.identityOf o.role = identity.identity
  peer_side : o.transcript.identityOf o.role.other = s.peer
  auth_received : ∃ frame, Received calls frame ∧ HandshakePayload.decode frame = .ok o.auth
  auth_echoes : o.auth.transcript = o.transcript
  auth_signed : ∃ signature, o.auth.signatureOf o.role.other = some signature ∧
    verifyTranscriptSignature s.peer o.hash signature (o.role.other = .initiator) = .ok ()
  confirm_received : ∃ frame, Received calls frame ∧
    SessionConfirmPayload.decode frame = .ok o.confirm
  confirm_session : o.confirm.sessionId = s.id ∧ o.confirm.role = o.role.other
  confirm_verified : verifyConfirmation o.keys.confirmationKey o.hash o.confirm.confirmation
    (o.role.other = .initiator) = .ok ()
  shared_eq : o.ephemeral.sharedSecret o.remote.ephemeralPublicKey = .ok o.shared
  id_eq : s.id = o.keys.sessionId
  made : ∃ before call after run, calls = before ++ call :: after ∧ call.pre.run = some run ∧
    o.Of run ∧ call.post.active = some (Session.new o.keys o.role s.peer) ∧
    call.pre.activeSessionId = o.transcript.previousSessionId
  used : Relation.ReflTransGen Session.Uses (Session.new o.keys o.role s.peer) s

section Carrying

omit [Ciborium] [Primitives] in
theorem Received.append {calls : List Call} {frame : Frame} (h : Received calls frame)
    (later : List Call) : Received (calls ++ later) frame := by
  obtain ⟨call, hc, hi⟩ := h
  exact ⟨call, List.mem_append_left _ hc, hi⟩

theorem Authenticates.next {identity : IdentityKeypair} {calls : List Call} {s s' : Session}
    {o : Origin} (h : Authenticates identity calls s o) (hid : s'.id = s.id) (hpeer : s'.peer = s.peer)
    (hu : Relation.ReflTransGen Session.Uses s s') (call : Call) :
    Authenticates identity (calls ++ [call]) s' o := by
  refine ⟨h.ephemeral, h.own, ?_, ?_, h.transcript_eq, h.encoded, h.local_side, ?_, ?_, h.auth_echoes,
    ?_, ?_, ?_, h.confirm_verified, h.shared_eq, ?_, ?_, ?_⟩
  · obtain ⟨c, hc, hs⟩ := h.own_sent
    exact ⟨c, List.mem_append_left _ hc, hs⟩
  · obtain ⟨frame, hr, hd⟩ := h.remote_received
    exact ⟨frame, hr.append _, hd⟩
  · rw [hpeer]
    exact h.peer_side
  · obtain ⟨frame, hr, hd⟩ := h.auth_received
    exact ⟨frame, hr.append _, hd⟩
  · rw [hpeer]
    exact h.auth_signed
  · obtain ⟨frame, hr, hd⟩ := h.confirm_received
    exact ⟨frame, hr.append _, hd⟩
  · rw [hid]
    exact h.confirm_session
  · rw [hid]
    exact h.id_eq
  · obtain ⟨before, c, after, run, rfl, hrun, ho, hpost, hpre⟩ := h.made
    rw [hpeer]
    exact ⟨before, c, after ++ [call], run, by simp, hrun, ho, hpost, hpre⟩
  · rw [hpeer]
    exact h.used.trans hu

theorem Session.Uses.keeps {s s' : Session} (h : s.Uses s') : s'.id = s.id ∧ s'.peer = s.peer := by
  cases h <;> exact ⟨rfl, rfl⟩

end Carrying

inductive ActiveMoves (e : Engine) (i : Input) (es : List Effect) : Option Session → Prop
  | gone : ActiveMoves e i es none
  | kept : ActiveMoves e i es e.active
  | used {s s'} (active_eq : e.active = some s) (uses : s.Uses s') : ActiveMoves e i es (some s')
  | made {run run' frame es' candidate} (run_eq : e.run = some run) (input : i = .frameReceived frame)
      (steps : Steps e run frame es' (.ok (run', some candidate))) :
      ActiveMoves e i es (some (Session.new candidate.keys candidate.role candidate.peer))

theorem Moves.active_moves {e e' : Engine} {i : Input} {es : List Effect} (h : Moves e i es e') :
    ActiveMoves e i es e'.active := by
  have hbegins : ∀ {e₀ e' : Engine} {es' : List Effect}, Begins e₀ es' e' →
      ActiveMoves e i es e₀.active → ActiveMoves e i es e'.active := by
    intro e₀ e' es' hb hm
    rw [hb.keeps.2.2.1]
    exact hm
  cases h with
  | closed => exact .gone
  | established _ hr hs => exact .made hr rfl hs
  | promoted _ hr hs => exact .made hr rfl hs
  | began _ h => exact hbegins h .kept
  | sent _ ha henc h => exact hbegins h (.used ha (.sent henc))
  | unsent _ ha henc => exact .used ha (.sent henc)
  | delivered _ _ ha hdec h => exact hbegins h (.used ha (.received hdec))
  | drained _ _ ha hdec => exact .used ha (.received hdec)
  | rejected _ _ ha hdec => exact .used ha (.received hdec)
  | _ => exact .kept

theorem Steps.confirmed {e : Engine} {run run' : Run} {frame : Frame} {es : List Effect}
    {candidate : Candidate} (hrole : run.step = .confirmResp → run.role = .initiator)
    (hrole' : run.step = .confirmInit → run.role = .responder)
    (h : Steps e run frame es (.ok (run', some candidate))) :
    (run.step ≠ .hello ∧ run.step ≠ .reveal) ∧ ∃ confirm hash,
      AcceptsConfirm run frame confirm candidate.keys hash run.role.other := by
  cases h with
  | confirmResp hs hacc =>
      rw [hrole hs]
      exact ⟨by simp [hs], _, _, hacc⟩
  | confirmInit hs hacc =>
      rw [hrole' hs]
      exact ⟨by simp [hs], _, _, hacc⟩

omit [Ciborium] in
theorem SessionConfirmPayload.verifyFrom_eq_ok {p : SessionConfirmPayload} {keys : SessionKeys}
    {hash : Bytes 32} {role : HelloRole} (h : p.verifyFrom keys hash role = .ok ()) :
    p.role = role ∧ p.sessionId = keys.sessionId ∧
      verifyConfirmation keys.confirmationKey hash p.confirmation (role = .initiator) = .ok () := by
  simp only [verifyFrom, verify, bind_eq_ok, ensure_eq_ok] at h
  obtain ⟨_, rfl, _, hid, h⟩ := h
  exact ⟨rfl, hid, h⟩

theorem Vouched.signed {run : Run} {during : List Call} {keys : SessionKeys} {auth : HandshakePayload}
    {transcript : Transcript} {shared hash : Bytes 32}
    (h : Vouched run during keys auth transcript shared hash) :
    ∃ signature, auth.signatureOf run.role.other = some signature ∧
      verifyTranscriptSignature (transcript.identityOf run.role.other) hash signature
        (run.role.other = .initiator) = .ok () := by
  have hv := verified_of_eq_ok h.verified
  cases hrole : run.role with
  | initiator =>
      obtain ⟨signature, hs⟩ := Option.isSome_iff_exists.1 (h.initiator hrole).2
      exact ⟨signature, hs, hv.responder signature hs⟩
  | responder => exact ⟨_, rfl, hv.initiator⟩

theorem Engine.Fits.previous {e : Engine} (hf : e.Fits) (hp : e.Pinned) {run : Run}
    (hrun : e.run = some run) (h : previousFits run.localHello.purpose run.localHello.previousSessionId) :
    run.previous = e.activeSessionId := by
  have hs := hp.run_sound run hrun
  obtain ⟨hphase, hpurpose⟩ | ⟨hphase, hpurpose⟩ := hf.run_purpose run hrun
  · rw [hs.purpose, hpurpose, hs.previous] at h
    have hnone : e.active = none := by
      by_contra ha
      have := hf.active_iff.1 (Option.isSome_iff_ne_none.2 ha)
      rw [hphase] at this
      cases this
    rw [Engine.activeSessionId, hnone]
    exact Option.isNone_iff_eq_none.1 h
  · exact hf.run_previous run hrun hpurpose

/-- A step that completes a handshake has everything its session rests on. -/
theorem Evidence.authenticates {e : Engine} {i : Input} {calls before during : List Call} {run run' : Run}
    {first : Call} {frame : Frame} {es : List Effect} {candidate : Candidate} (hf : e.Fits)
    (hp : e.Pinned) (hrun : e.run = some run) (hseg : Segment calls run before first during)
    (hev : Evidence run first during) (hi : i = .frameReceived frame)
    (hs : Steps e run frame es (.ok (run', some candidate)))
    (hpost : (e.handle i).1.active =
      some (Session.new candidate.keys candidate.role candidate.peer)) :
    ∃ o, Authenticates e.identity (calls ++ [record Engine.handle e i])
      (Session.new candidate.keys candidate.role candidate.peer) o := by
  have hsound := hp.run_sound run hrun
  have hincl : ∀ call ∈ during, call ∈ calls ++ [record Engine.handle e i] := by
    intro call hc
    rw [hseg.calls_eq]
    simp [hc]
  have hfirst : first ∈ calls ++ [record Engine.handle e i] := by
    rw [hseg.calls_eq]
    simp
  obtain ⟨⟨hhello, hreveal⟩, confirm, hash, hconfirm⟩ :=
    hs.confirmed (fun h => hev.initiator (.inr h)) (fun h => hev.responder (.inr h))
  obtain ⟨hkeys, hremote, hrole⟩ := hs.candidate
  obtain ⟨remote, transcript, hash', shared, hheard⟩ := hev.heard hhello hreveal
  obtain ⟨auth, transcript', shared', hash'', hvouched⟩ := hev.vouched _ hkeys
  obtain rfl := Option.some.inj (hheard.transcript_eq.symm.trans hvouched.transcript_eq)
  obtain rfl := Option.some.inj (hheard.shared_eq.symm.trans hvouched.shared_eq)
  obtain rfl := Option.some.inj (hconfirm.hash_eq.symm.trans hheard.hash_eq)
  obtain ⟨encoded, henc, rfl⟩ := hheard.agrees.hash_eq
  have hverified := verified_of_eq_ok hvouched.verified
  obtain ⟨encoded', henc', rfl⟩ := hverified.hash_eq
  obtain rfl := Except.ok.inj (henc.symm.trans henc')
  have hpeer : remote.identityPublicKey = candidate.peer :=
    Option.some.inj (hheard.remote_eq.symm.trans hremote)
  have ht := hheard.agrees.transcript_eq
  rw [Run.transcriptWith_eq] at ht
  obtain ⟨hlocal, hother, -, -, hprev, -⟩ := transcriptOf_eq_ok ht
  obtain ⟨hrole', hid, hmac⟩ := SessionConfirmPayload.verifyFrom_eq_ok hconfirm.verified
  obtain ⟨hsid, hspeer, -⟩ := Session.new_id candidate.keys candidate.role candidate.peer
  have hown : ∃ call ∈ calls ++ [record Engine.handle e i], ∃ f,
      run.localHello.encode = .ok f ∧ .send f ∈ call.out := by
    cases hr : run.role with
    | initiator =>
        obtain ⟨call, hc, _, hh⟩ := hheard.received
        obtain ⟨f, he, hsent⟩ := hh.reveals hr
        exact ⟨call, hincl call hc, f, he, hsent⟩
    | responder =>
        obtain ⟨_, _, f, ha⟩ := hev.began.responder hr
        exact ⟨first, hfirst, f, ha.hello, ha.sent⟩
  let o : Origin :=
    { role := run.role
      ephemeral := run.ephemeral
      own := run.localHello
      remote, transcript, encoded, shared, auth, confirm }
  have hokeys : o.keys = candidate.keys := hverified.keys_eq.symm
  have horole : o.role = candidate.role := hrole.symm
  refine ⟨o, hev.began.ephemeral, ⟨hsound.identity, hsound.role, hsound.ephemeral⟩, hown, ?_, ht, henc,
    hlocal.trans hsound.identity, ?_, ?_, hverified.echoes, ?_, ?_, ?_, ?_, hheard.agrees.shared_eq, ?_,
    ?_, ?_⟩
  · obtain ⟨call, hc, f, hh⟩ := hheard.received
    exact ⟨f, ⟨call, hincl call hc, hh.input⟩, hh.decoded⟩
  · rw [hspeer]
    exact hother.trans hpeer
  · obtain ⟨f, ⟨call, hc, hin⟩, hd⟩ := hvouched.received
    exact ⟨f, ⟨call, hincl call hc, hin⟩, hd⟩
  · rw [hspeer, ← hpeer, ← hother]
    exact hvouched.signed
  · exact ⟨frame, .last hi, hconfirm.decoded⟩
  · rw [hsid]
    exact ⟨hid, hrole'⟩
  · rw [hokeys]
    exact hmac
  · rw [hsid, hokeys]
  · refine ⟨calls, _, [], run, rfl, hrun, ⟨rfl, rfl, hheard.transcript_eq, hheard.shared_eq,
      hheard.hash_eq⟩, ?_, ?_⟩
    · rw [hspeer, hokeys, horole]
      exact hpost
    · obtain ⟨_, _, f, he, -⟩ := hown
      refine Eq.trans ?_ (hprev.trans hsound.previous).symm
      exact (hf.previous hp hrun (HelloPayload.encode_eq_ok.1 he).2.1).symm
  · rw [hspeer, hokeys, horole]

theorem handle_authenticates {e : Engine} {calls : List Call} (hf : e.Fits) (hp : e.Pinned)
    (he : e.Evident calls)
    (ha : ∀ s, e.active = some s → ∃ o, Authenticates e.identity calls s o) (i : Input) :
    ∀ s, (e.handle i).1.active = some s →
      ∃ o, Authenticates e.identity (calls ++ [record Engine.handle e i]) s o := by
  intro s hs
  have hmoves := (handle_moves hf i).active_moves
  rw [show (e.handle i).1.timeless.active = some s from hs] at hmoves
  generalize hr : some s = result at hmoves
  cases hmoves with
  | gone => cases hr
  | kept =>
      obtain ⟨o, h⟩ := ha s hr.symm
      exact ⟨o, h.next rfl rfl .refl _⟩
  | used hactive huses =>
      obtain rfl := Option.some.inj hr
      obtain ⟨o, h⟩ := ha _ hactive
      exact ⟨o, h.next huses.keeps.1 huses.keeps.2 (.single huses) _⟩
  | made hrun hi hsteps =>
      obtain rfl := Option.some.inj hr
      obtain ⟨before, first, during, hseg, hev⟩ := he _ hrun
      exact hev.authenticates hf hp hrun hseg hi hsteps hs

/-- Every session held in a reachable state has an origin. -/
theorem reachable_authenticates (role : HelloRole) (identity : IdentityKeypair) (entropy : Entropy)
    (limit : Nat) (inputs : List Input) {s : Session}
    (hs : (final Engine.handle (Engine.configured role identity entropy limit) inputs).active = some s) :
    ∃ o, Authenticates identity
      (trace Engine.handle (Engine.configured role identity entropy limit) inputs) s o := by
  have h := trace_induction Engine.handle
    (fun (calls : List Call) e => e.Fits ∧ e.Pinned ∧ e.Evident calls ∧ e.identity = identity ∧
      ∀ s, e.active = some s → ∃ o, Authenticates identity calls s o)
    (Engine.configured role identity entropy limit) ?_ ?_ inputs
  · exact h.2.2.2.2 s hs
  · refine ⟨Engine.configured_fits .., Engine.configured_pinned .., ?_, rfl, ?_⟩
    · intro _ hr
      cases hr
    · intro _ hs
      cases hs
  · rintro calls e i ⟨hf, hp, he, rfl, ha⟩
    exact ⟨handle_fits hf i, handle_pinned hf hp i, handle_evident hf hp he i,
      (handle_moves hf i).identity, handle_authenticates hf hp he ha i⟩

/-- Authenticated establishment: whatever frames an engine has been given, a
session it holds rests on a transcript that the peer has signed and confirmed. -/
theorem authenticated_establishment (role : HelloRole) (identity : IdentityKeypair)
    (entropy : Entropy) (limit : Nat) (inputs : List Input) :
    let start := Engine.configured role identity entropy limit
    ∀ s, (final Engine.handle start inputs).active = some s →
      ∃ o, Authenticates identity (trace Engine.handle start inputs) s o := by
  intro start s hs
  exact reachable_authenticates role identity entropy limit inputs hs

end Ruxmsg

namespace Ruxmsg

open Library.Machine Sample

/-- The dialing side after an honest handshake. -/
theorem authenticated_establishment_sample :
    ∃ s o, (final Engine.handle dialer handshake.leftInputs).active = some s ∧
      Authenticates leftIdentity (trace Engine.handle dialer handshake.leftInputs) s o := by
  have hf : (final Engine.handle dialer handshake.leftInputs).Fits :=
    reachable_fits .initiator leftIdentity (entropy 100) rekeyMessageLimit _
  obtain ⟨s, hs⟩ := Option.isSome_iff_exists.1 (hf.active_iff.2 handshake_established.1)
  obtain ⟨o, ho⟩ := authenticated_establishment .initiator leftIdentity (entropy 100) rekeyMessageLimit
    handshake.leftInputs s hs
  exact ⟨s, o, hs, ho⟩

end Ruxmsg

import Ruxmsg.Honest

namespace Ruxmsg

variable [Ciborium] [Primitives]

/-- What a side of a connection shows of its handshakes: its engine, without
timers and the state of its chains, and what it has told its user so far. -/
structure View where
  identity : IdentityKeypair
  phase : Phase
  run : Option Run
  activeId : Option SessionId
  peer : Option PeerIdentity
  completed : Nat
  shown : List (List String)

def Effect.words? : Effect → Option (List String)
  | .requestSas words _ => some words
  | _ => none

def Effect.frame? : Effect → Option Frame
  | .send frame => some frame
  | _ => none

def Engine.view (e : Engine) (out : List Effect) : View :=
  { identity := e.identity
    phase := e.phase
    run := e.run
    activeId := e.activeSessionId
    peer := e.peerIdentity
    completed := out.count (.notify .rekeyCompleted)
    shown := out.filterMap Effect.words? }

/-- Both sides stand in the same session, after as many rekeys. -/
structure Level (x y : View) : Prop where
  phase : y.phase = x.phase
  activeId : y.activeId = x.activeId
  completed : y.completed = x.completed

def SameWords (x y : View) : Prop := ∃ hash, x.shown = [sasWords hash] ∧ y.shown = [sasWords hash]

structure ShownBefore (x y : View) (purpose : HandshakePurpose) : Prop where
  initial : purpose = .initial → x.shown = [] ∧ y.shown = []
  rekey : purpose = .rekey → SameWords x y

structure Offers (x : View) (r : Run) (f : Frame) : Prop where
  run_eq : x.run = some r
  role : r.role = .initiator
  step : r.step = .hello
  kept : r.localHelloFrame = some f
  fits : previousFits r.purpose r.previous
  belongs : (x.phase = .handshaking ∧ r.purpose = .initial) ∨
    (x.phase = .established ∧ r.purpose = .rekey ∧ r.previous = x.activeId)

def Competes (x y : View) (r : Run) (frames : List Frame) : Prop :=
  frames = [] ∨ ∃ frame commit, frames = [frame] ∧ CommitPayload.decode frame = .ok commit ∧
    r.purpose = .rekey ∧ commit.purpose = .rekey ∧ commit.previousSessionId = r.previous ∧
    localIdentityWinsRekeyGlare x.identity.identity y.identity.identity = true

structure AnswersRun (x y : View) (r r' : Run) (f : Frame) : Prop where
  run_eq : y.run = some r'
  meets : Meets r r'
  commit : r'.commit = some (commitOf r.purpose r.previous f)
  step : r'.step = .reveal
  early : r'.early = none

/-- What the HELLOs settled, as one run keeps it. -/
structure Holds (r : Run) (transcript : Transcript) (hash shared : Bytes 32) (remote : PeerIdentity) :
    Prop where
  transcript_eq : r.transcript = some transcript
  hash_eq : r.hash = some hash
  shared_eq : r.shared = some shared
  remote_eq : r.remoteIdentity = some remote

/-- Where the initiator is between the HELLOs and the AUTH of the responder,
with the frames it has sent since its HELLO. -/
inductive Signs (identity : IdentityKeypair) (r : Run) (transcript : Transcript) (hash : Bytes 32) :
    List Frame → Prop
  | waits (step : r.step = .sas) (purpose : r.purpose = .initial) : Signs identity r transcript hash []
  | signed {frame} (step : r.step = .authResp)
      (encoded : (authBy identity transcript hash).encode = .ok frame) :
      Signs identity r transcript hash [frame]

/-- Where the responder is before it has processed the AUTH of the initiator,
by what the initiator has sent and what of it is still in flight. -/
inductive Awaits (r : Run) (sent : List Frame) : List Frame → Prop
  | sas (step : r.step = .sas) (purpose : r.purpose = .initial) (early : r.early = none) :
      Awaits r sent sent
  | early {frame} (step : r.step = .sas) (purpose : r.purpose = .initial)
      (early : r.early = some frame) (sent_eq : sent = [frame]) : Awaits r sent []
  | ready (step : r.step = .authInit) (early : r.early = none) : Awaits r sent sent

structure Runs (x : View) (r : Run) (role : HelloRole) (transcript : Transcript) (hash shared : Bytes 32)
    (remote : PeerIdentity) : Prop where
  run_eq : x.run = some r
  role : r.role = role
  holds : Holds r transcript hash shared remote

structure Agreed (x y : View) (r r' : Run) (transcript : Transcript) (hash shared : Bytes 32) :
    Prop where
  level : Level x y
  meets : Meets r r'
  runs : Runs x r .initiator transcript hash shared r'.localHello.identityPublicKey
  runs' : Runs y r' .responder transcript hash shared r.localHello.identityPublicKey
  settles : Settles x.identity y.identity r r' transcript hash shared
  words : SameWords x y

/-- The joint states of two honest sides, the first of which is the initiator of
the exchange under way, with the frames of handshakes in flight to each. -/
inductive Exchange (x y : View) : List Frame → List Frame → Prop
  | quiet (level : Level x y) (phase : x.phase = .established) (run : x.run = none) (run' : y.run = none)
      (words : SameWords x y) : Exchange x y [] []
  | offered {r f frame} (level : Level x y) (offers : Offers x r f) (run' : y.run = none)
      (commit : (commitOf r.purpose r.previous f).encode = .ok frame)
      (words : ShownBefore x y r.purpose) : Exchange x y [] [frame]
  | crossed {r r' f f' stale frame} (level : Level x y) (offers : Offers x r f) (offers' : Offers y r' f')
      (purpose : r.purpose = .rekey) (competes : Competes x y r stale)
      (wins : localIdentityWinsRekeyGlare x.identity.identity y.identity.identity = true)
      (commit : (commitOf r.purpose r.previous f).encode = .ok frame)
      (words : SameWords x y) : Exchange x y stale [frame]
  | answered {r r' f stale frame} (level : Level x y) (offers : Offers x r f)
      (answers : AnswersRun x y r r' f) (competes : Competes x y r stale)
      (hello : r'.localHello.encode = .ok frame) (words : ShownBefore x y r.purpose) :
      Exchange x y (stale ++ [frame]) []
  | revealed {r r' f transcript hash shared sent} (level : Level x y)
      (runs : Runs x r .initiator transcript hash shared r'.localHello.identityPublicKey)
      (hello : r.localHello.encode = .ok f) (answers : AnswersRun x y r r' f)
      (settles : Settles x.identity y.identity r r' transcript hash shared)
      (signs : Signs x.identity r transcript hash sent)
      (words : r.purpose = .initial → x.shown = [sasWords hash] ∧ y.shown = [])
      (words' : r.purpose = .rekey → SameWords x y) : Exchange x y [] (f :: sent)
  | met {r r' transcript hash shared sent flight} (agreed : Agreed x y r r' transcript hash shared)
      (signs : Signs x.identity r transcript hash sent) (awaits : Awaits r' sent flight) :
      Exchange x y [] flight
  | signed {r r' transcript hash shared frame} (agreed : Agreed x y r r' transcript hash shared)
      (step : r.step = .authResp) (step' : r'.step = .confirmInit)
      (keys' : r'.keys = some (deriveSessionKeys shared hash))
      (response : (responseBy y.identity transcript hash (authBy x.identity transcript hash)).encode =
        .ok frame) : Exchange x y [frame] []
  | confirmed {r r' transcript hash shared frame} (agreed : Agreed x y r r' transcript hash shared)
      (step : r.step = .confirmResp) (step' : r'.step = .confirmInit)
      (keys : r.keys = some (deriveSessionKeys shared hash))
      (keys' : r'.keys = some (deriveSessionKeys shared hash))
      (confirm : (confirmOf (deriveSessionKeys shared hash) hash .initiator).encode = .ok frame) :
      Exchange x y [] [frame]
  | closing {r hash shared transcript frame frames} {keys : SessionKeys}
      (runs : Runs x r .initiator transcript hash shared y.identity.identity)
      (step : r.step = .confirmResp) (keys_eq : r.keys = some keys)
      (phase' : y.phase = .established) (active' : y.activeId = some keys.sessionId)
      (completed : y.completed = x.completed + if r.purpose = .rekey then 1 else 0)
      (confirm : (confirmOf keys hash .responder).encode = .ok frame)
      (words : SameWords x y)
      (after : (y.run = none ∧ frames = []) ∨ ∃ r' f frame', Offers y r' f ∧ r'.purpose = .rekey ∧
        (commitOf r'.purpose r'.previous f).encode = .ok frame' ∧ frames = [frame']) :
      Exchange x y (frame :: frames) []

/-- The joint states, whichever side is the initiator. -/
structure Together (x y : View) (toX toY : List Frame) : Prop where
  exchange : Exchange x y toX toY ∨ Exchange y x toY toX
  peer : x.phase = .established → x.peer = some y.identity.identity
  peer' : y.phase = .established → y.peer = some x.identity.identity

structure Sides (e e' : Engine) : Prop where
  fits : e.Fits
  fits' : e'.Fits
  pinned : e.Pinned
  pinned' : e'.Pinned
  distinct : e.identity.identity ≠ e'.identity.identity
  fresh : ∀ r r', e.run = some r → e'.run = some r' → FreshPair r.ephemeral r'.ephemeral
  freshId : ∀ r keys, e.run = some r → r.keys = some keys → e.activeSessionId ≠ some keys.sessionId
  freshId' : ∀ r keys, e'.run = some r → r.keys = some keys → e'.activeSessionId ≠ some keys.sessionId

/-- A later view of the same side, with the same peer. -/
structure Follows (x' x : View) (peer : PeerIdentity) : Prop where
  identity : x'.identity = x.identity
  peer : x'.phase = .established → x'.peer = some peer

omit [Ciborium] [Primitives] in
theorem Follows.of_eq {x x' : View} {peer : PeerIdentity} (hi : x'.identity = x.identity)
    (hphase : x'.phase = x.phase) (hpeer : x'.peer = x.peer)
    (h : x.phase = .established → x.peer = some peer) : Follows x' x peer :=
  ⟨hi, fun he => hpeer.trans (h (hphase ▸ he))⟩

/-- No failed rekey, no end of the connection, no rejected DATA. -/
def Effect.Fine : Effect → Prop
  | .notify (.rekeyFailed _) | .notify (.closed _) | .notify .dataRejected | .closeTransport => False
  | _ => True

omit [Primitives] in
theorem Engine.closing_not_fine {self : Engine} {cause : CloseCause} {reason : Option CloseReason}
    {es : List Effect} : ¬ ∀ effect ∈ es ++ self.closing cause reason, effect.Fine := by
  intro h
  have hmem : .notify (.closed cause) ∈ self.closing cause reason := by
    simp [closing]
  exact h _ (List.mem_append_right _ hmem)

omit [Ciborium] [Primitives] in
theorem frames_notified (events : List Event) :
    (events.map Effect.notify).filterMap Effect.frame? = [] := by
  rw [List.filterMap_map]
  exact List.filterMap_eq_nil_iff.2 fun _ _ => rfl

def Acts (e : Engine) (out : List Effect) (i : Input) (P : View → List Frame → Prop) : Prop :=
  ∃ es e₁, e.Becomes i es e₁ ∧ (∀ effect ∈ es, effect.Fine) ∧
    P (e₁.view (out ++ es)) (es.filterMap Effect.frame?)

section Views

variable (e : Engine) (out es : List Effect)

omit [Ciborium] [Primitives] in
@[simp] theorem Engine.view_phase : (e.view out).phase = e.phase := rfl

omit [Ciborium] [Primitives] in
theorem Engine.view_shown_append :
    (e.view (out ++ es)).shown = (e.view out).shown ++ es.filterMap Effect.words? :=
  List.filterMap_append

omit [Ciborium] [Primitives] in
theorem Engine.view_completed_append :
    (e.view (out ++ es)).completed = (e.view out).completed + es.count (.notify .rekeyCompleted) :=
  List.count_append

end Views

def Effect.Plain (effect : Effect) : Prop :=
  effect.Fine ∧ effect ≠ .notify .rekeyCompleted ∧ effect.words? = none

omit [Ciborium] [Primitives] in
@[simp] theorem Effect.plain_send (frame : Frame) : (Effect.send frame).Plain := by
  simp [Plain, Fine, words?]

omit [Ciborium] [Primitives] in
@[simp] theorem Effect.plain_deliver (content : List UInt8) : (Effect.deliver content).Plain := by
  simp [Plain, Fine, words?]

omit [Ciborium] [Primitives] in
@[simp] theorem Effect.plain_rekeyStarted : (Effect.notify .rekeyStarted).Plain := by
  simp [Plain, Fine, words?]

theorem Acts.plain {e e₁ : Engine} {out es : List Effect} {i : Input} {P : View → List Frame → Prop}
    (hb : e.Becomes i es e₁) (hes : ∀ effect ∈ es, effect.Plain)
    (h : P (e₁.view out) (es.filterMap Effect.frame?)) : Acts e out i P := by
  have hcount : es.count (.notify .rekeyCompleted) = 0 :=
    List.count_eq_zero.2 fun hm => (hes _ hm).2.1 rfl
  have hwords : es.filterMap Effect.words? = [] :=
    List.filterMap_eq_nil_iff.2 fun effect hm => (hes effect hm).2.2
  refine ⟨es, e₁, hb, fun effect hm => (hes effect hm).1, ?_⟩
  have hv : e₁.view (out ++ es) = e₁.view out := by
    simp [Engine.view, hcount, hwords]
  rw [hv]
  exact h

theorem Acts.notified {e e₁ : Engine} {out es : List Effect} {i : Input} {event : Event}
    {P : View → List Frame → Prop} (hb : e.Becomes i (es ++ [.notify event]) e₁)
    (hes : ∀ effect ∈ es, effect.Plain) (hfine : (Effect.notify event).Fine)
    (h : P { e₁.view out with
        completed := (e₁.view out).completed + if event = .rekeyCompleted then 1 else 0 }
      (es.filterMap Effect.frame?)) : Acts e out i P := by
  have hcount : es.count (.notify .rekeyCompleted) = 0 :=
    List.count_eq_zero.2 fun hm => (hes _ hm).2.1 rfl
  have hwords : es.filterMap Effect.words? = [] :=
    List.filterMap_eq_nil_iff.2 fun effect hm => (hes effect hm).2.2
  refine ⟨_, e₁, hb, ?_, ?_⟩
  · intro effect hm
    obtain hm | hm := List.mem_append.1 hm
    · exact (hes effect hm).1
    · rw [List.mem_singleton.1 hm]
      exact hfine
  · have hv : e₁.view (out ++ (es ++ [.notify event])) = { e₁.view out with
        completed := (e₁.view out).completed + if event = .rekeyCompleted then 1 else 0 } := by
      by_cases hevent : event = .rekeyCompleted <;>
        simp [Engine.view, hcount, hwords, hevent, Effect.words?]
    have hframes : (es ++ [Effect.notify event]).filterMap Effect.frame? =
        es.filterMap Effect.frame? := by
      simp [Effect.frame?]
    rw [hv, hframes]
    exact h

theorem Settles.continues {identity identity' : IdentityKeypair} {r r' r₁ r₁' : Run}
    {transcript : Transcript} {hash shared : Bytes 32} (hc : r.Continues r₁) (hc' : r'.Continues r₁')
    (h : Settles identity identity' r r' transcript hash shared) :
    Settles identity identity' r₁ r₁' transcript hash shared := by
  refine ⟨?_, ?_, h.initiator, h.responder, h.suite, ?_, h.fits⟩
  · rw [hc'.localHello]
    exact h.agrees.continues hc
  · rw [hc.localHello]
    exact h.agrees'.continues hc'
  · rw [hc.purpose]
    exact h.purpose

omit [Ciborium] [Primitives] in
theorem Meets.continues {r r' r₁ r₁' : Run} (hc : r.Continues r₁) (hc' : r'.Continues r₁')
    (h : Meets r r') : Meets r₁ r₁' := by
  refine ⟨hc.role.trans h.role, hc'.role.trans h.role', ?_, ?_, ?_⟩
  · rw [hc'.purpose, hc.purpose, h.purpose]
  · rw [hc'.previous, hc.previous, h.previous]
  · rw [hc.purpose, hc.previous]
    exact h.fits

omit [Ciborium] [Primitives] in
theorem Engine.Fits.expects {e : Engine} (hf : e.Fits) {run : Run} {frame : Frame}
    (hrun : e.run = some run) (ht : frame.messageType = messageTypeForPurpose run.purpose) :
    e.Expects frame := by
  obtain ⟨hp, hpurpose⟩ | ⟨hp, hpurpose⟩ := hf.run_purpose run hrun
  · refine .inl ⟨hp, ?_⟩
    rw [ht, hpurpose]
    decide
  · refine .inr ⟨hp, .inl ?_⟩
    rw [ht, hpurpose]
    rfl

section Delivery

variable {e e' : Engine} {out out' : List Effect} {toX rest : List Frame} {frame : Frame}

variable (rfc : Ciborium.Rfc8949) (hprim : Primitives.Correct)

section Commits

include rfc

theorem Offers.deliver {r : Run} {f : Frame} (hlevel : Level (e.view out) (e'.view out'))
    (hpeer' : e'.phase = .established → e'.peerIdentity = some e.identity.identity)
    (hoffers : Offers (e.view out) r f) (hrun : e'.run = none)
    (hc : (commitOf r.purpose r.previous f).encode = .ok frame)
    (hw : ShownBefore (e.view out) (e'.view out') r.purpose) :
    Acts e' out' (.frameReceived frame) fun y sent =>
      Exchange (e.view out) y sent [] ∧ Follows y (e'.view out') e.identity.identity := by
  have hd := CommitPayload.decode_encode rfc hc
  have ht := (CommitPayload.decode_eq_ok hd).2.2
  obtain ⟨helloFrame, hh⟩ := e'.hello_isOk rfc .responder r.purpose r.previous hoffers.fits
  have hacc : AcceptsCommit e' frame (commitOf r.purpose r.previous f) helloFrame := ⟨hd, rfl, hh⟩
  have hmeets : Meets r (e'.responderRun (commitOf r.purpose r.previous f)) :=
    ⟨hoffers.role, rfl, rfl, rfl, hoffers.fits⟩
  obtain ⟨hphase, hpurpose⟩ | ⟨hphase, hpurpose, hprev⟩ := hoffers.belongs
  · have hnone : r.previous = none := by
      have := hoffers.fits
      rw [hpurpose] at this
      exact Option.isNone_iff_eq_none.1 this
    refine Acts.plain (becomes_accepted (hlevel.phase.trans hphase) hrun hacc hpurpose hnone ?_)
      (by simp) ⟨?_, .of_eq rfl rfl rfl hpeer'⟩
    · rw [ht]
      simp [commitOf, hpurpose, messageTypeForPurpose]
    · show Exchange _ _ ([] ++ [helloFrame]) []
      exact .answered ⟨hlevel.phase, hlevel.activeId, hlevel.completed⟩ hoffers
        ⟨rfl, hmeets, rfl, rfl, rfl⟩ (.inl rfl) hh ⟨hw.initial, hw.rekey⟩
  · have hsome : r.previous.isSome := by
      have := hoffers.fits
      rw [hpurpose] at this
      exact this
    refine Acts.plain (becomes_answered (hlevel.phase.trans hphase) hrun hacc hpurpose hsome
      (hprev.trans hlevel.activeId.symm)) (by simp)
      ⟨?_, .of_eq rfl rfl rfl hpeer'⟩
    show Exchange _ _ ([] ++ [helloFrame]) []
    exact .answered ⟨hlevel.phase, hlevel.activeId, hlevel.completed⟩ hoffers
      ⟨rfl, hmeets, rfl, rfl, rfl⟩ (.inl rfl) hh ⟨hw.initial, hw.rekey⟩

omit [Ciborium] [Primitives] rfc in
theorem Offers.established {x : View} {r : Run} {f : Frame} (h : Offers x r f)
    (hp : r.purpose = .rekey) : x.phase = .established ∧ r.previous = x.activeId := by
  obtain ⟨-, h⟩ | ⟨hphase, -, hprev⟩ := h.belongs
  · rw [hp] at h
    cases h
  · exact ⟨hphase, hprev⟩

omit rfc in
theorem Competes.deliver {r : Run} {f : Frame} {y : View} {commit : CommitPayload}
    (hpeer : e.phase = .established → e.peerIdentity = some y.identity.identity)
    (hoffers : Offers (e.view out) r f) (hd : CommitPayload.decode frame = .ok commit)
    (hpurpose : r.purpose = .rekey) (hpurpose' : commit.purpose = .rekey)
    (hsame : commit.previousSessionId = r.previous)
    (hwin : localIdentityWinsRekeyGlare e.identity.identity y.identity.identity = true) :
    Acts e out (.frameReceived frame) fun x sent => x = e.view out ∧ sent = [] := by
  obtain ⟨hphase, -⟩ := hoffers.established hpurpose
  exact Acts.plain (becomes_ignored hphase hoffers.run_eq hoffers.role hoffers.step hd hpurpose'
    (hpeer hphase) hsame hwin) (by simp) ⟨rfl, rfl⟩

/-- The loser of a glare gives up its run for that of the winner. -/
theorem Offers.yield {r r' : Run} {f f' : Frame} (hlevel : Level (e.view out) (e'.view out'))
    (hpeer' : e'.phase = .established → e'.peerIdentity = some e.identity.identity)
    (hoffers : Offers (e.view out) r f) (hoffers' : Offers (e'.view out') r' f')
    (hpurpose : r.purpose = .rekey)
    (hwin : localIdentityWinsRekeyGlare e.identity.identity e'.identity.identity = true)
    (hc : (commitOf r.purpose r.previous f).encode = .ok frame)
    (hcomp : Competes (e.view out) (e'.view out') r toX)
    (hw : SameWords (e.view out) (e'.view out')) :
    Acts e' out' (.frameReceived frame) fun y sent =>
      Exchange (e.view out) y (toX ++ sent) [] ∧ Follows y (e'.view out') e.identity.identity := by
  have hd := CommitPayload.decode_encode rfc hc
  obtain ⟨helloFrame, hh⟩ := e'.hello_isOk rfc .responder r.purpose r.previous hoffers.fits
  obtain ⟨hphase, hprev⟩ := hoffers.established hpurpose
  have hphase' : e'.phase = .established := hlevel.phase.trans hphase
  have hpurpose' : r'.purpose = .rekey := by
    obtain ⟨h, -⟩ | ⟨-, h, -⟩ := hoffers'.belongs
    · cases hphase'.symm.trans h
    · exact h
  obtain ⟨-, hprev'⟩ := hoffers'.established hpurpose'
  have hprev₁ : r.previous = e'.activeSessionId := hprev.trans hlevel.activeId.symm
  have hloses : localIdentityWinsRekeyGlare e'.identity.identity e.identity.identity = false := by
    simp only [localIdentityWinsRekeyGlare, decide_eq_true_eq, decide_eq_false_iff_not] at hwin ⊢
    exact List.lt_asymm hwin
  have hsome : r.previous.isSome := by
    have := hoffers.fits
    rw [hpurpose] at this
    exact this
  refine Acts.plain (becomes_yielded hphase' hoffers'.run_eq hoffers'.role hoffers'.step hd hpurpose
    (hpeer' hphase') (hprev₁.trans hprev'.symm) hloses hh hsome hprev₁)
    (by simp) ⟨?_, .of_eq rfl rfl rfl hpeer'⟩
  refine .answered ⟨hlevel.phase, hlevel.activeId, hlevel.completed⟩ hoffers
    ⟨rfl, ⟨hoffers.role, rfl, rfl, rfl, hoffers.fits⟩, rfl, rfl, rfl⟩ hcomp hh ⟨?_, fun _ => hw⟩
  intro h
  rw [hpurpose] at h
  cases h

end Commits

section Hellos

include rfc

include hprim in
theorem Offers.reveal {r r' : Run} {f : Frame} (hs : Sides e e')
    (hlevel : Level (e.view out) (e'.view out'))
    (hpeer : e.phase = .established → e.peerIdentity = some e'.identity.identity)
    (hoffers : Offers (e.view out) r f) (hanswers : AnswersRun (e.view out) (e'.view out') r r' f)
    (hello : r'.localHello.encode = .ok frame)
    (hw : ShownBefore (e.view out) (e'.view out') r.purpose) :
    Acts e out (.frameReceived frame) fun x sent =>
      Exchange x (e'.view out') [] sent ∧ Follows x (e.view out) e'.identity.identity := by
  have hrun : e.run = some r := hoffers.run_eq
  have hrun' : e'.run = some r' := hanswers.run_eq
  have hsound := hs.pinned.run_sound r hrun
  have hsound' := hs.pinned'.run_sound r' hrun'
  have hmeets := hanswers.meets
  have hfresh := hs.fresh r r' hrun hrun'
  obtain ⟨transcript, hash, shared, hsettles⟩ := hmeets.settles rfc hprim hsound hsound' hfresh
  have hchecked := hsound.checks hsound' hmeets.purpose hmeets.previous hs.distinct.symm
    (fun hp => hpeer (hoffers.established hp).1) hfresh.1.symm
  rw [hmeets.role'] at hchecked
  have hacc : AcceptsHello e r frame r'.localHello .responder :=
    ⟨HelloPayload.decode_encode rfc hello, hchecked⟩
  have hno : r.step = .hello → ∀ commit, CommitPayload.decode frame ≠ .ok commit :=
    fun _ => HelloPayload.not_commit (HelloPayload.carries_of_encode rfc hello)
  have hex : e.Expects frame := by
    refine hs.fits.expects hrun ?_
    rw [HelloPayload.encode_type hello, hsound'.purpose, hmeets.purpose]
  have hreveal : r.localHello.encode = .ok f := hsound.kept f hoffers.kept
  have hc (step : Step) : r.Continues { r.agreed r'.localHello transcript hash shared with
      localHelloFrame := none, step } := ⟨rfl, rfl, rfl, rfl, rfl, rfl⟩
  cases hpurpose : r.purpose with
  | initial =>
      obtain ⟨hx, hy⟩ := hw.initial hpurpose
      have hb := becomes_stepped hs.fits hex hrun hno
        (.helloSas hoffers.step hacc hoffers.kept hsettles.agrees hpurpose)
      refine ⟨_, _, hb, by simp [Effect.Fine], ?_, .of_eq rfl rfl rfl hpeer⟩
      refine .revealed ⟨hlevel.phase, hlevel.activeId, ?_⟩
        ⟨rfl, hoffers.role, rfl, rfl, rfl, rfl⟩ hreveal
        ⟨hrun', hmeets.continues (hc .sas) (.refl r'), hanswers.commit, hanswers.step, hanswers.early⟩
        (hsettles.continues (hc .sas) (.refl r')) (.waits rfl hpurpose) ?_ ?_
      · rw [Engine.view_completed_append]
        exact hlevel.completed
      · intro _
        refine ⟨?_, hy⟩
        rw [Engine.view_shown_append]
        exact congrArg (· ++ [sasWords hash]) hx
      · intro h
        cases hpurpose.symm.trans h
  | rekey =>
      obtain ⟨auth, hauth⟩ := hsettles.auth_isOk rfc
      refine Acts.plain (becomes_stepped hs.fits hex hrun hno (.helloAuth hoffers.step hacc hoffers.kept
        hsettles.agrees hpurpose hoffers.role hauth)) (by simp)
        ⟨?_, .of_eq rfl rfl rfl hpeer⟩
      refine .revealed ⟨hlevel.phase, hlevel.activeId, hlevel.completed⟩
        ⟨rfl, hoffers.role, rfl, rfl, rfl, rfl⟩ hreveal
        ⟨hrun', hmeets.continues (hc .authResp) (.refl r'), hanswers.commit, hanswers.step,
          hanswers.early⟩
        (hsettles.continues (hc .authResp) (.refl r')) (.signed rfl hauth) ?_ ?_
      · intro h
        cases hpurpose.symm.trans h
      · intro _
        exact hw.rekey hpurpose

theorem AnswersRun.met {r r' : Run} {f : Frame} {transcript : Transcript} {hash shared : Bytes 32}
    {sent : List Frame} (hs : Sides e e') (hlevel : Level (e.view out) (e'.view out'))
    (hpeer' : e'.phase = .established → e'.peerIdentity = some e.identity.identity)
    (hruns : Runs (e.view out) r .initiator transcript hash shared r'.localHello.identityPublicKey)
    (hello : r.localHello.encode = .ok f) (hanswers : AnswersRun (e.view out) (e'.view out') r r' f)
    (hsettles : Settles e.identity e'.identity r r' transcript hash shared)
    (hsigns : Signs e.identity r transcript hash sent)
    (hw : r.purpose = .initial →
      (e.view out).shown = [sasWords hash] ∧ (e'.view out').shown = [])
    (hw' : r.purpose = .rekey → SameWords (e.view out) (e'.view out')) :
    Acts e' out' (.frameReceived f) fun y answer =>
      Exchange (e.view out) y answer sent ∧ Follows y (e'.view out') e.identity.identity := by
  have hrun : e.run = some r := hruns.run_eq
  have hrun' : e'.run = some r' := hanswers.run_eq
  have hsound := hs.pinned.run_sound r hrun
  have hsound' := hs.pinned'.run_sound r' hrun'
  have hmeets := hanswers.meets
  have hfresh := hs.fresh r r' hrun hrun'
  have hphase' : r'.purpose = .rekey → e'.phase = .established := by
    intro hp
    obtain ⟨-, h⟩ | ⟨h, -⟩ := hs.fits'.run_purpose r' hrun'
    · cases hp.symm.trans h
    · exact h
  have hchecked := hsound'.checks hsound hmeets.purpose.symm hmeets.previous.symm hs.distinct
    (fun hp => hpeer' (hphase' hp)) hfresh.1
  rw [hmeets.role] at hchecked
  have hacc : AcceptsHello e' r' f r.localHello .initiator :=
    ⟨HelloPayload.decode_encode rfc hello, hchecked⟩
  have hno : r'.step = .hello → ∀ commit, CommitPayload.decode f ≠ .ok commit :=
    fun _ => HelloPayload.not_commit (HelloPayload.carries_of_encode rfc hello)
  have hex : e'.Expects f := by
    refine hs.fits'.expects hrun' ?_
    rw [HelloPayload.encode_type hello, hsound.purpose, hmeets.purpose]
  have hc (step : Step) : r'.Continues { r'.agreed r.localHello transcript hash shared with step } :=
    ⟨rfl, rfl, rfl, rfl, rfl, rfl⟩
  cases hpurpose : r'.purpose with
  | initial =>
      have hpurpose₀ : r.purpose = .initial := hmeets.purpose.symm.trans hpurpose
      obtain ⟨hx, hy⟩ := hw hpurpose₀
      have hb := becomes_stepped hs.fits' hex hrun' hno
        (.revealSas hanswers.step hacc hanswers.commit rfl hsettles.agrees' hpurpose)
      refine ⟨_, _, hb, by simp [Effect.Fine], ?_, .of_eq rfl rfl rfl hpeer'⟩
      refine .met ⟨⟨hlevel.phase, hlevel.activeId, ?_⟩, hmeets.continues (.refl r) (hc .sas), hruns,
        ⟨rfl, hmeets.role', rfl, rfl, rfl, rfl⟩, hsettles.continues (.refl r) (hc .sas),
        ⟨hash, hx, ?_⟩⟩ hsigns (.sas rfl hpurpose hanswers.early)
      · rw [Engine.view_completed_append]
        exact hlevel.completed
      · rw [Engine.view_shown_append]
        exact congrArg (· ++ [sasWords hash]) hy
  | rekey =>
      have hpurpose₀ : r.purpose = .rekey := hmeets.purpose.symm.trans hpurpose
      refine Acts.plain (becomes_stepped hs.fits' hex hrun' hno (.revealAuth hanswers.step hacc
        hanswers.commit rfl hsettles.agrees' hpurpose hmeets.role')) (by simp)
        ⟨?_, .of_eq rfl rfl rfl hpeer'⟩
      exact .met ⟨⟨hlevel.phase, hlevel.activeId, hlevel.completed⟩,
        hmeets.continues (.refl r) (hc .authInit), hruns, ⟨rfl, hmeets.role', rfl, rfl, rfl, rfl⟩,
        hsettles.continues (.refl r) (hc .authInit), hw' hpurpose₀⟩ hsigns
        (.ready rfl hanswers.early)

end Hellos

section Auths

variable {r r' : Run} {transcript : Transcript} {hash shared : Bytes 32}

omit [Ciborium] [Primitives] in
theorem Holds.of_eq {run run' : Run} {remote : PeerIdentity}
    (h : Holds run transcript hash shared remote) (htranscript : run'.transcript = run.transcript)
    (hhash : run'.hash = run.hash) (hshared : run'.shared = run.shared)
    (hremote : run'.remoteIdentity = run.remoteIdentity) : Holds run' transcript hash shared remote :=
  ⟨htranscript.trans h.transcript_eq, hhash.trans h.hash_eq, hshared.trans h.shared_eq,
    hremote.trans h.remote_eq⟩

include rfc in
theorem Holds.acceptsAuth {run : Run} {remote : PeerIdentity} {auth : HandshakePayload}
    (hholds : Holds run transcript hash shared remote) (hfits : auth.StageFits)
    (hauth : auth.encode = .ok frame)
    (hv : verifyHandshakeForRole auth transcript shared true =
      .ok (deriveSessionKeys shared hash, hash)) :
    AcceptsAuth run frame auth transcript shared (deriveSessionKeys shared hash) hash :=
  ⟨HandshakePayload.decode_encode rfc hfits hauth, hholds.transcript_eq, hholds.shared_eq, hv⟩

include rfc hprim

/-- The AUTH of the initiator is accepted by the run of the responder. -/
theorem Agreed.acceptsAuth {x y : View} {run : Run} (h : Agreed x y r r' transcript hash shared)
    (hholds : Holds run transcript hash shared r.localHello.identityPublicKey)
    (hauth : (authBy x.identity transcript hash).encode = .ok frame) :
    AcceptsAuth run frame (authBy x.identity transcript hash) transcript shared
      (deriveSessionKeys shared hash) hash := by
  obtain ⟨encoded, henc, hhash⟩ := h.settles.agrees.hash_eq
  exact hholds.acceptsAuth rfc (.inl ⟨rfl, rfl⟩) hauth
    (verify_authBy hprim x.identity hash shared henc hhash h.settles.initiator)

theorem Agreed.acceptsResponse {x y : View} (h : Agreed x y r r' transcript hash shared)
    (hauth : (responseBy y.identity transcript hash (authBy x.identity transcript hash)).encode =
      .ok frame) :
    AcceptsAuth r frame (responseBy y.identity transcript hash (authBy x.identity transcript hash))
      transcript shared (deriveSessionKeys shared hash) hash := by
  obtain ⟨encoded, henc, hhash⟩ := h.settles.agrees.hash_eq
  exact h.runs.holds.acceptsAuth rfc (.inr ⟨rfl, rfl⟩) hauth
    (verify_responseBy hprim x.identity hash y.identity shared henc hhash h.settles.initiator
      h.settles.responder)

theorem Agreed.auth {sent : List Frame} (hs : Sides e e')
    (hpeer' : e'.phase = .established → e'.peerIdentity = some e.identity.identity)
    (h : Agreed (e.view out) (e'.view out') r r' transcript hash shared)
    (hsigns : Signs e.identity r transcript hash sent) (hawaits : Awaits r' sent (frame :: rest)) :
    Acts e' out' (.frameReceived frame) fun y answer =>
      Exchange (e.view out) y answer rest ∧ Follows y (e'.view out') e.identity.identity := by
  have hrun' : e'.run = some r' := h.runs'.run_eq
  have hfinal : r'.step ≠ .hello := by
    cases hawaits with
    | sas hst => simp [hst]
    | ready hst => simp [hst]
  have hsent : frame :: rest = sent := by
    cases hawaits <;> rfl
  subst hsent
  obtain ⟨hst, hauth, rfl⟩ : r.step = .authResp ∧
      (authBy e.identity transcript hash).encode = .ok frame ∧ rest = [] := by
    cases hsigns with
    | signed hst hauth => exact ⟨hst, hauth, rfl⟩
  have htype : frame.messageType = messageTypeForPurpose r.purpose := by
    rw [HandshakePayload.encode_type hauth]
    exact congrArg messageTypeForPurpose h.settles.purpose
  have hex : e'.Expects frame := by
    refine hs.fits'.expects hrun' ?_
    rw [htype, h.meets.purpose]
  have hno : r'.step = .hello → ∀ commit, CommitPayload.decode frame ≠ .ok commit :=
    fun hh => absurd hh hfinal
  cases hawaits with
  | sas hstep' hpurpose' hearly =>
      have hc : r'.Continues { r' with early := some frame } := ⟨rfl, rfl, rfl, rfl, rfl, rfl⟩
      refine Acts.plain (becomes_stepped hs.fits' hex hrun' hno
        (.early hstep' h.meets.role' hearly ?_)) (by simp) ⟨?_, .of_eq rfl rfl rfl hpeer'⟩
      · rw [htype, ← h.meets.purpose, hpurpose']
        rfl
      · exact .met ⟨⟨h.level.phase, h.level.activeId, h.level.completed⟩,
          h.meets.continues (.refl r) hc, h.runs, ⟨rfl, h.meets.role', h.runs'.holds.of_eq rfl rfl rfl rfl⟩,
          h.settles.continues (.refl r) hc, h.words⟩ hsigns (.early hstep' hpurpose' rfl rfl)
  | ready hstep' hearly =>
      have hc : r'.Continues { r' with
          keys := some (deriveSessionKeys shared hash), step := .confirmInit } :=
        ⟨rfl, rfl, rfl, rfl, rfl, rfl⟩
      obtain ⟨reply, hreply⟩ := h.settles.response_isOk rfc (authBy e.identity transcript hash)
      refine Acts.plain (becomes_stepped hs.fits' hex hrun' hno
        (.authInit hstep' (h.acceptsAuth rfc hprim h.runs'.holds hauth) ⟨rfl, rfl⟩ hreply))
        (by simp) ⟨?_, .of_eq rfl rfl rfl hpeer'⟩
      exact .signed ⟨⟨h.level.phase, h.level.activeId, h.level.completed⟩,
        h.meets.continues (.refl r) hc, h.runs, ⟨rfl, h.meets.role', h.runs'.holds.of_eq rfl rfl rfl rfl⟩,
        h.settles.continues (.refl r) hc, h.words⟩ hst rfl rfl hreply

theorem Agreed.response (hs : Sides e e')
    (hpeer : e.phase = .established → e.peerIdentity = some e'.identity.identity)
    (h : Agreed (e.view out) (e'.view out') r r' transcript hash shared)
    (hstep : r.step = .authResp) (hstep' : r'.step = .confirmInit)
    (hkeys' : r'.keys = some (deriveSessionKeys shared hash))
    (hauth : (responseBy e'.identity transcript hash (authBy e.identity transcript hash)).encode =
      .ok frame) :
    Acts e out (.frameReceived frame) fun x sent =>
      Exchange x (e'.view out') [] sent ∧ Follows x (e.view out) e'.identity.identity := by
  have hrun : e.run = some r := h.runs.run_eq
  have hex : e.Expects frame := by
    refine hs.fits.expects hrun ?_
    rw [HandshakePayload.encode_type hauth]
    exact congrArg messageTypeForPurpose h.settles.purpose
  have hno : r.step = .hello → ∀ commit, CommitPayload.decode frame ≠ .ok commit := by
    simp [hstep]
  have hc : r.Continues { r with
      keys := some (deriveSessionKeys shared hash), step := .confirmResp } :=
    ⟨rfl, rfl, rfl, rfl, rfl, rfl⟩
  obtain ⟨confirm, hconfirm⟩ := confirmOf_isOk rfc (deriveSessionKeys shared hash) hash .initiator
  refine Acts.plain (becomes_stepped hs.fits hex hrun hno
    (.authResp hstep (h.acceptsResponse rfc hprim hauth) ⟨rfl, rfl⟩ hconfirm))
    (by simp) ⟨?_, .of_eq rfl rfl rfl hpeer⟩
  exact .confirmed ⟨⟨h.level.phase, h.level.activeId, h.level.completed⟩,
    h.meets.continues hc (.refl r'), ⟨rfl, h.meets.role, h.runs.holds.of_eq rfl rfl rfl rfl⟩, h.runs',
    h.settles.continues hc (.refl r'), h.words⟩ rfl hstep' rfl hkeys' hconfirm

end Auths

section Confirms

structure Completes (x x' : View) (purpose : HandshakePurpose) (keys : SessionKeys)
    (peer : PeerIdentity) : Prop where
  identity : x'.identity = x.identity
  phase : x'.phase = .established
  run : x'.run = none
  activeId : x'.activeId = some keys.sessionId
  peer : x'.peer = some peer
  completed : x'.completed = x.completed + if purpose = .rekey then 1 else 0
  shown : x'.shown = x.shown

structure Engine.Enters (e e₁ : Engine) (keys : SessionKeys) (role : HelloRole) (peer : PeerIdentity) :
    Prop where
  identity : e₁.identity = e.identity
  phase : e₁.phase = .established
  run : e₁.run = none
  active_eq : e₁.active = some (Session.new keys role peer)
  draining_eq : e₁.draining = e.active

theorem Engine.Fits.enters {run run' : Run} {keys : SessionKeys} {peer : PeerIdentity}
    {es : List Effect} (hf : e.Fits) (hrun : e.run = some run)
    (ht : frame.messageType = .sessionConfirm)
    (hsteps : Steps e run frame es (.ok (run', some ⟨keys, peer, run.role⟩)))
    (hpeer : e.phase = .established → e.peerIdentity = some peer)
    (hfresh : e.activeSessionId ≠ some keys.sessionId) : ∃ event e₁,
      e.Becomes (.frameReceived frame) (es ++ [.notify event]) e₁ ∧ e.Enters e₁ keys run.role peer ∧
      (run.purpose = .initial ∧ event = .established peer ∨
        run.purpose = .rekey ∧ event = .rekeyCompleted) := by
  obtain ⟨hphase, hpurpose⟩ | ⟨hphase, hpurpose⟩ := hf.run_purpose run hrun
  · have hne : e.phase ≠ .established := by simp [hphase]
    have hactive : e.active = none :=
      Option.not_isSome_iff_eq_none.1 fun h => hne (hf.active_iff.1 h)
    have hdraining : e.draining = none :=
      Option.not_isSome_iff_eq_none.1 fun h => hne (hf.draining_phase h)
    exact ⟨_, _, becomes_established hf hphase (by simp [ht]) hrun hsteps,
      ⟨rfl, rfl, rfl, rfl, hdraining.trans hactive.symm⟩, .inl ⟨hpurpose, rfl⟩⟩
  · obtain ⟨active, ha, hp⟩ := Option.map_eq_some_iff.1 (hpeer hphase)
    have hid : active.id ≠ keys.sessionId := by
      intro hid
      refine hfresh ?_
      rw [Engine.activeSessionId, ha, Option.map_some, hid]
    exact ⟨_, _, becomes_promoted hf hphase ht hrun hsteps ⟨active, ha, hp, hid⟩,
      ⟨rfl, hphase, rfl, rfl, rfl⟩, .inr ⟨hpurpose, rfl⟩⟩

theorem Engine.Fits.completes {run run' : Run} {keys : SessionKeys} {peer : PeerIdentity}
    {es : List Effect} {P : View → List Frame → Prop} (hf : e.Fits) (hrun : e.run = some run)
    (ht : frame.messageType = .sessionConfirm)
    (hsteps : Steps e run frame es (.ok (run', some ⟨keys, peer, run.role⟩)))
    (hpeer : e.phase = .established → e.peerIdentity = some peer)
    (hfresh : e.activeSessionId ≠ some keys.sessionId) (hplain : ∀ effect ∈ es, effect.Plain)
    (h : ∀ x, Completes (e.view out) x run.purpose keys peer → P x (es.filterMap Effect.frame?)) :
    Acts e out (.frameReceived frame) P := by
  obtain ⟨event, e₁, hb, henters, hevent⟩ := hf.enters hrun ht hsteps hpeer hfresh
  have hactive : e₁.activeSessionId = some keys.sessionId := by
    rw [Engine.activeSessionId, henters.active_eq]
    rfl
  have hpeer₁ : e₁.peerIdentity = some peer := by
    rw [Engine.peerIdentity, henters.active_eq]
    rfl
  obtain ⟨hpurpose, rfl⟩ | ⟨hpurpose, rfl⟩ := hevent
  · refine Acts.notified hb hplain trivial
      (h _ ⟨henters.identity, henters.phase, henters.run, hactive, hpeer₁, ?_, rfl⟩)
    rw [hpurpose]
    rfl
  · refine Acts.notified hb hplain trivial
      (h _ ⟨henters.identity, henters.phase, henters.run, hactive, hpeer₁, ?_, rfl⟩)
    rw [hpurpose]
    rfl

variable {r r' : Run} {transcript : Transcript} {hash shared : Bytes 32} {keys : SessionKeys}

include rfc in
theorem Holds.acceptsConfirm {run : Run} {remote : PeerIdentity} {role : HelloRole}
    (hholds : Holds run transcript hash shared remote) (hkeys : run.keys = some keys)
    (hconfirm : (confirmOf keys hash role).encode = .ok frame) :
    AcceptsConfirm run frame (confirmOf keys hash role) keys hash role :=
  ⟨SessionConfirmPayload.decode_encode rfc hconfirm, hkeys, hholds.hash_eq,
    verifyFrom_confirmOf keys hash role⟩

include rfc

/-- The confirmation of the initiator reaches the responder, which completes and
confirms in turn. -/
theorem Agreed.confirm (hs : Sides e e')
    (hpeer' : e'.phase = .established → e'.peerIdentity = some e.identity.identity)
    (h : Agreed (e.view out) (e'.view out') r r' transcript hash shared)
    (hstep : r.step = .confirmResp) (hstep' : r'.step = .confirmInit) (hkeys : r.keys = some keys)
    (hkeys' : r'.keys = some keys) (hconfirm : (confirmOf keys hash .initiator).encode = .ok frame) :
    Acts e' out' (.frameReceived frame) fun y answer =>
      Exchange (e.view out) y answer [] ∧ Follows y (e'.view out') e.identity.identity := by
  have hrun : e.run = some r := h.runs.run_eq
  have hrun' : e'.run = some r' := h.runs'.run_eq
  have ht : frame.messageType = .sessionConfirm := SessionConfirmPayload.encode_type hconfirm
  have hremote : r.localHello.identityPublicKey = e.identity.identity :=
    (hs.pinned.run_sound r hrun).identity
  have hremote' : r'.localHello.identityPublicKey = e'.identity.identity :=
    (hs.pinned'.run_sound r' hrun').identity
  obtain ⟨reply, hreply⟩ := confirmOf_isOk rfc keys hash .responder
  have hsteps : Steps e' r' frame [.send reply] _ := .confirmInit hstep'
    (h.runs'.holds.acceptsConfirm rfc hkeys' hconfirm) hreply h.runs'.holds.remote_eq
  rw [hremote] at hsteps
  refine hs.fits'.completes hrun' ht hsteps hpeer' (hs.freshId' r' keys hrun' hkeys')
    (by simp) ?_
  intro y hy
  refine ⟨?_, ⟨hy.identity, fun _ => hy.peer⟩⟩
  obtain ⟨words, hw, hw'⟩ := h.words
  have hruns : Runs (e.view out) r .initiator transcript hash shared y.identity.identity := by
    have := h.runs
    rw [hremote'] at this
    rwa [hy.identity]
  refine .closing hruns hstep hkeys hy.phase hy.activeId ?_ hreply
    ⟨words, hw, hy.shown.trans hw'⟩ (.inl ⟨hy.run, rfl⟩)
  rw [hy.completed, h.meets.purpose, h.level.completed]

/-- The confirmation of the responder reaches the initiator. -/
theorem Exchange.finish (hs : Sides e e')
    (hpeer : e.phase = .established → e.peerIdentity = some e'.identity.identity)
    (hruns : Runs (e.view out) r .initiator transcript hash shared e'.identity.identity)
    (hstep : r.step = .confirmResp) (hkeys : r.keys = some keys) (hphase' : e'.phase = .established)
    (hactive' : e'.activeSessionId = some keys.sessionId)
    (hcompleted : (e'.view out').completed =
      (e.view out).completed + if r.purpose = .rekey then 1 else 0)
    (hconfirm : (confirmOf keys hash .responder).encode = .ok frame)
    (hw : SameWords (e.view out) (e'.view out'))
    (hafter : (e'.run = none ∧ rest = []) ∨ ∃ r' f frame', Offers (e'.view out') r' f ∧
      r'.purpose = .rekey ∧ (commitOf r'.purpose r'.previous f).encode = .ok frame' ∧
        rest = [frame']) :
    Acts e out (.frameReceived frame) fun x sent => sent = [] ∧
      (Exchange x (e'.view out') rest [] ∨ Exchange (e'.view out') x [] rest) ∧
      Follows x (e.view out) e'.identity.identity := by
  have hrun : e.run = some r := hruns.run_eq
  have ht : frame.messageType = .sessionConfirm := SessionConfirmPayload.encode_type hconfirm
  have hsteps : Steps e r frame [] _ := .confirmResp hstep
    (hruns.holds.acceptsConfirm rfc hkeys hconfirm) hruns.holds.remote_eq
  refine hs.fits.completes hrun ht hsteps hpeer (hs.freshId r keys hrun hkeys) (by simp) ?_
  intro x hx
  refine ⟨rfl, ?_, ⟨hx.identity, fun _ => hx.peer⟩⟩
  obtain ⟨words, hw₁, hw₂⟩ := hw
  have hlevel : Level x (e'.view out') :=
    ⟨hphase'.trans hx.phase.symm, hactive'.trans hx.activeId.symm, hcompleted.trans hx.completed.symm⟩
  have hwords : SameWords x (e'.view out') := ⟨words, hx.shown.trans hw₁, hw₂⟩
  obtain ⟨hrun', rfl⟩ | ⟨r', f, frame', hoffers, hpurpose, hcommit, rfl⟩ := hafter
  · exact .inl (.quiet hlevel hx.phase hx.run hrun' hwords)
  · refine .inr (.offered ⟨hlevel.phase.symm, hlevel.activeId.symm, hlevel.completed.symm⟩ hoffers hx.run
      hcommit ⟨?_, fun _ => ⟨words, hw₂, hx.shown.trans hw₁⟩⟩)
    intro hp
    cases hpurpose.symm.trans hp

end Confirms

end Delivery

section Starting

inductive Starts (x : View) : View → List Frame → Prop
  | skipped : Starts x x []
  | began {x' r f frame} (run : x.run = none) (offers : Offers x' r f) (purpose : r.purpose = .rekey)
      (commit : (commitOf r.purpose r.previous f).encode = .ok frame)
      (view_eq : x' = { x with run := some r }) : Starts x x' [frame]

theorem Begins.starts (rfc : Ciborium.Rfc8949) {e e₁ : Engine} {out es : List Effect}
    (h : Begins e es e₁) : (∀ effect ∈ es, effect.Plain) ∧
      Starts (e.view out) (e₁.view out) (es.filterMap Effect.frame?) := by
  obtain ⟨rfl, rfl⟩ | ⟨active, helloFrame, frame, hp, hr, ha, hh, hc, rfl, rfl⟩ := h.succeeds rfc
  · exact ⟨by simp, .skipped⟩
  · refine ⟨by simp, ?_⟩
    refine .began hr ⟨rfl, rfl, rfl, rfl, rfl, .inr ⟨hp, rfl, ?_⟩⟩ rfl hc rfl
    show some active.id = e.active.map Session.id
    rw [ha]
    rfl

variable {x y : View} {toX toY sent : List Frame}

theorem Exchange.starts {x' : View} (h : Exchange x y toX toY) (hs : Starts x x' sent) :
    Exchange x' y toX (toY ++ sent) := by
  cases hs with
  | skipped => simpa using h
  | @began _ r f frame hr hoffers hpurpose hcommit hx =>
      subst hx
      cases h with
      | quiet hlevel hphase hrun hrun' hw =>
          refine .offered ⟨hlevel.phase, hlevel.activeId, hlevel.completed⟩ hoffers hrun' hcommit
            ⟨?_, fun _ => hw⟩
          intro hp
          cases hpurpose.symm.trans hp
      | offered _ hoffers' => cases hr.symm.trans hoffers'.run_eq
      | crossed _ hoffers' => cases hr.symm.trans hoffers'.run_eq
      | answered _ hoffers' => cases hr.symm.trans hoffers'.run_eq
      | revealed _ hruns => cases hr.symm.trans hruns.run_eq
      | met hagreed => cases hr.symm.trans hagreed.runs.run_eq
      | signed hagreed => cases hr.symm.trans hagreed.runs.run_eq
      | confirmed hagreed => cases hr.symm.trans hagreed.runs.run_eq
      | closing hruns => cases hr.symm.trans hruns.run_eq

omit [Ciborium] [Primitives] in
theorem localIdentityWinsRekeyGlare_or {a b : PeerIdentity} (h : a ≠ b) :
    localIdentityWinsRekeyGlare a b = true ∨ localIdentityWinsRekeyGlare b a = true := by
  simp only [localIdentityWinsRekeyGlare, decide_eq_true_eq]
  by_contra hn
  obtain ⟨h₁, h₂⟩ := not_or.1 hn
  exact h (Subtype.ext (List.le_antisymm (List.not_lt.1 h₁) (List.not_lt.1 h₂)))

/-- The other side of an exchange under way may begin one of its own: at the same
time, or once it has completed. -/
theorem Exchange.startsOther (rfc : Ciborium.Rfc8949) {y' : View}
    (hdistinct : x.identity.identity ≠ y.identity.identity) (h : Exchange x y toX toY)
    (hs : Starts y y' sent) :
    Exchange x y' (toX ++ sent) toY ∨ Exchange y' x toY (toX ++ sent) := by
  cases hs with
  | skipped => exact .inl (by simpa using h)
  | @began _ r' f' frame' hr hoffers hpurpose hcommit hy =>
      subst hy
      obtain ⟨hphase', hprev'⟩ := hoffers.established hpurpose
      cases h with
      | quiet hlevel hphase hrun hrun' hw =>
          obtain ⟨words, hw₁, hw₂⟩ := hw
          refine .inr (.offered ⟨hlevel.phase.symm, hlevel.activeId.symm, hlevel.completed.symm⟩ hoffers
            hrun hcommit ⟨?_, fun _ => ⟨words, hw₂, hw₁⟩⟩)
          intro hp
          cases hpurpose.symm.trans hp
      | @offered r f frame hlevel hoffers₁ _ hcommit₁ hw =>
          have hpurpose₁ : r.purpose = .rekey := by
            obtain ⟨hphase, -⟩ | ⟨-, hp, -⟩ := hoffers₁.belongs
            · cases (hlevel.phase.symm.trans hphase').symm.trans hphase
            · exact hp
          obtain ⟨hphase₁, hprev₁⟩ := hoffers₁.established hpurpose₁
          obtain ⟨words, hw₁, hw₂⟩ := hw.rekey hpurpose₁
          have hsame : r'.previous = r.previous := by
            rw [hprev', hprev₁]
            exact hlevel.activeId
          obtain hwin | hwin := localIdentityWinsRekeyGlare_or hdistinct
          · refine .inl (.crossed ⟨hlevel.phase, hlevel.activeId, hlevel.completed⟩ hoffers₁ hoffers
              hpurpose₁ (.inr ⟨frame', _, rfl, CommitPayload.decode_encode rfc hcommit, hpurpose₁,
                hpurpose, hsame, hwin⟩) hwin hcommit₁ ⟨words, hw₁, hw₂⟩)
          · refine .inr (.crossed ⟨hlevel.phase.symm, hlevel.activeId.symm, hlevel.completed.symm⟩
              hoffers hoffers₁ hpurpose (.inr ⟨frame, _, rfl, CommitPayload.decode_encode rfc hcommit₁,
                hpurpose, hpurpose₁, hsame.symm, hwin⟩) hwin hcommit ⟨words, hw₂, hw₁⟩)
      | crossed _ _ hoffers₁ => cases hr.symm.trans hoffers₁.run_eq
      | answered _ _ hanswers => cases hr.symm.trans hanswers.run_eq
      | revealed _ _ _ hanswers => cases hr.symm.trans hanswers.run_eq
      | met hagreed => cases hr.symm.trans hagreed.runs'.run_eq
      | signed hagreed => cases hr.symm.trans hagreed.runs'.run_eq
      | confirmed hagreed => cases hr.symm.trans hagreed.runs'.run_eq
      | closing hruns hstep hkeys hp hactive hcompleted hconfirm hw hafter =>
          obtain ⟨-, rfl⟩ | ⟨r₁, f₁, _, hoffers₁, -⟩ := hafter
          · exact .inl (.closing hruns hstep hkeys hp hactive hcompleted hconfirm hw
              (.inr ⟨r', f', frame', hoffers, hpurpose, hcommit, rfl⟩))
          · cases hr.symm.trans hoffers₁.run_eq

end Starting

section Approving

variable {e e' : Engine} {out out' : List Effect} {toX toY : List Frame} {x y : View}

theorem Acts.unasked {P : View → List Frame → Prop}
    (hw : e.phase ≠ .handshaking ∨ ∀ run, e.run = some run → run.step ≠ .sas)
    (h : P (e.view out) []) : Acts e out (.sasDecision true) P :=
  Acts.plain (becomes_unasked hw) (by simp) h

omit [Ciborium] [Primitives] in
theorem Engine.not_waiting {e : Engine} {run : Run} (hrun : e.run = some run) (hstep : run.step ≠ .sas) :
    e.phase ≠ .handshaking ∨ ∀ run, e.run = some run → run.step ≠ .sas := by
  refine .inr fun run' hrun' => ?_
  obtain rfl := Option.some.inj (hrun.symm.trans hrun')
  exact hstep

omit [Ciborium] [Primitives] in
theorem Engine.Fits.handshaking {run : Run} (hf : e.Fits) (hrun : e.run = some run)
    (hp : run.purpose = .initial) : e.phase = .handshaking := by
  obtain ⟨hphase, -⟩ | ⟨-, hp'⟩ := hf.run_purpose run hrun
  · exact hphase
  · cases hp.symm.trans hp'

variable (rfc : Ciborium.Rfc8949)

include rfc

theorem Exchange.approve (hs : Sides e e')
    (hpeer : e.phase = .established → e.peerIdentity = some e'.identity.identity)
    (h : Exchange (e.view out) (e'.view out') toX toY) :
    Acts e out (.sasDecision true) fun x sent =>
      Exchange x (e'.view out') toX (toY ++ sent) ∧ Follows x (e.view out) e'.identity.identity := by
  have hsame : Follows (e.view out) (e.view out) e'.identity.identity := .of_eq rfl rfl rfl hpeer
  have hidle (hw : e.phase ≠ .handshaking ∨ ∀ run, e.run = some run → run.step ≠ .sas) :
      Acts e out (.sasDecision true) fun x sent => Exchange x (e'.view out') toX (toY ++ sent) ∧
        Follows x (e.view out) e'.identity.identity :=
    Acts.unasked hw ⟨by simpa using h, hsame⟩
  have hwaits {r r' : Run} {transcript : Transcript} {hash shared : Bytes 32}
      {P : View → List Frame → Prop}
      (hruns : Runs (e.view out) r .initiator transcript hash shared r'.localHello.identityPublicKey)
      (hsettles : Settles e.identity e'.identity r r' transcript hash shared) (hstep : r.step = .sas)
      (hpurpose : r.purpose = .initial)
      (hP : ∀ auth, (authBy e.identity transcript hash).encode = .ok auth →
        P { e.view out with run := some { r with step := .authResp } } [auth]) :
      Acts e out (.sasDecision true) P := by
    obtain ⟨auth, hauth⟩ := hsettles.auth_isOk rfc
    exact Acts.plain (becomes_approved (hs.fits.handshaking hruns.run_eq hpurpose) hruns.run_eq hstep
      (.initiator hruns.role hruns.holds.transcript_eq hruns.holds.hash_eq hauth))
      (by simp) (hP auth hauth)
  cases h with
  | quiet _ hphase => exact hidle (.inl (by simp only [Engine.view_phase] at hphase; simp [hphase]))
  | offered _ hoffers => exact hidle (Engine.not_waiting hoffers.run_eq (by simp [hoffers.step]))
  | crossed _ hoffers => exact hidle (Engine.not_waiting hoffers.run_eq (by simp [hoffers.step]))
  | answered _ hoffers => exact hidle (Engine.not_waiting hoffers.run_eq (by simp [hoffers.step]))
  | @revealed r r' _ _ _ _ _ hlevel hruns hello hanswers hsettles hsigns hw hw' =>
      cases hsigns with
      | signed hstep _ => exact hidle (Engine.not_waiting hruns.run_eq (by simp [hstep]))
      | waits hstep hpurpose =>
          have hc : r.Continues { r with step := .authResp } := ⟨rfl, rfl, rfl, rfl, rfl, rfl⟩
          refine hwaits hruns hsettles hstep hpurpose fun auth hauth =>
            ⟨?_, .of_eq rfl rfl rfl hpeer⟩
          exact .revealed ⟨hlevel.phase, hlevel.activeId, hlevel.completed⟩
            ⟨rfl, hruns.role, hruns.holds.of_eq rfl rfl rfl rfl⟩ hello
            ⟨hanswers.run_eq, hanswers.meets.continues hc (.refl r'), hanswers.commit, hanswers.step,
              hanswers.early⟩ (hsettles.continues hc (.refl r')) (.signed rfl hauth) hw hw'
  | @met r r' _ _ _ _ _ hagreed hsigns hawaits =>
      cases hsigns with
      | signed hstep _ => exact hidle (Engine.not_waiting hagreed.runs.run_eq (by simp [hstep]))
      | waits hstep hpurpose =>
          have hc : r.Continues { r with step := .authResp } := ⟨rfl, rfl, rfl, rfl, rfl, rfl⟩
          refine hwaits hagreed.runs hagreed.settles hstep hpurpose fun auth hauth =>
            ⟨?_, .of_eq rfl rfl rfl hpeer⟩
          have hawaits' : Awaits r' [auth] (toY ++ [auth]) := by
            cases hawaits with
            | sas hs hp he => exact .sas hs hp he
            | early _ _ _ hsent => cases hsent
            | ready hs he => exact .ready hs he
          exact .met ⟨⟨hagreed.level.phase, hagreed.level.activeId, hagreed.level.completed⟩,
            hagreed.meets.continues hc (.refl r'),
            ⟨rfl, hagreed.runs.role, hagreed.runs.holds.of_eq rfl rfl rfl rfl⟩, hagreed.runs',
            hagreed.settles.continues hc (.refl r'), hagreed.words⟩ (.signed rfl hauth) hawaits'
  | signed hagreed hstep =>
      exact hidle (Engine.not_waiting hagreed.runs.run_eq (by simp [hstep]))
  | confirmed hagreed hstep =>
      exact hidle (Engine.not_waiting hagreed.runs.run_eq (by simp [hstep]))
  | closing hruns hstep => exact hidle (Engine.not_waiting hruns.run_eq (by simp [hstep]))

theorem Exchange.approveOther (hprim : Primitives.Correct) (hs : Sides e e')
    (hpeer' : e'.phase = .established → e'.peerIdentity = some e.identity.identity)
    (h : Exchange (e.view out) (e'.view out') toX toY) :
    Acts e' out' (.sasDecision true) fun y sent =>
      Exchange (e.view out) y (toX ++ sent) toY ∧ Follows y (e'.view out') e.identity.identity := by
  have hsame : Follows (e'.view out') (e'.view out') e.identity.identity := .of_eq rfl rfl rfl hpeer'
  have hidle (hw : e'.phase ≠ .handshaking ∨ ∀ run, e'.run = some run → run.step ≠ .sas) :
      Acts e' out' (.sasDecision true) fun y sent => Exchange (e.view out) y (toX ++ sent) toY ∧
        Follows y (e'.view out') e.identity.identity :=
    Acts.unasked hw ⟨by simpa using h, hsame⟩
  have hnone (hr : e'.run = none) :
      e'.phase ≠ .handshaking ∨ ∀ run, e'.run = some run → run.step ≠ .sas :=
    .inr fun run hrun => by cases hr.symm.trans hrun
  cases h with
  | quiet _ _ _ hrun' => exact hidle (hnone hrun')
  | offered _ _ hrun' => exact hidle (hnone hrun')
  | crossed _ _ hoffers' => exact hidle (Engine.not_waiting hoffers'.run_eq (by simp [hoffers'.step]))
  | answered _ _ hanswers => exact hidle (Engine.not_waiting hanswers.run_eq (by simp [hanswers.step]))
  | revealed _ _ _ hanswers =>
      exact hidle (Engine.not_waiting hanswers.run_eq (by simp [hanswers.step]))
  | @met r r' transcript hash shared sent _ hagreed hsigns hawaits =>
      have hrun' : e'.run = some r' := hagreed.runs'.run_eq
      cases hawaits with
      | ready hstep => exact hidle (Engine.not_waiting hrun' (by simp [hstep]))
      | sas hstep hpurpose hearly =>
          have hc : r'.Continues { r' with step := .authInit } := ⟨rfl, rfl, rfl, rfl, rfl, rfl⟩
          refine Acts.plain (becomes_approved (hs.fits'.handshaking hrun' hpurpose) hrun' hstep
            (.responder hagreed.meets.role' hagreed.runs'.holds.transcript_eq
              hagreed.runs'.holds.hash_eq hearly)) (by simp) ⟨?_, .of_eq rfl rfl rfl hpeer'⟩
          exact .met ⟨⟨hagreed.level.phase, hagreed.level.activeId, hagreed.level.completed⟩,
            hagreed.meets.continues (.refl r) hc, hagreed.runs,
            ⟨rfl, hagreed.meets.role', hagreed.runs'.holds.of_eq rfl rfl rfl rfl⟩,
            hagreed.settles.continues (.refl r) hc, hagreed.words⟩ hsigns (.ready rfl hearly)
      | @early frame hstep hpurpose hearly hsent =>
          subst hsent
          obtain ⟨hst, hauth⟩ : r.step = .authResp ∧
              (authBy e.identity transcript hash).encode = .ok frame := by
            cases hsigns with
            | signed hst hauth => exact ⟨hst, hauth⟩
          have hc : r'.Continues { r' with
              early := none, keys := some (deriveSessionKeys shared hash), step := .confirmInit } :=
            ⟨rfl, rfl, rfl, rfl, rfl, rfl⟩
          obtain ⟨reply, hreply⟩ := hagreed.settles.response_isOk rfc (authBy e.identity transcript hash)
          refine Acts.plain (becomes_approved (hs.fits'.handshaking hrun' hpurpose) hrun' hstep
            (.early hagreed.meets.role' hagreed.runs'.holds.transcript_eq hagreed.runs'.holds.hash_eq
              hearly (hagreed.acceptsAuth rfc hprim hagreed.runs'.holds hauth) ⟨rfl, rfl⟩ hreply))
            (by simp) ⟨?_, .of_eq rfl rfl rfl hpeer'⟩
          exact .signed ⟨⟨hagreed.level.phase, hagreed.level.activeId, hagreed.level.completed⟩,
            hagreed.meets.continues (.refl r) hc, hagreed.runs,
            ⟨rfl, hagreed.meets.role', hagreed.runs'.holds.of_eq rfl rfl rfl rfl⟩,
            hagreed.settles.continues (.refl r) hc, hagreed.words⟩ hst rfl rfl hreply
  | signed hagreed _ hstep' =>
      exact hidle (Engine.not_waiting hagreed.runs'.run_eq (by simp [hstep']))
  | confirmed hagreed _ hstep' =>
      exact hidle (Engine.not_waiting hagreed.runs'.run_eq (by simp [hstep']))
  | closing _ _ _ hp =>
      exact hidle (.inl (by simp only [Engine.view_phase] at hp; simp [hp]))

end Approving

section Joint

theorem Together.symm {x y : View} {toX toY : List Frame} (h : Together x y toX toY) :
    Together y x toY toX :=
  ⟨h.exchange.symm, h.peer', h.peer⟩

theorem Together.follows {x x' y : View} {toX toY toX' toY' : List Frame} (h : Together x y toX toY)
    (hf : Follows x' x y.identity.identity) (hex : Exchange x' y toX' toY' ∨ Exchange y x' toY' toX') :
    Together x' y toX' toY' :=
  ⟨hex, hf.peer, fun hp => by rw [hf.identity]; exact h.peer' hp⟩

theorem Acts.mono {e : Engine} {out : List Effect} {i : Input} {P Q : View → List Frame → Prop}
    (h : Acts e out i P) (himp : ∀ x sent, P x sent → Q x sent) : Acts e out i Q := by
  obtain ⟨es, e₁, hb, hfine, hP⟩ := h
  exact ⟨es, e₁, hb, hfine, himp _ _ hP⟩

variable {e e' : Engine} {out out' : List Effect} {frame : Frame} {rest toX toY : List Frame}
  (rfc : Ciborium.Rfc8949) (hprim : Primitives.Correct) (hs : Sides e e')

include rfc hprim hs

theorem Exchange.deliver
    (hpeer : e.phase = .established → e.peerIdentity = some e'.identity.identity)
    (h : Exchange (e.view out) (e'.view out') (frame :: rest) toY) :
    Acts e out (.frameReceived frame) fun x sent =>
      (Exchange x (e'.view out') rest (toY ++ sent) ∨ Exchange (e'.view out') x (toY ++ sent) rest) ∧
        Follows x (e.view out) e'.identity.identity := by
  have hsame : Follows (e.view out) (e.view out) e'.identity.identity := .of_eq rfl rfl rfl hpeer
  generalize hX : frame :: rest = toX at h
  cases h with
  | quiet => cases hX
  | offered => cases hX
  | crossed hlevel hoffers hoffers' hpurpose hcompetes hwins hcommit hw =>
      subst hX
      obtain h | ⟨_, commit, h, hd, -, hp, hprev, -⟩ := hcompetes
      · cases h
      · cases h
        refine (Competes.deliver hpeer hoffers hd hpurpose hp hprev hwins).mono ?_
        rintro x sent ⟨rfl, rfl⟩
        exact ⟨.inl (.crossed hlevel hoffers hoffers' hpurpose (.inl rfl) hwins hcommit hw), hsame⟩
  | @answered r r' f stale hello hlevel hoffers hanswers hcompetes hhello hw =>
      obtain rfl | ⟨_, commit, rfl, hd, hpurpose, hp, hprev, hwins⟩ := hcompetes
      · cases hX
        refine (Offers.reveal rfc hprim hs hlevel hpeer hoffers hanswers hhello hw).mono ?_
        rintro x sent ⟨hex, hf⟩
        exact ⟨.inl hex, hf⟩
      · cases hX
        refine (Competes.deliver hpeer hoffers hd hpurpose hp hprev hwins).mono ?_
        rintro x sent ⟨rfl, rfl⟩
        refine ⟨.inl ?_, hsame⟩
        show Exchange _ _ ([] ++ [hello]) []
        exact .answered hlevel hoffers hanswers (.inl rfl) hhello hw
  | revealed => cases hX
  | met => cases hX
  | signed hagreed hstep hstep' hkeys' hresponse =>
      cases hX
      refine (hagreed.response rfc hprim hs hpeer hstep hstep' hkeys' hresponse).mono ?_
      rintro x sent ⟨hex, hf⟩
      exact ⟨.inl hex, hf⟩
  | confirmed => cases hX
  | closing hruns hstep hkeys hp hactive hcompleted hconfirm hw hafter =>
      cases hX
      refine (Exchange.finish rfc hs hpeer hruns hstep hkeys hp hactive hcompleted hconfirm hw
        hafter).mono ?_
      rintro x sent ⟨rfl, hex, hf⟩
      exact ⟨hex, hf⟩

theorem Exchange.deliverOther
    (hpeer' : e'.phase = .established → e'.peerIdentity = some e.identity.identity)
    (h : Exchange (e.view out) (e'.view out') toX (frame :: rest)) :
    Acts e' out' (.frameReceived frame) fun y sent =>
      Exchange (e.view out) y (toX ++ sent) rest ∧ Follows y (e'.view out') e.identity.identity := by
  generalize hY : frame :: rest = toY at h
  cases h with
  | quiet => cases hY
  | offered hlevel hoffers hrun' hcommit hw =>
      cases hY
      exact Offers.deliver rfc hlevel hpeer' hoffers hrun' hcommit hw
  | crossed hlevel hoffers hoffers' hpurpose hcompetes hwins hcommit hw =>
      cases hY
      exact Offers.yield rfc hlevel hpeer' hoffers hoffers' hpurpose hwins hcommit hcompetes hw
  | answered => cases hY
  | revealed hlevel hruns hello hanswers hsettles hsigns hw hw' =>
      cases hY
      exact AnswersRun.met rfc hs hlevel hpeer' hruns hello hanswers hsettles hsigns hw hw'
  | met hagreed hsigns hawaits =>
      subst hY
      exact hagreed.auth rfc hprim hs hpeer' hsigns hawaits
  | signed => cases hY
  | confirmed hagreed hstep hstep' hkeys hkeys' hconfirm =>
      cases hY
      exact hagreed.confirm rfc hs hpeer' hstep hstep' hkeys hkeys' hconfirm
  | closing => cases hY

end Joint

theorem Sides.symm {e e' : Engine} (hprim : Primitives.Correct) (hs : Sides e e') : Sides e' e := by
  refine ⟨hs.fits', hs.fits, hs.pinned', hs.pinned, hs.distinct.symm, ?_, hs.freshId', hs.freshId⟩
  intro r r' hr hr'
  obtain ⟨hne, hcontributory⟩ := hs.fresh r' r hr' hr
  obtain ⟨secret, hsecret⟩ := (hs.pinned'.run_sound r hr).drawn
  obtain ⟨secret', hsecret'⟩ := (hs.pinned.run_sound r' hr').drawn
  refine ⟨hne.symm, ?_⟩
  rw [hsecret, hsecret'] at hcontributory ⊢
  have hcomm := hprim.diffieHellman_comm secret secret'
  exact hcomm ▸ hcontributory

section Together

variable {e e' : Engine} {out out' : List Effect} {frame : Frame} {rest toX toY : List Frame}
  (rfc : Ciborium.Rfc8949) (hprim : Primitives.Correct) (hs : Sides e e')

include rfc hprim hs

/-- The next frame of a handshake reaches one side. -/
theorem Together.deliver (h : Together (e.view out) (e'.view out') (frame :: rest) toY) :
    Acts e out (.frameReceived frame) fun x sent => Together x (e'.view out') rest (toY ++ sent) := by
  obtain hex | hex := h.exchange
  · refine (hex.deliver rfc hprim hs h.peer).mono ?_
    rintro x sent ⟨hex', hf⟩
    exact h.follows hf hex'
  · refine (hex.deliverOther rfc hprim (hs.symm hprim) h.peer).mono ?_
    rintro x sent ⟨hex', hf⟩
    exact h.follows hf (.inr hex')

theorem Together.approve (h : Together (e.view out) (e'.view out') toX toY) :
    Acts e out (.sasDecision true) fun x sent => Together x (e'.view out') toX (toY ++ sent) := by
  obtain hex | hex := h.exchange
  · refine (hex.approve rfc hs h.peer).mono ?_
    rintro x sent ⟨hex', hf⟩
    exact h.follows hf (.inl hex')
  · refine (hex.approveOther rfc hprim (hs.symm hprim) h.peer).mono ?_
    rintro x sent ⟨hex', hf⟩
    exact h.follows hf (.inr hex')

omit hprim hs

theorem Together.starts {x x' y : View} {sent : List Frame}
    (hdistinct : x.identity.identity ≠ y.identity.identity) (h : Together x y toX toY)
    (hst : Starts x x' sent) : Together x' y toX (toY ++ sent) := by
  have hf : Follows x' x y.identity.identity := by
    cases hst with
    | skipped => exact .of_eq rfl rfl rfl h.peer
    | began _ _ _ _ hx =>
        subst hx
        exact .of_eq rfl rfl rfl h.peer
  obtain hex | hex := h.exchange
  · exact h.follows hf (.inl (hex.starts hst))
  · exact h.follows hf (hex.startsOther rfc hdistinct.symm hst).symm

end Together

end Ruxmsg
